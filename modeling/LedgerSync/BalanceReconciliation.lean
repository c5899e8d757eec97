import Mathlib.Data.List.Sort
import LedgerSync.Journals

/-!
# Reconciliation of balances

A run compares every account of a tenant with its opening balance, its postings and its active holds
(`compareAccount`), and looks for posted transfers whose journal is missing or does not balance. The
sums leave the database as decimal texts of any size. A run reports exactly the differences
(`reconciliation_exact`), so that every state that commands can reach is clean but for tenants
without accounts.
-/

namespace LedgerSync

open Lib

/-! ## Findings -/

/-- `reconciliationMismatch`; a field that is not set has the zero value. -/
structure ReconciliationMismatch where
  accountId : String := ""
  transferId : String := ""
  classification : String
  currency : String := ""
  expectedMinor : Option Bigint := none
  observedMinor : Option Bigint := none
  observedAvailableMinor : Option Bigint := none
  balanceVersion : Option Bigint := none
  details : Json := .null

/-- The errors of `compareAccount`, with the account. -/
inductive CompareError where
  | observedLedger (account : String)
  | observedAvailable (account : String)
  | balanceVersion (account : String)
  | openingBalance (account : String)
  | postedDelta (account : String)
  | reservation (account : String)
deriving DecidableEq

/-- `parseDatabaseInt`. -/
def parseDatabaseInt (value : String) : Option Bigint := (parseInt64 value).bind Bigint.ofInt?

/-- A value that was read, or an error. -/
def readOr {α : Type} (value : Option α) (e : CompareError) : Except CompareError α :=
  match value with
  | some a => .ok a
  | none => .error e

/-- The finding about an amount, unless it is what is expected; an expected amount beyond 64 bits is
only in the details. -/
def amountMismatch (classification account currency : String) (expected : ℤ) (observed : Bigint)
    (ledger available version : Bigint) : List ReconciliationMismatch :=
  if Bigint.ofInt? expected = some observed then []
  else [{
    accountId := account
    classification := classification
    currency := currency
    expectedMinor := Bigint.ofInt? expected
    observedMinor := some ledger
    observedAvailableMinor := some available
    balanceVersion := some version
    details := .obj [("expected_numeric", .str (decimal expected))] }]

/-- The reserved amount, when one is given; it is not negative. -/
def reservedAmount (account : String) : Option String → Except CompareError ℤ
  | none => .ok 0
  | some held => readOr ((parseInteger held).filter (0 ≤ ·)) (.reservation account)

/-- `compareAccount`. -/
def compareAccount (account currency : String) (available ledger version opening : Option String)
    (postedDelta : String) (heldMinor : Option String) :
    Except CompareError (List ReconciliationMismatch) :=
  match ledger, available, version with
  | some ledger, some available, some version => do
    let observedLedger ← readOr (parseDatabaseInt ledger) (.observedLedger account)
    let observedAvailable ← readOr (parseDatabaseInt available) (.observedAvailable account)
    let balanceVersion ← readOr (parseDatabaseInt version) (.balanceVersion account)
    match opening with
    | none => pure [{
        accountId := account
        classification := "opening_balance_missing"
        currency := currency
        observedMinor := some observedLedger
        observedAvailableMinor := some observedAvailable
        balanceVersion := some balanceVersion }]
    | some opening => do
      let base ← readOr (parseInteger opening) (.openingBalance account)
      let delta ← readOr (parseInteger postedDelta) (.postedDelta account)
      let reserved ← reservedAmount account heldMinor
      pure (amountMismatch "ledger_balance_mismatch" account currency (base + delta)
          observedLedger observedLedger observedAvailable balanceVersion ++
        amountMismatch "available_balance_mismatch" account currency (observedLedger - reserved)
          observedAvailable observedLedger observedAvailable balanceVersion)
  | _, _, _ => pure [{
      accountId := account
      classification := "projection_missing"
      currency := currency }]

/-! ## The rows of a run -/

/-- The amount of a posting, positive for a credit. -/
def Posting.signed (p : Posting) : ℤ :=
  if p.direction = .credit then (p.amount : ℤ) else -p.amount

/-- What postings add up to. -/
def postedDelta (ps : List Posting) : ℤ := (ps.map Posting.signed).sum

/-- What holds reserve. -/
def heldMinor (hs : List Hold) : ℤ := (hs.map fun h => (h.amount : ℤ)).sum

/-- The postings that are counted for an account. -/
def Db.accountPostings (s : Db) (a : Account) : List Posting :=
  s.postings.rows.filter fun p => p.tenantId = a.tenantId ∧ p.accountId = a.id

/-- The holds that reserve an amount of an account. -/
def Db.obligations (s : Db) (a : Account) : List Hold :=
  s.holds.rows.filter fun h =>
    h.tenantId = a.tenantId ∧ h.debitAccountId = a.id ∧ h.state = .active

/-- The row of an account, compared. -/
def Db.compareRow (s : Db) (a : Account) : Except CompareError (List ReconciliationMismatch) :=
  let b := s.balances.find? a.id
  compareAccount a.id.text a.currency (b.map fun b => b.available.text)
    (b.map fun b => b.ledger.text) (b.map fun b => b.version.text)
    ((s.openings.find? a.id).map fun o => o.openingLedger.text)
    (decimal (postedDelta (s.accountPostings a))) (some (decimal (heldMinor (s.obligations a))))

/-- The accounts of a tenant, in the order of their identifiers. -/
def Db.reconciledAccounts (s : Db) (tenant : Uuid) : List Account :=
  (s.accounts.rows.filter (·.tenantId = tenant)).insertionSort fun a b => a.id.toNat ≤ b.id.toNat

/-- The postings of the journal of a transfer, when the journal is the tenant's. -/
def Db.transferEvidence (s : Db) (x : Transfer) : List Posting :=
  match (x.journalTransactionId.bind s.journals.find?).filter (·.tenantId = x.tenantId) with
  | none => []
  | some j => s.postings.rows.filter fun p =>
      p.journalTransactionId = j.id ∧ p.tenantId = j.tenantId

/-- The finding about a posted transfer. -/
def Db.incompleteTransfer? (s : Db) (x : Transfer) : Option ReconciliationMismatch :=
  let ps := s.transferEvidence x
  let signedTotal := decimal (postedDelta ps)
  if ps.length < 2 ∨ postedDelta ps ≠ 0 then some {
    transferId := x.id.text
    classification :=
      if 2 ≤ ps.length ∧ signedTotal ≠ "0" then "journal_unbalanced"
      else "posted_transfer_incomplete"
    details := .obj [("journal_transaction_id",
        .str ((x.journalTransactionId.map Uuid.text).getD "")),
      ("posting_count", .num ps.length), ("signed_total", .str signedTotal),
      ("transfer_id", .str x.id.text)] }
  else none

/-- `findIncompleteTransfers`. -/
def Db.findIncompleteTransfers (s : Db) (tenant : Uuid) : List ReconciliationMismatch :=
  (s.transfers.rows.filter fun x => x.tenantId = tenant ∧ x.status = .posted).filterMap
    s.incompleteTransfer?

/-- The status of a run. -/
inductive ReconciliationStatus where
  | matched
  | mismatch
deriving DecidableEq

/-- What a run found. -/
structure ReconciliationOutcome where
  status : ReconciliationStatus
  checkedAccountCount : ℕ
  postingCount : ℕ
  mismatches : List ReconciliationMismatch

/-- The finding about a tenant without accounts. -/
def scopeEmpty : ReconciliationMismatch where
  classification := "scope_empty"
  details := .obj [("scope", .str "tenant_all_accounts")]

/-- The comparison of `reconcileTx`. -/
def Db.reconcileTx (s : Db) (tenant : Uuid) : Except CompareError ReconciliationOutcome := do
  let accounts := s.reconciledAccounts tenant
  let found ← accounts.mapM s.compareRow
  let scope := if accounts.length = 0 then [scopeEmpty] else []
  let mismatches := found.flatten ++ scope ++ s.findIncompleteTransfers tenant
  pure {
    status := if 0 < mismatches.length then .mismatch else .matched
    checkedAccountCount := accounts.length
    postingCount := (accounts.map fun a => (s.accountPostings a).length).sum
    mismatches := mismatches }

/-! ## One account -/

/-- The amounts of postings in one direction. -/
def sideAmount (direction : Direction) (ps : List Posting) : ℤ :=
  (ps.map fun p => if p.direction = direction then (p.amount : ℤ) else 0).sum

/-- Postings add up to the credits without the debits. -/
theorem postedDelta_eq (ps : List Posting) :
    postedDelta ps = sideAmount .credit ps - sideAmount .debit ps := by
  induction ps with
  | nil => rfl
  | cons p ps ih =>
    unfold postedDelta sideAmount at ih ⊢
    simp only [List.map_cons, List.sum_cons]
    rw [ih]
    unfold Posting.signed
    rcases p.direction with _ | _
    · simp only [reduceCtorEq, if_false, if_true]
      omega
    · simp only [reduceCtorEq, if_false, if_true]
      omega

/-- What holds reserve is not negative. -/
theorem heldMinor_nonneg (hs : List Hold) : 0 ≤ heldMinor hs := by
  refine List.sum_nonneg fun x hx => ?_
  obtain ⟨h, -, rfl⟩ := List.mem_map.mp hx
  exact h.amount_pos.le

/-- The text of a `bigint` is read back. -/
theorem parseDatabaseInt_text (b : Bigint) : parseDatabaseInt b.text = some b := by
  unfold parseDatabaseInt Bigint.text
  rw [parseInt64_decimal b.inRange.1 b.inRange.2, Option.bind_some]
  exact Bigint.ofInt?_eq_some.mpr rfl

/-- A reserved amount that is not negative is read back from its text. -/
theorem reservedAmount_decimal {account : String} {held : ℤ} (h : 0 ≤ held) :
    reservedAmount account (some (decimal held)) = .ok held := by
  unfold reservedAmount
  dsimp only
  rw [parseInteger_decimal, Option.filter_some, if_pos (decide_eq_true h)]
  rfl

/-- The comparison of an account whose rows are all there, with sums of any size. -/
theorem compareAccount_texts (account currency : String) (available ledger version opening : Bigint)
    (delta : ℤ) {held : ℤ} (hheld : 0 ≤ held) :
    compareAccount account currency (some available.text) (some ledger.text) (some version.text)
        (some opening.text) (decimal delta) (some (decimal held)) =
      .ok (amountMismatch "ledger_balance_mismatch" account currency (opening + delta) ledger
          ledger available version ++
        amountMismatch "available_balance_mismatch" account currency (ledger - held) available
          ledger available version) := by
  have hopening : parseInteger opening.text = some (opening : ℤ) := parseInteger_decimal _
  unfold compareAccount
  simp only [parseDatabaseInt_text, parseInteger_decimal, hopening, reservedAmount_decimal hheld,
    readOr]
  rfl

/-- Amounts that are the same are no mismatch. -/
theorem amountMismatch_eq_nil {classification account currency : String} {expected : ℤ}
    {observed ledger available version : Bigint} :
    amountMismatch classification account currency expected observed ledger available version = [] ↔
      (observed : ℤ) = expected := by
  unfold amountMismatch
  rw [← Bigint.ofInt?_eq_some]
  by_cases h : Bigint.ofInt? expected = some observed
  · rw [if_pos h]
    exact iff_of_true rfl h
  · rw [if_neg h]
    exact iff_of_false (List.cons_ne_nil _ _) h

/-- The finding reports the expected amount, and the observed ones. -/
structure ReconciliationMismatch.Reports (m : ReconciliationMismatch) (expected : ℤ)
    (ledger available version : Bigint) : Prop where
  numeric : m.details = .obj [("expected_numeric", .str (decimal expected))]
  fits : ∀ b : Bigint, m.expectedMinor = some b ↔ (b : ℤ) = expected
  ledger : m.observedMinor = some ledger
  available : m.observedAvailableMinor = some available
  version : m.balanceVersion = some version

/-- A mismatch has its classification and reports what was compared. -/
theorem mem_amountMismatch {classification account currency : String} {expected : ℤ}
    {observed ledger available version : Bigint} {m : ReconciliationMismatch}
    (h : m ∈ amountMismatch classification account currency expected observed ledger available
      version) :
    m.classification = classification ∧ m.Reports expected ledger available version := by
  unfold amountMismatch at h
  split_ifs at h
  · cases h
  · obtain rfl := List.mem_singleton.mp h
    exact ⟨rfl, rfl, fun b => Bigint.ofInt?_eq_some, rfl, rfl, rfl⟩

/-! ## All accounts of a tenant -/

/-- The account has its rows, and they agree with its opening balance, postings and active holds. -/
def Db.Reconciled (s : Db) (a : Account) : Prop :=
  ∃ b o, s.balances.find? a.id = some b ∧ s.openings.find? a.id = some o ∧
    (b.ledger : ℤ) = o.openingLedger + sideAmount .credit (s.accountPostings a) -
      sideAmount .debit (s.accountPostings a) ∧
    (b.available : ℤ) = b.ledger - heldMinor (s.obligations a)

/-- The journal of the transfer is there, with postings that add up to nothing. -/
def Db.Evident (s : Db) (x : Transfer) : Prop :=
  2 ≤ (s.transferEvidence x).length ∧ postedDelta (s.transferEvidence x) = 0

section Run

variable {s : Db}

/-- An account never raises an error, and it is without findings exactly when it is reconciled. -/
theorem compareRow_ok (s : Db) (a : Account) :
    ∃ found, s.compareRow a = .ok found ∧ (found = [] ↔ s.Reconciled a) := by
  unfold Db.compareRow
  -- A missing balance or opening is reported, so that the list is not empty.
  rcases hb : s.balances.find? a.id with _ | b
  · refine ⟨_, rfl, iff_of_false (List.cons_ne_nil _ _) ?_⟩
    rintro ⟨b, o, hfind, -⟩
    cases hb.symm.trans hfind
  rcases ho : s.openings.find? a.id with _ | o
  · simp only [Option.map_some, Option.map_none]
    unfold compareAccount
    simp only [parseDatabaseInt_text, readOr]
    refine ⟨_, rfl, iff_of_false (List.cons_ne_nil _ _) ?_⟩
    rintro ⟨b', o, -, hfind, -⟩
    cases ho.symm.trans hfind
  -- The two comparisons are the two equations of a reconciled account.
  refine ⟨_, compareAccount_texts _ _ _ _ _ _ _ (heldMinor_nonneg _), ?_⟩
  rw [List.append_eq_nil_iff, amountMismatch_eq_nil, amountMismatch_eq_nil, postedDelta_eq,
    ← add_sub_assoc]
  constructor
  · rintro ⟨hledger, havailable⟩
    exact ⟨b, o, hb, ho, hledger, havailable⟩
  · rintro ⟨b', o', hb', ho', hledger, havailable⟩
    cases hb.symm.trans hb'
    cases ho.symm.trans ho'
    exact ⟨hledger, havailable⟩

/-- The accounts of a list are compared one after another. -/
theorem mapM_compareRow (s : Db) (accounts : List Account) :
    ∃ found, accounts.mapM s.compareRow = .ok found ∧
      (found.flatten = [] ↔ ∀ a ∈ accounts, s.Reconciled a) := by
  induction accounts with
  | nil => exact ⟨[], rfl, iff_of_true rfl (by simp)⟩
  | cons a accounts ih =>
    obtain ⟨found, hfound, hclean⟩ := compareRow_ok s a
    obtain ⟨rest, hrest, hall⟩ := ih
    refine ⟨found :: rest, ?_, ?_⟩
    · rw [List.mapM_cons, hfound, hrest]
      rfl
    · rw [List.flatten_cons, List.append_eq_nil_iff, hclean, hall, List.forall_mem_cons]

/-- The accounts that are reconciled are those of the tenant. -/
theorem mem_reconciledAccounts {tenant : Uuid} {a : Account} :
    a ∈ s.reconciledAccounts tenant ↔ a ∈ s.accounts ∧ a.tenantId = tenant := by
  unfold Db.reconciledAccounts
  rw [List.mem_insertionSort, List.mem_filter, decide_eq_true_eq]
  rfl

/-- A transfer is complete when its evidence is there. -/
theorem incompleteTransfer?_eq_none {x : Transfer} :
    s.incompleteTransfer? x = none ↔ s.Evident x := by
  unfold Db.incompleteTransfer? Db.Evident
  dsimp only
  by_cases h : (s.transferEvidence x).length < 2 ∨ postedDelta (s.transferEvidence x) ≠ 0
  · rw [if_pos h]
    refine iff_of_false (Option.some_ne_none _) ?_
    rintro ⟨hlength, hzero⟩
    rcases h with hfew | hne
    · omega
    · exact hne hzero
  · rw [if_neg h]
    rw [not_or, not_lt, not_not] at h
    exact iff_of_true rfl h

/-- No transfer is reported when the evidence of all posted ones is there. -/
theorem findIncompleteTransfers_eq_nil {tenant : Uuid} :
    s.findIncompleteTransfers tenant = [] ↔
      ∀ x ∈ s.transfers, x.tenantId = tenant → x.status = .posted → s.Evident x := by
  unfold Db.findIncompleteTransfers
  rw [List.filterMap_eq_nil_iff]
  constructor
  · intro h x hx htenant hstatus
    have hmem : x ∈ s.transfers.rows.filter fun x => x.tenantId = tenant ∧ x.status = .posted :=
      List.mem_filter.mpr ⟨hx, decide_eq_true ⟨htenant, hstatus⟩⟩
    exact incompleteTransfer?_eq_none.mp (h x hmem)
  · intro h x hmem
    obtain ⟨hx, hkept⟩ := List.mem_filter.mp hmem
    obtain ⟨htenant, hstatus⟩ := of_decide_eq_true hkept
    exact incompleteTransfer?_eq_none.mpr (h x hx htenant hstatus)

/-- What a run finds: nothing of an account that is reconciled, one finding for an empty tenant, and
nothing of transfers with their evidence. -/
theorem reconcileTx_ok (s : Db) (tenant : Uuid) :
    ∃ found, (found = [] ↔ ∀ a ∈ s.accounts, a.tenantId = tenant → s.Reconciled a) ∧
      ∃ result, s.reconcileTx tenant = .ok result ∧
        result.mismatches = found ++
          (if ∃ a ∈ s.accounts, a.tenantId = tenant then [] else [scopeEmpty]) ++
          s.findIncompleteTransfers tenant ∧
        (result.status = .matched ↔ result.mismatches = []) := by
  obtain ⟨found, hfound, hclean⟩ := mapM_compareRow s (s.reconciledAccounts tenant)
  refine ⟨found.flatten, ?_, ?_⟩
  · rw [hclean]
    refine ⟨fun h a ha htenant => h a (mem_reconciledAccounts.mpr ⟨ha, htenant⟩), fun h a ha => ?_⟩
    obtain ⟨hmem, htenant⟩ := mem_reconciledAccounts.mp ha
    exact h a hmem htenant
  -- The mismatch for an empty scope is there just when the tenant has no account.
  · have hscope : (s.reconciledAccounts tenant).length = 0 ↔
        ¬∃ a ∈ s.accounts, a.tenantId = tenant := by
      rw [List.length_eq_zero_iff, List.eq_nil_iff_forall_not_mem]
      constructor
      · rintro h ⟨a, ha, htenant⟩
        exact h a (mem_reconciledAccounts.mpr ⟨ha, htenant⟩)
      · intro h a ha
        exact h ⟨a, mem_reconciledAccounts.mp ha⟩
    unfold Db.reconcileTx
    dsimp only
    rw [hfound]
    refine ⟨_, rfl, ?_, ?_⟩
    · dsimp only
      congr 2
      by_cases hsome : ∃ a ∈ s.accounts, a.tenantId = tenant
      · rw [if_pos hsome, if_neg (fun h => hscope.mp h hsome)]
      · rw [if_neg hsome, if_pos (hscope.mpr hsome)]
    -- The status is read off the list of the mismatches.
    · dsimp only
      generalize found.flatten ++ _ ++ s.findIncompleteTransfers tenant = mismatches
      rcases mismatches with _ | ⟨m, mismatches⟩
      · exact iff_of_true rfl rfl
      · rw [if_pos (List.length_pos_of_ne_nil (List.cons_ne_nil _ _))]
        exact iff_of_false (by decide) (List.cons_ne_nil _ _)

end Run

/-! ## States that commands reach -/

/-- Every posted transfer has its journal. -/
def Journaled (s : Db) : Prop :=
  ∀ x ∈ s.transfers, x.status = .posted → ∃ j ∈ s.journals, j.sourceType = .transfer ∧
    j.sourceId = x.id

section Reachable

variable {d : Digest} {s s' : Db}

/-- A posted transfer that is there was there before, or its journal was written with it. -/
theorem Change.journal_of_posted (h : Change d s s') {x : Transfer} (hx : x ∈ s'.transfers)
    (hstatus : x.status = .posted) :
    x ∈ s.transfers ∨ ∃ j ∈ s'.journals, j.sourceType = .transfer ∧ j.sourceId = x.id := by
  -- Only transfers, corrections and captures write a posted transfer.
  have hkeep : s'.transfers = s.transfers → x ∈ s.transfers := fun heq => heq ▸ hx
  cases h with
  | quiet frame => exact .inl (hkeep (by rw [frame]))
  | status => exact .inl (hkeep rfl)
  | claimed _ frame => exact .inl (hkeep (by rw [frame]))
  | cleared h frame => exact .inl (hkeep (by rw [frame, h.frame]))
  | rejected h =>
    rcases (Table.mem_insert? h.transfers).mp hx with rfl | hold
    · cases hstatus
    · exact .inl hold
  | posted h =>
    rcases (Table.mem_insert? h.transfers).mp hx with rfl | hold
    · exact .inr ⟨_, (Table.mem_insert? h.journals).mpr (.inl rfl), rfl,
        (pendingTransfer?_eq_some h.row_eq).1.symm⟩
    · exact .inl hold
  | corrected h =>
    rcases (Table.mem_insert? h.transfers).mp hx with rfl | hold
    · exact .inr ⟨_, (Table.mem_insert? h.journals).mpr (.inl rfl), rfl, rfl⟩
    · exact .inl hold
  | funded h => exact .inl (hkeep (by rw [h.frame]))
  | reserved h => exact .inl (hkeep (by rw [h.frame]))
  | returned _ h => exact .inl (hkeep (by rw [h.frame]))
  -- The capture posts in its middle state and keeps both tables after it.
  | captured h =>
    have htransfers : s'.transfers = h.mid.transfers := (congrArg Db.transfers h.frame :)
    have hjournals : s'.journals = h.mid.journals := (congrArg Db.journals h.frame :)
    rw [htransfers] at hx
    rw [hjournals]
    rcases (Table.mem_insert? h.posted.transfers).mp hx with rfl | hold
    · exact .inr ⟨_, (Table.mem_insert? h.posted.journals).mpr (.inl rfl), rfl,
        (pendingTransfer?_eq_some h.posted.row_eq).1.symm⟩
    · exact .inl hold
  | imported h => exact .inl (hkeep (by rw [h.frame]))

/-- A returning call keeps every posted transfer with its journal. -/
theorem Change.journaled (h : Change d s s') (hs : Journaled s) : Journaled s' := by
  intro x hx hstatus
  rcases h.journal_of_posted hx hstatus with hold | hnew
  · obtain ⟨j, hj, hsource⟩ := hs x hold hstatus
    refine ⟨j, ?_, hsource⟩
    rcases h.journal with ⟨heq, -⟩ | ⟨_, _, _, _, _, hw⟩
    · exact heq ▸ hj
    · exact (Table.mem_insert? hw.insert).mpr (.inr hj)
  · exact hnew

/-- At first no transfer is posted. -/
theorem Db.Provisioned.journaled (h : s.Provisioned) : Journaled s := by
  intro x hx
  rw [Table.mem_def, h.transfers] at hx
  cases hx

/-- Every history keeps every posted transfer with its journal. -/
theorem run_journaled (d : Digest) (cs : List Call) {s : Db} (hs : Journaled s) :
    Journaled (run (exec d) cs s) :=
  run_invariant (fun _ _ _ _ h hj => (exec_change h).journaled hj) cs hs

/-- Every history conserves the totals. -/
theorem run_conserving (d : Digest) (cs : List Call) {s : Db} (hs : Conserving s) :
    Conserving (run (exec d) cs s) :=
  run_invariant (fun _ _ _ _ h hc => (exec_change h).conserving hc) cs hs

/-- The two postings of a journal cancel. -/
theorem Journaled.evident (hs : Journaled s) (hlinked : Linked s) {x : Transfer}
    (hx : x ∈ s.transfers) (hstatus : x.status = .posted) : s.Evident x := by
  obtain ⟨j, hj, htype, hsource⟩ := hs x hx hstatus
  have hshape := hlinked.shaped j hj
  unfold Journal.Shaped at hshape
  rw [htype] at hshape
  obtain ⟨y, hy⟩ := hshape
  have hfind := hy.find
  rw [hsource, Table.find?_eq_some.mpr ⟨hx, rfl⟩] at hfind
  obtain rfl := Option.some.inj hfind
  obtain ⟨i, i', now, hsides⟩ := hy.sides
  have hfound : s.journals.find? j.id = some j := Table.find?_eq_some.mpr ⟨hj, rfl⟩
  have hevidence : s.transferEvidence x = s.postingsOf j.id := by
    unfold Db.transferEvidence
    rw [hy.linked, Option.bind_some, hfound, Option.filter_some,
      if_pos (decide_eq_true hy.tenant.symm)]
    dsimp only
    -- Both postings of the journal are the tenant's.
    have hall : ∀ p ∈ s.postingsOf j.id, p.tenantId = j.tenantId := by
      intro p hp
      rw [hsides] at hp
      rcases List.mem_cons.mp hp with rfl | hp
      · rfl
      · obtain rfl := List.mem_singleton.mp hp
        rfl
    refine List.filter_congr fun p hp => ?_
    rw [decide_eq_decide]
    refine and_iff_left_of_imp fun hjournal => hall p ?_
    exact List.mem_filter.mpr ⟨hp, decide_eq_true hjournal⟩
  have htotal : postedDelta (s.postingsOf j.id) = 0 := by
    rw [hsides]
    simp [postedDelta, Posting.signed, transferPosting]
  refine ⟨?_, by rw [hevidence]; exact htotal⟩
  rw [hevidence, hsides]
  exact le_rfl

/-- All postings to an account are its tenant's. -/
theorem Conserving.sideAmount (hs : Conserving s) {a : Account} (ha : a ∈ s.accounts)
    (direction : Direction) :
    sideAmount direction (s.accountPostings a) = s.posted direction a.id := by
  unfold LedgerSync.sideAmount Db.accountPostings Db.posted
  rw [Table.sum_filter]
  refine Table.total_congr fun p hp => ?_
  obtain ⟨a', ha', htenant, -⟩ := hs.hasAccount p hp
  by_cases haccount : p.accountId = a.id
  · rw [haccount, Table.find?_eq_some.mpr ⟨ha, rfl⟩] at ha'
    obtain rfl := Option.some.inj ha'
    simp [haccount, htenant]
  · simp [haccount]

/-- All active holds on an account are its tenant's. -/
theorem Booked.heldMinor (hs : Booked s) {a : Account} (ha : a ∈ s.accounts) :
    heldMinor (s.obligations a) = s.reserved a.id := by
  unfold LedgerSync.heldMinor Db.obligations Db.reserved
  rw [Table.sum_filter]
  refine Table.total_congr fun h hh => ?_
  obtain ⟨a', ha', htenant, -⟩ := (hs.holds h hh).source
  by_cases haccount : h.debitAccountId = a.id
  · rw [haccount, Table.find?_eq_some.mpr ⟨ha, rfl⟩] at ha'
    obtain rfl := Option.some.inj ha'
    simp [haccount, htenant]
  · simp [haccount]

/-- An account that is booked reconciles. -/
theorem Booked.reconciled (hs : Booked s) (hconserving : Conserving s) {a : Account}
    (ha : a ∈ s.accounts) : s.Reconciled a := by
  obtain ⟨p, hp, hbalanced⟩ := hs.balanced a.id a (Table.find?_eq_some.mpr ⟨ha, rfl⟩)
  obtain ⟨b, o, hb, ho, rfl⟩ := Db.position?_eq_some.mp hp
  refine ⟨b, o, hb, ho, ?_, ?_⟩
  · rw [hconserving.sideAmount ha, hconserving.sideAmount ha, add_sub_assoc]
    exact hbalanced.ledger
  · rw [hs.heldMinor ha]
    exact hbalanced.available

end Reachable

/-- Reconciliation reports exactly the differences. An account is without a finding exactly when its
ledger amount is its opening balance with the credits and without the debits, and its available
amount is what its active holds leave of that, over the integers; a finding reports the expected
integer and the observed amounts. A run over a database is matched exactly when its tenant has an
account, every account of it is reconciled and every posted transfer has its journal. After every
history of calls, a run for a tenant with an account finds nothing, and a run for another tenant
finds that its scope is empty. -/
theorem reconciliation_exact (d : Digest) (s : Db) (hs : s.Provisioned) (cs : List Call) :
    (∀ (account currency : String) (available ledger version opening : Bigint) (ps : List Posting)
        (holds : List Hold), ∃ found,
      compareAccount account currency (some available.text) (some ledger.text) (some version.text)
        (some opening.text) (decimal (postedDelta ps)) (some (decimal (heldMinor holds))) =
          .ok found ∧
      (found = [] ↔ (ledger : ℤ) = opening + sideAmount .credit ps - sideAmount .debit ps ∧
        (available : ℤ) = ledger - heldMinor holds) ∧
      ∀ m ∈ found,
        (m.classification = "ledger_balance_mismatch" ∧
          m.Reports (opening + sideAmount .credit ps - sideAmount .debit ps) ledger available
            version) ∨
        (m.classification = "available_balance_mismatch" ∧
          m.Reports (ledger - heldMinor holds) ledger available version)) ∧
    (∀ (t : Db) (tenant : Uuid), ∃ result, t.reconcileTx tenant = .ok result ∧
      (result.status = .matched ↔ result.mismatches = []) ∧
      (result.mismatches = [] ↔ (∃ a ∈ t.accounts, a.tenantId = tenant) ∧
        (∀ a ∈ t.accounts, a.tenantId = tenant → t.Reconciled a) ∧
        ∀ x ∈ t.transfers, x.tenantId = tenant → x.status = .posted → t.Evident x)) ∧
    ∀ tenant, ∃ result, (run (exec d) cs s).reconcileTx tenant = .ok result ∧
      result.mismatches =
        if ∃ a ∈ (run (exec d) cs s).accounts, a.tenantId = tenant then [] else [scopeEmpty] := by
  refine ⟨fun account currency available ledger version opening ps holds => ?_,
    fun t tenant => ?_, fun tenant => ?_⟩
  · refine ⟨_, compareAccount_texts _ _ _ _ _ _ _ (heldMinor_nonneg holds), ?_, fun m hm => ?_⟩
    · rw [List.append_eq_nil_iff, amountMismatch_eq_nil, amountMismatch_eq_nil, postedDelta_eq,
        ← add_sub_assoc]
    · rw [postedDelta_eq, ← add_sub_assoc] at hm
      -- Each mismatch comes from one of the two comparisons.
      rcases List.mem_append.mp hm with hledger | havailable
      · exact .inl (mem_amountMismatch hledger)
      · exact .inr (mem_amountMismatch havailable)
  · obtain ⟨found, hfound, result, hresult, hmismatches, hstatus⟩ := reconcileTx_ok t tenant
    refine ⟨result, hresult, hstatus, ?_⟩
    rw [hmismatches, List.append_eq_nil_iff, List.append_eq_nil_iff, hfound,
      findIncompleteTransfers_eq_nil]
    -- Without an account the tenant has the one mismatch of its empty scope.
    by_cases hsome : ∃ a ∈ t.accounts, a.tenantId = tenant
    · rw [if_pos hsome]
      exact ⟨fun h => ⟨hsome, h.1.1, h.2⟩, fun h => ⟨⟨h.2.1, rfl⟩, h.2.2⟩⟩
    · rw [if_neg hsome]
      exact ⟨fun h => absurd h.1.2 (List.cons_ne_nil _ _), fun h => absurd h.1 hsome⟩
  -- In a reachable state every account is reconciled and every posted transfer evident.
  · have hbooked := run_booked d cs hs.booked
    have hconserving := run_conserving d cs hs.conserving
    have hjournaled := run_journaled d cs hs.journaled
    obtain ⟨found, hfound, result, hresult, hmismatches, -⟩ :=
      reconcileTx_ok (run (exec d) cs s) tenant
    refine ⟨result, hresult, ?_⟩
    rw [hmismatches, hfound.mpr fun a ha _ => hbooked.reconciled hconserving ha,
      findIncompleteTransfers_eq_nil.mpr fun x hx _ hposted =>
        hjournaled.evident (run_linked d cs hs.linked) hx hposted,
      List.nil_append, List.append_nil]

namespace Sample

/-- The settings with a second tenant, which has no account yet. -/
def newTenant : Call := .configure { settings with tenants := [tenant, uuid 2] }

end Sample

/-- The run after a transfer finds nothing. -/
theorem reconciliation_exact_sample : Sample.db.Provisioned ∧ ∃ result,
    (run (exec Sample.digest) [Sample.transfer] Sample.db).reconcileTx Sample.tenant = .ok result ∧
      result.mismatches = [] := by
  have hsome : ∃ a ∈ (run (exec Sample.digest) [Sample.transfer] Sample.db).accounts.rows,
      a.tenantId = Sample.tenant := by
    decide +kernel
  obtain ⟨result, hresult, hmismatches⟩ :=
    (reconciliation_exact Sample.digest Sample.db Sample.provisioned [Sample.transfer]).2.2
      Sample.tenant
  refine ⟨Sample.provisioned, result, hresult, ?_⟩
  rw [hmismatches]
  exact if_pos hsome

/-- A tenant without accounts is not clean: its run reports the empty scope. -/
theorem empty_scope_not_clean : ¬∀ cs tenant,
    tenant ∈ (run (exec Sample.digest) cs Sample.db).settings.tenants → ∃ result,
      (run (exec Sample.digest) cs Sample.db).reconcileTx tenant = .ok result ∧
        result.status = .matched := by
  intro hclean
  have hrun : Sample.uuid 2 ∈
      (run (exec Sample.digest) [Sample.newTenant] Sample.db).settings.tenants ∧
      ¬∃ a ∈ (run (exec Sample.digest) [Sample.newTenant] Sample.db).accounts.rows,
        a.tenantId = Sample.uuid 2 := by
    decide +kernel
  obtain ⟨result, hresult, hmatched⟩ := hclean [Sample.newTenant] (Sample.uuid 2) hrun.1
  obtain ⟨found, -, result', hresult', hmismatches, hstatus⟩ :=
    reconcileTx_ok (run (exec Sample.digest) [Sample.newTenant] Sample.db) (Sample.uuid 2)
  obtain rfl := Except.ok.inj (hresult.symm.trans hresult')
  rw [hstatus.mp hmatched] at hmismatches
  have hnil := (List.append_eq_nil_iff.mp (List.append_eq_nil_iff.mp hmismatches.symm).1).2
  exact List.cons_ne_nil _ _ ((if_neg hrun.2).symm.trans hnil)

end LedgerSync
