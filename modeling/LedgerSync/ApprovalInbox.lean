import LedgerSync.System

/-!
# The approvals inbox

`ApprovalRepository.List` shows a member of finance the funding events and the transfer corrections
of the tenant, with two flags for each: whether the member can decide it now, and whether the member
cannot because of having requested it. The flags are read off the rows themselves, without the
policies and the approval records that the decision functions consult.

The cursor is modelled as the position that it encodes. Record identifiers have texts of one shape,
so that the order of their texts is the order of their numbers.
-/

namespace LedgerSync

open Lib

/-! ## Items -/

/-- `approvals.Domain`. -/
inductive ApprovalDomain where
  | funding
  | correction
deriving DecidableEq

/-- The order of the texts of two domains. -/
def ApprovalDomain.rank : ApprovalDomain → ℕ
  | correction => 0
  | funding => 1

/-- The text of a status of funding events. -/
def FundingStatus.text : FundingStatus → String
  | requested => "requested"
  | approved => "approved"
  | posted => "posted"
  | rejected => "rejected"
  | compensated => "compensated"

/-- A row of `approval_items`. -/
structure ApprovalItem where
  domain : ApprovalDomain
  recordId : Uuid
  requesterSubjectId : String
  requestedAt : Instant
  status : String
  amount : Bigint
  currency : String
  relatedAccountId : Option Uuid
  relatedTransferId : Option Uuid
  evidenceComplete : Bool
  selfApprovalBlocked : Bool
  actionableByMe : Bool
  stepUpRequired : Bool
  approvalExpiresAt : Option Instant

/-- The references of a funding event are there. -/
def FundingEvent.EvidenceComplete (e : FundingEvent) : Prop :=
  e.externalReference ≠ "" ∧ e.evidenceReference ≠ ""

/-- Whether the evidence of a funding event is complete can be decided. -/
instance (e : FundingEvent) : Decidable e.EvidenceComplete := inferInstanceAs (Decidable (_ ∧ _))

/-- The actor has requested the event, and it is not marked as one of demo mode. -/
def FundingEvent.SelfApprovalBlocked (e : FundingEvent) (actor : String) : Prop :=
  e.requesterSubjectId = actor ∧ e.demoPolicy = false

/-- Whether an actor is kept from approving an own event can be decided. -/
instance (e : FundingEvent) (actor : String) : Decidable (e.SelfApprovalBlocked actor) :=
  inferInstanceAs (Decidable (_ ∧ _))

/-- The item of a funding event. -/
def FundingEvent.approvalItem (e : FundingEvent) (actor : String) : ApprovalItem where
  domain := .funding
  recordId := e.id
  requesterSubjectId := e.requesterSubjectId
  requestedAt := e.requestedAt
  status := e.status.text
  amount := e.amount
  currency := e.currency
  relatedAccountId := some e.destinationAccountId
  relatedTransferId := none
  evidenceComplete := e.EvidenceComplete
  selfApprovalBlocked := e.SelfApprovalBlocked actor
  actionableByMe :=
    e.status = .requested ∧ ¬e.SelfApprovalBlocked actor ∧ e.EvidenceComplete
  stepUpRequired := false
  approvalExpiresAt := none

/-- The original of a correction has its journal, and the reason and the note are there. -/
def Correction.EvidenceComplete (k : Correction) (original : Transfer) : Prop :=
  original.journalTransactionId ≠ none ∧ k.reasonCode ≠ "" ∧ k.operatorNote ≠ ""

/-- Whether the evidence of a correction is complete can be decided. -/
instance (k : Correction) (original : Transfer) : Decidable (k.EvidenceComplete original) :=
  inferInstanceAs (Decidable (_ ∧ _ ∧ _))

/-- The actor has requested the correction, under dual control. -/
def Correction.SelfApprovalBlocked (k : Correction) (actor : String) : Prop :=
  k.requesterSubjectId = actor ∧ k.controlMode = .productionDualControl

/-- Whether an actor is kept from approving an own correction can be decided. -/
instance (k : Correction) (actor : String) : Decidable (k.SelfApprovalBlocked actor) :=
  inferInstanceAs (Decidable (_ ∧ _))

/-- The item of a correction. -/
def Correction.approvalItem (k : Correction) (original : Transfer) (actor : String)
    (now : Instant) : ApprovalItem where
  domain := .correction
  recordId := k.id
  requesterSubjectId := k.requesterSubjectId
  requestedAt := k.requestedAt
  status := k.status.text
  amount := original.amount
  currency := original.currency
  relatedAccountId := none
  relatedTransferId := some k.originalTransferId
  evidenceComplete := k.EvidenceComplete original
  selfApprovalBlocked := k.SelfApprovalBlocked actor
  actionableByMe :=
    k.status = .requested ∧ now < k.approvalExpiresAt ∧ ¬k.SelfApprovalBlocked actor ∧
      k.EvidenceComplete original
  stepUpRequired := k.stepUpRequired
  approvalExpiresAt := some k.approvalExpiresAt

/-! ## Queries -/

/-- `Query.Age`. -/
inductive ApprovalAge where
  | under24h
  | over24h
  | over7d
  | over30d
deriving DecidableEq

/-- A position in the order of the items. -/
structure ApprovalCursor where
  requestedAt : Instant
  recordId : Uuid
  domain : ApprovalDomain
  actionable : Bool

/-- `approvals.Query`. -/
structure ApprovalQuery where
  domain : Option ApprovalDomain
  status : Option (ApprovalDomain × String)
  requester : String
  age : Option ApprovalAge
  requestedAfter : Option Instant
  requestedBefore : Option Instant
  actionableOnly : Bool
  cursor : Option ApprovalCursor
  limit : ℕ
  canApproveFunding : Bool
  canApproveCorrections : Bool
  stepUpAuthenticatedAt : Option Timestamp
  now : Timestamp

/-- The position of an item. -/
def ApprovalItem.cursor (x : ApprovalItem) : ApprovalCursor :=
  ⟨x.requestedAt, x.recordId, x.domain, x.actionableByMe⟩

/-- The order of two positions: what is actionable first, then the oldest. -/
def ApprovalCursor.before (x y : ApprovalCursor) : Bool :=
  (x.actionable = true ∧ y.actionable = false) ∨ (x.actionable = y.actionable ∧
    (x.requestedAt < y.requestedAt ∨ (x.requestedAt = y.requestedAt ∧
      (x.recordId.toNat < y.recordId.toNat ∨ (x.recordId = y.recordId ∧
        x.domain.rank < y.domain.rank)))))

/-- The age of an item is in a bucket. -/
def ApprovalItem.HasAge (x : ApprovalItem) (now : Instant) : ApprovalAge → Prop
  | .under24h => now - day < x.requestedAt
  | .over24h => x.requestedAt ≤ now - day
  | .over7d => x.requestedAt ≤ now - 7 * day
  | .over30d => x.requestedAt ≤ now - 30 * day

/-- Whether an item has an age can be decided. -/
instance (x : ApprovalItem) (now : Instant) (age : ApprovalAge) : Decidable (x.HasAge now age) := by
  cases age <;> (unfold ApprovalItem.HasAge; infer_instance)

/-- The conditions of the query. -/
def ApprovalQuery.Selects (q : ApprovalQuery) (x : ApprovalItem) : Prop :=
  (∀ d, q.domain = some d → x.domain = d) ∧
  (∀ p, q.status = some p → x.domain = p.1 ∧ x.status = p.2) ∧
  (q.requester = "" ∨ x.requesterSubjectId = q.requester) ∧
  (∀ a, q.age = some a → x.HasAge (instant q.now) a) ∧
  (∀ t, q.requestedAfter = some t → t ≤ x.requestedAt) ∧
  (∀ t, q.requestedBefore = some t → x.requestedAt ≤ t) ∧
  (q.actionableOnly = false ∨ x.actionableByMe = true) ∧
  ∀ c, q.cursor = some c → c.before x.cursor = true

/-- Whether a query selects an item can be decided. -/
instance (q : ApprovalQuery) (x : ApprovalItem) : Decidable (q.Selects x) :=
  inferInstanceAs (Decidable ((∀ d, _ = some d → _) ∧ (∀ p, _ = some p → _) ∧ (_ ∨ _) ∧
    (∀ a, _ = some a → _) ∧ (∀ t, _ = some t → _) ∧ (∀ t, _ = some t → _) ∧ (_ ∨ _) ∧
    ∀ c, _ = some c → _))

/-- `approval_items`. -/
def Db.approvalItems (s : Db) (tenant : Uuid) (actor : String) (q : ApprovalQuery) :
    List ApprovalItem :=
  (if q.canApproveFunding then
    (s.fundingEvents.rows.filter fun e => e.tenantId = tenant).map fun e => e.approvalItem actor
  else []) ++
  if q.canApproveCorrections then
    (s.corrections.rows.filter fun k => k.tenantId = tenant).filterMap fun k =>
      (s.transfers.find? k.originalTransferId).map fun o => k.approvalItem o actor (instant q.now)
  else []

/-- The rows of `approvalListSQL`. -/
def Db.approvalRows (s : Db) (tenant : Uuid) (actor : String) (q : ApprovalQuery) :
    List ApprovalItem :=
  (((s.approvalItems tenant actor q).filter fun x => q.Selects x).mergeSort fun x y =>
    !y.cursor.before x.cursor).take (q.limit + 1)

/-! ## Pages -/

/-- `approvals.StepUpStatus`. -/
inductive StepUpStatus where
  | notRequired
  | satisfied
  | required
deriving DecidableEq

/-- `Item.SafeNextAction`. -/
inductive SafeNextAction where
  | waitForIndependentApprover
  | completeEvidence
  | reauthenticate
  | reviewDecision
  | openRecord
deriving DecidableEq

/-- `approvals.Item`: a row with what is added to it. -/
structure ApprovalView extends ApprovalItem where
  ageSeconds : ℤ
  requiredScope : String
  stepUpStatus : StepUpStatus
  safeNextAction : SafeNextAction

/-- The step-up status of an item. -/
def ApprovalItem.stepUpStatus (x : ApprovalItem) (stepUpSatisfied : Bool) : StepUpStatus :=
  if x.stepUpRequired = true then if stepUpSatisfied = true then .satisfied else .required
  else .notRequired

/-- `decorateApprovalItem`. The age is rounded to seconds, and never below 0. -/
def decorateApprovalItem (q : ApprovalQuery) (x : ApprovalItem) : ApprovalView where
  toApprovalItem := x
  ageSeconds := max 0 ((instant q.now - x.requestedAt + 500000) / 1000000)
  requiredScope := if x.domain = .funding then "funding:approve" else "corrections:approve"
  stepUpStatus := x.stepUpStatus (RecentStepUp q.stepUpAuthenticatedAt (instant q.now))
  safeNextAction :=
    if x.selfApprovalBlocked = true then .waitForIndependentApprover
    else if x.evidenceComplete = false then .completeEvidence
    else if x.actionableByMe = true ∧
      x.stepUpStatus (RecentStepUp q.stepUpAuthenticatedAt (instant q.now)) = .required then
      .reauthenticate
    else if x.actionableByMe = true then .reviewDecision
    else .openRecord

/-- `approvals.Page`. -/
structure ApprovalPage where
  items : List ApprovalView
  nextCursor : Option ApprovalCursor

/-- `ApprovalRepository.List`; there is no page for somebody who is not in finance. -/
def listApprovals (s : Db) (tenant : Uuid) (actor : String) (q : ApprovalQuery) :
    Option ApprovalPage :=
  if s.settings.HasRole tenant actor [.finance] then
    let rows := s.approvalRows tenant actor q
    some ⟨(rows.take q.limit).map (decorateApprovalItem q),
      if q.limit < rows.length then rows[q.limit - 1]?.map ApprovalItem.cursor else none⟩
  else none

/-! ## What a page shows -/

/-- Every query for all items at a time. -/
def allApprovals (now : Timestamp) (limit : ℕ) : ApprovalQuery :=
  ⟨none, none, "", none, none, none, false, none, limit, true, true, none, now⟩

/-- Some page that the actor can ask for at `now` shows the record, with a flag. -/
def Db.Shows (s : Db) (tenant : Uuid) (actor : String) (now : Timestamp) (domain : ApprovalDomain)
    (id : Uuid) (flag : ApprovalItem → Bool) : Prop :=
  ∃ q page, q.now = now ∧ listApprovals s tenant actor q = some page ∧
    ∃ x ∈ page.items, x.domain = domain ∧ x.recordId = id ∧ flag x.toApprovalItem = true

variable {s : Db} {tenant : Uuid} {actor : String} {now : Timestamp}

/-- The query for everything selects every item. -/
theorem allApprovals_selects (limit : ℕ) (x : ApprovalItem) : (allApprovals now limit).Selects x :=
  ⟨fun _ h => (nomatch h), fun _ h => (nomatch h), .inl rfl, fun _ h => (nomatch h),
    fun _ h => (nomatch h), fun _ h => (nomatch h), .inl rfl, fun _ h => (nomatch h)⟩

/-- What a page shows is an item. -/
theorem mem_items_of_page {q : ApprovalQuery} {page : ApprovalPage}
    (h : listApprovals s tenant actor q = some page) {x : ApprovalView} (hx : x ∈ page.items) :
    x.toApprovalItem ∈ s.approvalItems tenant actor q := by
  unfold listApprovals at h
  split_ifs at h
  obtain rfl := Option.some.inj h
  obtain ⟨y, hy, rfl⟩ := List.mem_map.mp hx
  have hrow := List.mem_of_mem_take (List.mem_of_mem_take hy)
  exact (List.mem_filter.mp (List.mem_mergeSort.mp hrow)).1

/-- Every item is on the page that has room for all of them. -/
theorem exists_page_of_mem (hrole : s.settings.HasRole tenant actor [.finance]) {x : ApprovalItem}
    (hx : x ∈ s.approvalItems tenant actor (allApprovals now 0)) :
    ∃ q page, q.now = now ∧ listApprovals s tenant actor q = some page ∧
      ∃ y ∈ page.items, y.toApprovalItem = x := by
  -- The items do not depend on the limit.
  have hitems : ∀ n, s.approvalItems tenant actor (allApprovals now n) =
      s.approvalItems tenant actor (allApprovals now 0) := fun _ => rfl
  generalize hn : (s.approvalItems tenant actor (allApprovals now 0)).length = n
  refine ⟨allApprovals now n, _, rfl, if_pos hrole, decorateApprovalItem (allApprovals now n) x, ?_,
    rfl⟩
  refine List.mem_map_of_mem ?_
  have hrow : x ∈ ((s.approvalItems tenant actor (allApprovals now n)).filter fun x =>
      (allApprovals now n).Selects x).mergeSort fun x y => !y.cursor.before x.cursor := by
    rw [List.mem_mergeSort, List.mem_filter, hitems]
    exact ⟨hx, decide_eq_true (allApprovals_selects n x)⟩
  have hlength : (((s.approvalItems tenant actor (allApprovals now n)).filter fun x =>
      (allApprovals now n).Selects x).mergeSort fun x y => !y.cursor.before x.cursor).length ≤ n := by
    rw [List.length_mergeSort, hitems, ← hn]
    exact List.length_filter_le _ _
  unfold Db.approvalRows
  have hlimit : (allApprovals now n).limit = n := rfl
  rw [hlimit, List.take_take, List.take_of_length_le (by omega)]
  exact hrow

/-- What is shown of a funding event is its item. -/
theorem shows_funding_iff {e : FundingEvent} {flag : ApprovalItem → Bool}
    (hrole : s.settings.HasRole tenant actor [.finance]) (he : e ∈ s.fundingEvents)
    (htenant : e.tenantId = tenant) :
    s.Shows tenant actor now .funding e.id flag ↔ flag (e.approvalItem actor) = true := by
  constructor
  · rintro ⟨q, page, -, hpage, x, hx, hdomain, hid, hflag⟩
    rcases List.mem_append.mp (mem_items_of_page hpage hx) with hfunding | hcorrection
    · split_ifs at hfunding
      · obtain ⟨e', he', hitem⟩ := List.mem_map.mp hfunding
        -- The key of the item is the id of the event.
        have hsame : e' = e := by
          refine Table.eq_of_key (List.mem_filter.mp he').1 he ?_
          rw [← hid, ← hitem]
          rfl
        rw [← hsame, hitem]
        exact hflag
      · cases hfunding
    · split_ifs at hcorrection
      · obtain ⟨k, -, hk⟩ := List.mem_filterMap.mp hcorrection
        obtain ⟨o, -, hitem⟩ := Option.map_eq_some_iff.mp hk
        rw [← hitem] at hdomain
        cases hdomain
      · cases hcorrection
  · intro hflag
    -- Conversely a page is reached that lists the item.
    have hmem : e.approvalItem actor ∈ s.approvalItems tenant actor (allApprovals now 0) := by
      refine List.mem_append_left _ ?_
      rw [if_pos (show (allApprovals now 0).canApproveFunding = true from rfl)]
      exact List.mem_map_of_mem (List.mem_filter.mpr ⟨he, decide_eq_true htenant⟩)
    obtain ⟨q, page, hq, hpage, x, hx, hitem⟩ := exists_page_of_mem hrole hmem
    refine ⟨q, page, hq, hpage, x, hx, ?_, ?_, ?_⟩
    · rw [hitem]
      rfl
    · rw [hitem]
      rfl
    · rw [hitem, hflag]

/-- What is shown of a correction is its item. -/
theorem shows_correction_iff {k : Correction} {o : Transfer} {flag : ApprovalItem → Bool}
    (hrole : s.settings.HasRole tenant actor [.finance]) (hk : k ∈ s.corrections)
    (htenant : k.tenantId = tenant) (ho : s.transfers.find? k.originalTransferId = some o) :
    s.Shows tenant actor now .correction k.id flag ↔
      flag (k.approvalItem o actor (instant now)) = true := by
  constructor
  · rintro ⟨q, page, hq, hpage, x, hx, hdomain, hid, hflag⟩
    rcases List.mem_append.mp (mem_items_of_page hpage hx) with hfunding | hcorrection
    · split_ifs at hfunding
      · obtain ⟨e, -, hitem⟩ := List.mem_map.mp hfunding
        rw [← hitem] at hdomain
        cases hdomain
      · cases hfunding
    · split_ifs at hcorrection
      · obtain ⟨k', hk', hmap⟩ := List.mem_filterMap.mp hcorrection
        obtain ⟨o', ho', hitem⟩ := Option.map_eq_some_iff.mp hmap
        -- The id of the item is the id of the correction.
        have hsame : k' = k := by
          refine Table.eq_of_key (List.mem_filter.mp hk').1 hk ?_
          rw [← hid, ← hitem]
          rfl
        rw [hsame, ho] at ho'
        rw [Option.some.inj ho', ← hsame, ← hq, hitem]
        exact hflag
      · cases hcorrection
  · intro hflag
    -- Conversely a page is reached that lists the item.
    have hmem : k.approvalItem o actor (instant now) ∈
        s.approvalItems tenant actor (allApprovals now 0) := by
      refine List.mem_append_right _ ?_
      rw [if_pos (show (allApprovals now 0).canApproveCorrections = true from rfl)]
      refine List.mem_filterMap.mpr ⟨k, List.mem_filter.mpr ⟨hk, decide_eq_true htenant⟩, ?_⟩
      rw [ho]
      rfl
    obtain ⟨q, page, hq, hpage, x, hx, hitem⟩ := exists_page_of_mem hrole hmem
    refine ⟨q, page, hq, hpage, x, hx, ?_, ?_, ?_⟩
    · rw [hitem]
      rfl
    · rw [hitem]
      rfl
    · rw [hitem, hflag]

end LedgerSync
