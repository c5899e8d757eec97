import LedgerSync.ApprovalInbox
import LedgerSync.CompensationRequests
import LedgerSync.CorrectionControls
import LedgerSync.FundingControls

/-!
# The inbox and the decision functions

When the approvals inbox tells a member of finance the truth. For corrections the flags repeat what
the decision checks, but for one case: a correction whose window is over is not refused to its
requester, it expires. For funding events they do not: the mark of demo mode is written by the
approval itself, so that no requested event has it, and neither the activation of finance nor the
window of the request is looked at.
-/

namespace LedgerSync

open Lib

/-! ## What the calls leave -/

/-- The input checks that a call has passed. -/
def Call.WellFormed (d : Digest) : Call → Prop
  | .requestFunding _ p _ => p.WellFormed d
  | .requestCorrection _ p _ => p.WellFormed d
  | _ => True

section Step

variable {d : Digest} {c : Call} {s s' : Db} {u : Unit}

/-- The arguments of a returning call are well formed. -/
theorem exec_wellFormed (h : exec d c s = .ok (u, s')) : c.WellFormed d := by
  cases c with
  | requestFunding sess p ids =>
    obtain ⟨r, hr⟩ := Txn.discard_ok.mp h
    simp only [controlledRequestFundingV1, Txn.get_bind_ok, Txn.raiseIf_bind_ok, not_not] at hr
    exact hr.2.1
  | requestCorrection sess p ids =>
    obtain ⟨r, hr⟩ := Txn.discard_ok.mp h
    simp only [controlledRequestCorrectionV1, Txn.get_bind_ok, Txn.raiseIf_bind_ok, not_not] at hr
    exact hr.2.1
  | _ => trivial

/-- A funding event as the inbox reads it: with its references, and without the mark of demo mode
while it is requested. -/
def FundingEvent.Reviewable (e : FundingEvent) : Prop :=
  e.EvidenceComplete ∧ (e.status = .requested → e.demoPolicy = false)

/-- A text of at least one character is not empty. -/
theorem ne_empty_of_length {x : String} (h : 1 ≤ x.toList.length) : x ≠ "" := by
  rintro rfl
  exact absurd h (by decide)

/-- A request that passes the checks makes an event that can be reviewed. -/
theorem requestedFunding?_reviewable {p : FundingRequest} {policy : FundingPolicy}
    {id clearing : Uuid} {e : FundingEvent}
    (h : requestedFunding? p policy id clearing = some e) (hp : p.WellFormed d) :
    e.Reviewable := by
  unfold requestedFunding? at h
  split_ifs at h
  obtain rfl := Option.some.inj h
  obtain ⟨-, -, -, -, hexternal, -, hevidence, -⟩ := hp
  exact ⟨⟨ne_empty_of_length hexternal, ne_empty_of_length hevidence⟩, fun _ => rfl⟩

/-- A decision leaves an event that can be reviewed. -/
theorem FundingEvent.Reviewable.decide {e : FundingEvent} (h : e.Reviewable)
    (p : FundingDecision) : (e.decide p).Reviewable := by
  unfold FundingEvent.decide
  split_ifs
  · exact ⟨h.1, fun hstatus => by cases hstatus⟩
  · exact ⟨h.1, fun hstatus => by cases hstatus⟩

/-- A posting leaves events that can be reviewed. -/
theorem PostedFunding.reviewable {p : FundingPost} {ids : FundingPostIds}
    (h : PostedFunding p ids s s') (hs : ∀ e ∈ s.fundingEvents, e.Reviewable) :
    ∀ e ∈ s'.fundingEvents, e.Reviewable := by
  have hposted : (h.event.post ids.journal p.idempotencyKey p.now).Reviewable :=
    ⟨(hs h.event (Table.mem_of_find? h.event_find)).1, fun hstatus => by cases hstatus⟩
  have hcompensated : ∀ o : FundingEvent, o.Reviewable →
      (o.compensate p.fundingEventId p.now).Reviewable :=
    fun o ho => ⟨ho.1, fun hstatus => by cases hstatus⟩
  intro x hx
  rcases h.mem_events hx with hold | rfl | ⟨o, ho | rfl, -, -, rfl⟩
  · exact hs x hold
  · exact hposted
  · exact hcompensated o (hs o ho)
  · exact hcompensated _ hposted

/-- A returning call leaves funding events that can be reviewed. -/
theorem Effect.fundingReviewable (h : Effect d c s s') (hc : c.WellFormed d)
    (hs : ∀ e ∈ s.fundingEvents, e.Reviewable) : ∀ e ∈ s'.fundingEvents, e.Reviewable := by
  -- Only the funding calls write events; the rest leave the table as it is.
  by_cases hfunds : c.Funds
  case neg =>
    rw [h.untouched.fundingEvents hfunds]
    exact hs
  have hinsert : ∀ {e₀ : FundingEvent}, s.fundingEvents.insert? e₀ = some s'.fundingEvents →
      e₀.Reviewable → ∀ e ∈ s'.fundingEvents, e.Reviewable := by
    intro e₀ hins hnew e he
    rcases (Table.mem_insert? hins).mp he with rfl | hold
    · exact hnew
    · exact hs e hold
  cases h with
  | none => exact hs
  -- The retention of a request may clear records, never events.
  | @requestedFunding _ _ _ _ s₁ _ _ _ e₀ cleared row events =>
    have hcleared : s₁.fundingEvents = s.fundingEvents := by
      rcases cleared with rfl | hcreated
      · rfl
      · rw [hcreated.frame]
    rw [hcleared] at events
    exact hinsert events (requestedFunding?_reviewable row hc)
  | @requestedCompensation _ p _ _ _ o find _ _ _ _ events =>
    -- The reference of a compensation starts with a fixed text, so that it is not empty.
    have hreference : compensationReference p.original ≠ "" := by
      refine ne_empty_of_length ?_
      unfold compensationReference
      rw [String.toList_append, List.length_append]
      exact Nat.le_add_right_of_le (by decide)
    exact hinsert events
      ⟨⟨hreference, (hs o (Table.mem_of_find? find)).1.2⟩, fun _ => rfl⟩
  | decidedFunding find _ events =>
    intro x hx
    rw [events] at hx
    rcases Table.mem_replace hx with rfl | ⟨hold, -⟩
    · exact (hs _ (Table.mem_of_find? find)).decide _
    · exact hs x hold
  | postedFunding h => exact h.reviewable hs
  | _ => exact False.elim hfunds

/-- What a call does to the corrections. -/
inductive CorrectionRevision (d : Digest) (s s' : Db) : Prop
  | same (corrections : s'.corrections = s.corrections)
  | requested {p : CorrectionRequest} {policy : TransferPolicy} {id : Uuid} (hp : p.WellFormed d)
      (corrections : s.corrections.insert? (requestedCorrection p policy id) =
        some s'.corrections)
  | revised {k k' : Correction} (find : s.corrections.find? k'.id = some k)
      (texts : k'.reasonCode = k.reasonCode ∧ k'.operatorNote = k.operatorNote)
      (status : k'.status ≠ .requested) (corrections : s'.corrections = s.corrections.replace k')

/-- A decision keeps the reason and the note of a correction. -/
theorem Correction.decide_texts (k : Correction) (v : CorrectionVerdict) (now : Instant) :
    (k.decide v now).reasonCode = k.reasonCode ∧
      (k.decide v now).operatorNote = k.operatorNote := by
  unfold Correction.decide
  split_ifs
  · exact ⟨rfl, rfl⟩
  · exact ⟨rfl, rfl⟩

/-- A returning call requests a correction, revises one, or leaves all of them alone. -/
theorem Effect.correctionRevision (h : Effect d c s s') (hc : c.WellFormed d) :
    CorrectionRevision d s s' := by
  -- Only the calls on corrections write the table; each of them revises one row or adds one.
  by_cases hcorrects : c.Corrects
  case neg => exact .same (h.untouched.corrections hcorrects)
  cases h with
  | none => exact .same rfl
  | requestedCorrection _ _ corrections => exact .requested hc corrections
  | @decidedCorrection _ p _ _ _ k v find corrections _ _ verdict =>
    have hid : (k.decide v (instant p.decidedAt)).id = p.correction :=
      (Correction.decide_id _ _ _).trans (Table.key_of_find? find)
    refine .revised (by rw [hid]; exact find) (Correction.decide_texts k v _) ?_ corrections
    rw [Correction.decide_status]
    exact verdict.2
  | @lapsedCorrection _ p _ _ _ k h =>
    have hid : k.id = p.correctionId := Table.key_of_find? h.find
    have hfind : s.corrections.find? (k.lapse p.now).id = some k := hid ▸ h.find
    exact .revised hfind ⟨rfl, rfl⟩ (by simp [Correction.lapse])
      h.corrections
  | @postedCorrection _ p ids _ _ h =>
    have hid : h.correction.id = p.correctionId := Table.key_of_find? h.correction_find
    have hfind : s.corrections.find?
        (h.correction.post ids.compensation p.idempotencyKey p.now).id = some h.correction :=
      hid ▸ h.correction_find
    exact .revised hfind ⟨rfl, rfl⟩ (by simp [Correction.post]) h.corrections
  | _ => exact False.elim hcorrects

/-- A correction with its reason and its note. -/
def Correction.Reviewable (k : Correction) : Prop := k.reasonCode ≠ "" ∧ k.operatorNote ≠ ""

/-- A requested correction can be reviewed. -/
theorem requestedCorrection_reviewable {p : CorrectionRequest} (hp : p.WellFormed d)
    (policy : TransferPolicy) (id : Uuid) : (requestedCorrection p policy id).Reviewable := by
  obtain ⟨hreason, hnote, -⟩ := hp
  constructor
  · rintro hempty
    have hmember : "" ∈ correctionReasons := hempty ▸ hreason
    exact absurd hmember (by decide)
  · rintro hempty
    have hsize : 1 ≤ "".utf8ByteSize := hempty ▸ hnote
    exact absurd hsize (by decide)

/-- A revision leaves corrections that can be reviewed. -/
theorem CorrectionRevision.reviewable (h : CorrectionRevision d s s')
    (hs : ∀ k ∈ s.corrections, k.Reviewable) : ∀ k ∈ s'.corrections, k.Reviewable := by
  cases h with
  | same corrections => rw [corrections]; exact hs
  | @requested p policy id hp corrections =>
    intro k hk
    rcases (Table.mem_insert? corrections).mp hk with rfl | hold
    · exact requestedCorrection_reviewable hp policy id
    · exact hs k hold
  | @revised k k' find texts status corrections =>
    intro x hx
    rw [corrections] at hx
    rcases Table.mem_replace hx with rfl | ⟨hold, -⟩
    · have hbefore := hs k (Table.mem_of_find? find)
      exact ⟨texts.1 ▸ hbefore.1, texts.2 ▸ hbefore.2⟩
    · exact hs x hold

/-- A correction that is decided stays decided. -/
theorem CorrectionRevision.decided (h : CorrectionRevision d s s') {i : Uuid} {k : Correction}
    (hk : s.corrections.find? i = some k) (hdecided : k.status ≠ .requested) :
    ∃ k', s'.corrections.find? i = some k' ∧ k'.status ≠ .requested := by
  cases h with
  | same corrections => exact ⟨k, by rw [corrections, hk], hdecided⟩
  | requested hp corrections => exact ⟨k, Table.find?_insert?_of_some corrections hk, hdecided⟩
  | @revised x x' find texts status corrections =>
    rw [corrections]
    by_cases hid : i = x'.id
    · subst hid
      exact ⟨x', Table.find?_replace_self find rfl, status⟩
    · exact ⟨k, by rw [Table.find?_replace_ne hid, hk], hdecided⟩

/-! ## Approval records of corrections -/

/-- A request for a correction records nothing but requests. -/
theorem requestCorrection_approvals {sess : Session} {p : CorrectionRequest} {ids : EvidenceIds}
    {r : Uuid × Bool} (h : controlledRequestCorrectionV1 d sess p ids s = .ok (r, s')) :
    ∀ a ∈ s'.approvals, a ∈ s.approvals ∨ a.status = .requested := by
  simp only [controlledRequestCorrectionV1, Txn.get_bind_ok, Txn.raiseIf_bind_ok] at h
  obtain ⟨-, -, hrest⟩ := h
  -- A replayed request changes nothing; a fresh one inserts a requested approval.
  rcases hprior : s.corrections.rows.find? (fun c => c.tenantId = p.tenant ∧
    c.requesterSubjectId = p.actor ∧ c.idempotencyKey = p.key) with _ | prior
  · simp only [hprior, createCorrection, insertCorrection, insertApproval, Txn.bind_assoc,
      Txn.get_bind_ok, Txn.raiseIf_bind_ok, Txn.orRaise_bind_ok, insertRow_bind_ok] at hrest
    obtain ⟨-, original, -, policy, -, -, -, -, corrections, -, -, approvals, happrovals, hlast⟩ :=
      hrest
    obtain ⟨_, _, haudit, hpure⟩ := Txn.bind_ok.mp hlast
    obtain ⟨audit, -, rfl⟩ := controlledAppendAuditV1_ok haudit
    obtain ⟨-, rfl⟩ := Txn.pure_ok.mp hpure
    intro a ha
    rcases (Table.mem_insert? happrovals).mp ha with rfl | hold
    · exact .inr rfl
    · exact .inl hold
  · simp only [hprior, Txn.raiseIf_bind_ok, Txn.pure_ok] at hrest
    obtain ⟨-, -, rfl⟩ := hrest
    exact fun a ha => .inl ha

/-- A decision on a correction records approvals of that correction only. -/
theorem decideCorrection_approvals {sess : Session} {p : CorrectionDecisionRequest}
    {ids : EvidenceIds} (h : controlledDecideCorrectionV1 sess p ids s = .ok (u, s')) :
    ∀ a ∈ s'.approvals, a ∈ s.approvals ∨ a.targetId = p.correction := by
  simp only [controlledDecideCorrectionV1, Txn.get_bind_ok, Txn.raiseIf_bind_ok,
    Txn.orRaise_bind_ok] at h
  obtain ⟨-, -, -, k, -, hrest⟩ := h
  obtain ⟨v, _, hverdict, hrecord⟩ := Txn.bind_ok.mp hrest
  obtain ⟨rfl, -⟩ := correctionVerdict_ok hverdict
  rcases v with _ | v
  · obtain ⟨-, rfl⟩ := Txn.pure_ok.mp hrecord
    exact fun a ha => .inl ha
  · simp only [recordVerdict, insertApproval, Txn.bind_assoc, Txn.get_bind_ok, Txn.set_bind_ok,
      Txn.raiseIf_bind_ok, insertRow_bind_ok] at hrecord
    obtain ⟨-, approvals, happrovals, hlast⟩ := hrecord
    obtain ⟨audit, -, rfl⟩ := controlledAppendAuditV1_ok hlast
    intro a ha
    rcases (Table.mem_insert? happrovals).mp ha with rfl | hold
    · exact .inr rfl
    · exact .inl hold

/-- A correction that lapses is recorded as expired only. -/
theorem lapseCorrection_approvals {p : CorrectionPost} {ids : CorrectionPostIds} {k : Correction}
    {r : Bool} (h : lapseCorrection p ids k s = .ok (r, s')) :
    ∀ a ∈ s'.approvals, a ∈ s.approvals ∨ a.status = .expired := by
  simp only [lapseCorrection, insertApproval, insertAudit, Txn.bind_assoc, Txn.get_bind_ok,
    Txn.set_bind_ok, Txn.raiseIf_bind_ok, insertRow_bind_ok, Txn.pure_ok] at h
  obtain ⟨-, approvals, happrovals, audit, -, -, rfl⟩ := h
  intro a ha
  rcases (Table.mem_insert? happrovals).mp ha with rfl | hold
  · exact .inr rfl
  · exact .inl hold

/-- Posting a correction records nothing but expiries. -/
theorem postCorrection_approvals {sess : Session} {p : CorrectionPost} {ids : CorrectionPostIds}
    {r : Bool} (h : controlledPostTransferCorrectionV1 sess p ids s = .ok (r, s')) :
    ∀ a ∈ s'.approvals, a ∈ s.approvals ∨ a.status = .expired := by
  simp only [controlledPostTransferCorrectionV1, Txn.get_bind_ok, Txn.raiseIf_bind_ok,
    Txn.orRaise_bind_ok, Option.filter_eq_some_iff, decide_eq_true_eq] at h
  obtain ⟨-, -, -, k, ⟨hfind, htenant⟩, o, hfind', hrest⟩ := h
  split_ifs at hrest
  · rw [Txn.raiseIf_bind_ok, Txn.pure_ok] at hrest
    obtain ⟨-, -, rfl⟩ := hrest
    exact fun a ha => .inl ha
  · simp only [settleCorrection, Txn.raiseIf_bind_ok, not_or, not_not, ne_eq] at hrest
    obtain ⟨⟨hstatus, happrover, hstatus'⟩, hindependent, hsettle⟩ := hrest
    split_ifs at hsettle with hexpired
    · exact lapseCorrection_approvals hsettle
    · obtain ⟨hposted⟩ := postCompensation_ok hfind htenant hstatus happrover
        (fun hmode => not_or.mp fun hsame => hindependent ⟨hmode, hsame⟩) (not_le.mp hexpired)
        hfind' hstatus' hsettle
      intro a ha
      rw [hposted.frame] at ha
      exact .inl ha

/-- A call that writes the approval of a correction leaves the correction decided. -/
theorem exec_correctionApproval (h : exec d c s = .ok (u, s')) {a : Approval}
    (ha : a ∈ s'.approvals) (htype : a.commandType = .transferCompensation)
    (hstatus : a.status = .approved) :
    a ∈ s.approvals ∨ ∃ k, s'.corrections.find? a.targetId = some k ∧ k.status ≠ .requested := by
  have heffect := exec_effect h
  -- A record of a request is not an approval.
  have hrequest : RequestEvidence s.approvals s'.approvals → a ∈ s.approvals ∨
      ∃ k, s'.corrections.find? a.targetId = some k ∧ k.status ≠ .requested := by
    rintro ⟨x, hinsert, hrequested⟩
    rcases (Table.mem_insert? hinsert).mp ha with rfl | hold
    · rw [hrequested] at hstatus
      cases hstatus
    · exact .inl hold
  by_cases hfunds : c.Funds
  case neg =>
    by_cases hcorrects : c.Corrects
    case neg => exact .inl (heffect.untouched.approvals hfunds hcorrects ▸ ha)
    cases heffect with
    | none => exact .inl ha
    | requestedCorrection =>
      obtain ⟨r, hr⟩ := Txn.discard_ok.mp h
      rcases requestCorrection_approvals hr a ha with hold | hrequested
      · exact .inl hold
      · rw [hrequested] at hstatus
        cases hstatus
    | @decidedCorrection _ p _ _ _ k v find corrections _ _ verdict =>
      obtain ⟨r, hr⟩ := Txn.discard_ok.mp h
      rcases decideCorrection_approvals hr a ha with hold | htarget
      · exact .inl hold
      · refine .inr ⟨k.decide v (instant p.decidedAt), ?_, ?_⟩
        · rw [htarget, corrections]
          exact Table.find?_replace_self find
            ((Correction.decide_id _ _ _).trans (Table.key_of_find? find))
        · rw [Correction.decide_status]
          exact verdict.2
    | lapsedCorrection =>
      obtain ⟨r, hr⟩ := Txn.discard_ok.mp h
      rcases postCorrection_approvals hr a ha with hold | hexpired
      · exact .inl hold
      · rw [hexpired] at hstatus
        cases hstatus
    | postedCorrection h => exact .inl (by rw [h.frame] at ha; exact ha)
    | _ => exact False.elim hcorrects
  cases heffect with
  | none => exact .inl ha
  | requestedFunding cleared _ _ _ _ evidence =>
    rcases cleared with rfl | hcreated
    · exact hrequest evidence
    · rw [hcreated.frame] at evidence
      exact hrequest evidence
  | requestedCompensation _ _ _ _ _ _ _ evidence => exact hrequest evidence
  | @decidedFunding _ _ _ _ _ e _ _ _ _ _ _ _ _ evidence =>
    obtain ⟨x, hinsert, -, -, hcommand, -⟩ := evidence
    rcases (Table.mem_insert? hinsert).mp ha with rfl | hold
    · rw [hcommand] at htype
      unfold FundingEvent.commandType at htype
      split_ifs at htype
    · exact .inl hold
  | postedFunding h => exact .inl (by rw [h.frame] at ha; exact ha)
  | _ => exact False.elim hfunds

/-! ## What holds in every state -/

/-- What the inbox and the decisions rely on. -/
structure Reviewable (s : Db) : Prop where
  linked : Linked s
  reversing : Reversing s
  once : FundingOnce s
  funding : ∀ e ∈ s.fundingEvents, e.Reviewable
  correction : ∀ k ∈ s.corrections, k.Reviewable
  approved : ∀ a ∈ s.approvals, a.commandType = .transferCompensation → a.status = .approved →
    ∃ k, s.corrections.find? a.targetId = some k ∧ k.status ≠ .requested

/-- A returning call keeps what the inbox and the decisions rely on. -/
theorem exec_reviewable (h : exec d c s = .ok (u, s')) (hs : Reviewable s) : Reviewable s' := by
  have heffect := exec_effect h
  have hc := exec_wellFormed h
  have hrevision := heffect.correctionRevision hc
  refine ⟨heffect.linked hs.linked, heffect.reversing hs.linked hs.reversing,
    heffect.fundingOnce hs.linked hs.once, heffect.fundingReviewable hc hs.funding,
    hrevision.reviewable hs.correction, ?_⟩
  intro a ha htype hstatus
  rcases exec_correctionApproval h ha htype hstatus with hold | hdecided
  · obtain ⟨k, hk, hstatus'⟩ := hs.approved a hold htype hstatus
    exact hrevision.decided hk hstatus'
  · exact hdecided

end Step

/-- Every history keeps it. -/
theorem run_reviewable (d : Digest) {s : Db} (hs : s.Provisioned)
    (happrovals : s.approvals.rows = []) (cs : List Call) : Reviewable (run (exec d) cs s) := by
  refine run_invariant (fun c s u s' h hs => exec_reviewable h hs) cs
    ⟨hs.linked, hs.reversing, hs.fundingOnce happrovals, fun e he => ?_, fun k hk => ?_,
      fun a ha => ?_⟩
  · rw [Table.mem_def, hs.fundingEvents] at he
    cases he
  · rw [Table.mem_def, hs.corrections] at hk
    cases hk
  · rw [Table.mem_def, happrovals] at ha
    cases ha

/-- An approval record is inserted when its target has none of its type and status. -/
theorem insertApproval_of_unrecorded {a : Approval} {s : Db}
    (hkey : ¬∃ x ∈ s.approvals.rows, x.tenantId = a.tenantId ∧ x.commandType = a.commandType ∧
      x.targetId = a.targetId ∧ x.status = a.status) (hfresh : s.approvals.find? a.id = none) :
    ∃ s', insertApproval a s = .ok ((), s') ∧ s' = { s with approvals := s'.approvals } := by
  obtain ⟨t, ht⟩ := Table.exists_insert? hfresh
  exact ⟨{ s with approvals := t }, insertApproval_ok.mpr ⟨hkey, t, ht, rfl⟩, rfl⟩

/-! ## Decisions on funding events -/

/-- An approval record of the request covers the time. -/
def Db.FundingWindow (s : Db) (e : FundingEvent) (now : Instant) : Prop :=
  ∃ a ∈ s.approvals.rows, a.tenantId = e.tenantId ∧ a.targetId = e.id ∧ a.status = .requested ∧
    a.requesterSubjectId = e.requesterSubjectId ∧ a.createdAt ≤ now ∧ now < a.expiresAt

/-- Whether an approval record covers a time can be decided. -/
instance (s : Db) (e : FundingEvent) (now : Instant) : Decidable (s.FundingWindow e now) :=
  inferInstanceAs (Decidable (∃ a ∈ _, _))

/-- A proper call for the approval of a funding event: by a member of finance, with the mode of the
policy, a reason and newly drawn identifiers. -/
structure FundingDecision.Proper (p : FundingDecision) (sess : Session) (ids : EvidenceIds)
    (s : Db) (e : FundingEvent) : Prop where
  caller : s.Caller sess p.tenant p.actor [.finance]
  tenant : e.tenantId = p.tenant
  event : e.id = p.event
  approve : p.approve = true
  reason : ¬(p.reason.toList.length < 1 ∨ 500 < p.reason.toList.length)
  demo : ∀ policy, s.settings.fundingPolicies.find? (p.tenant, e.currency) = some policy →
    (p.demo = true ↔ policy.mode = .localDemoSingleOperator)
  approval : s.approvals.find? ids.approval = none
  audit : s.audit.find? ids.audit = none

/-- What an approval of a funding event needs. -/
def Db.FundingApprovable (s : Db) (e : FundingEvent) (actor : String) (now : Instant) : Prop :=
  ∃ policy, s.settings.fundingPolicies.find? (e.tenantId, e.currency) = some policy ∧
    (policy.mode = .productionDualControl →
      policy.financeActivated = true ∧ e.requesterSubjectId ≠ actor) ∧ s.FundingWindow e now

/-- The call leaves the funding event approved. -/
def FundingDecision.Approves (p : FundingDecision) (sess : Session) (ids : EvidenceIds) (s : Db) :
    Prop :=
  ∃ e, (commit (controlledDecideFundingV1 sess p ids) s).fundingEvents.find? p.event = some e ∧
    e.status = .approved

/-- The call is refused because the actor has requested the event. -/
def FundingDecision.RefusedAsRequester (p : FundingDecision) (sess : Session) (ids : EvidenceIds)
    (s : Db) (e : FundingEvent) : Prop :=
  e.requesterSubjectId = p.actor ∧
    (∃ policy, s.settings.fundingPolicies.find? (e.tenantId, e.currency) = some policy ∧
      policy.mode = .productionDualControl) ∧
    controlledDecideFundingV1 sess p ids s = .error
      ⟨"42501", "controlled_funding_forbidden", "funding independent approval required"⟩

/-- The inbox and the decision agree on a funding event. -/
def FundingDecision.Agrees (p : FundingDecision) (sess : Session) (ids : EvidenceIds) (s : Db)
    (e : FundingEvent) : Prop :=
  (s.Shows p.tenant p.actor p.decidedAt .funding p.event ApprovalItem.actionableByMe ↔
    p.Approves sess ids s) ∧
  (s.Shows p.tenant p.actor p.decidedAt .funding p.event ApprovalItem.selfApprovalBlocked →
    p.RefusedAsRequester sess ids s e)

section Funding

variable {sess : Session} {p : FundingDecision} {ids : EvidenceIds} {s s' : Db} {e : FundingEvent}

/-- A proper decision finds its event. -/
theorem FundingDecision.Proper.find (hp : p.Proper sess ids s e) (he : e ∈ s.fundingEvents) :
    s.fundingEvents.find? p.event = some e := by
  rw [← hp.event]
  exact Table.find?_eq_some.mpr ⟨he, rfl⟩

/-- A call that returns has found what an approval needs, and has decided the event. -/
theorem decideFunding_ok (hp : p.Proper sess ids s e) (he : e ∈ s.fundingEvents)
    (hrequested : e.status = .requested) {u : Unit}
    (h : controlledDecideFundingV1 sess p ids s = .ok (u, s')) :
    s.FundingApprovable e p.actor (instant p.decidedAt) ∧
      s'.fundingEvents = s.fundingEvents.replace (e.decide p) := by
  simp only [controlledDecideFundingV1, Txn.get_bind_ok, Txn.raiseIf_bind_ok, Txn.orRaise_bind_ok,
    Option.filter_eq_some_iff, decide_eq_true_eq] at h
  obtain ⟨-, -, e', ⟨hfind, -⟩, policy, hpolicy, hallowed, hrest⟩ := h
  rw [hp.find he] at hfind
  obtain rfl := Option.some.inj hfind
  -- The event is requested, so that the branch for a repeated approval is not taken.
  have hopen : ¬(p.approve = true ∧ e.status = .approved) := by
    rw [hrequested]
    rintro ⟨-, hstatus⟩
    cases hstatus
  rw [if_neg hopen] at hrest
  simp only [recordFundingDecision, insertApproval, Txn.bind_assoc, Txn.get_bind_ok,
    Txn.set_bind_ok, Txn.raiseIf_bind_ok, insertRow_bind_ok] at hrest
  obtain ⟨-, hwindow, -, approvals, happrovals, hlast⟩ := hrest
  obtain ⟨audit, -, rfl⟩ := controlledAppendAuditV1_ok hlast
  refine ⟨⟨policy, by rw [hp.tenant]; exact hpolicy, ?_, ?_⟩, rfl⟩
  -- The guard raises exactly when production lacks its activation or its second actor.
  · intro hmode
    by_contra hbad
    rw [not_and_or, not_not] at hbad
    refine hallowed ⟨hp.approve, .inr ⟨hmode, ?_⟩⟩
    exact hbad.imp_left Bool.eq_false_iff.mpr
  · by_contra hclosed
    refine hwindow ⟨hp.approve, ?_⟩
    rintro ⟨a, ha, htenant, htarget, hrecord⟩
    exact hclosed ⟨a, ha, htenant.trans hp.tenant.symm, htarget.trans hp.event.symm, hrecord⟩

/-- The evidence of a decision is recorded when nothing is recorded for it yet. -/
theorem recordFundingDecision_of_fresh {policy : FundingPolicy} (hp : p.Proper sess ids s e)
    (he : e ∈ s.fundingEvents) (hrequested : e.status = .requested) (honce : FundingOnce s)
    (hwindow : s.FundingWindow e (instant p.decidedAt)) :
    ∃ s', recordFundingDecision sess p ids e policy s = .ok ((), s') := by
  obtain ⟨a, ha, htenant, htarget, hrecord⟩ := hwindow
  have hcovered : ¬(p.approve = true ∧ ¬∃ a ∈ s.approvals.rows, a.tenantId = p.tenant ∧
      a.targetId = p.event ∧ a.status = .requested ∧
      a.requesterSubjectId = e.requesterSubjectId ∧ a.createdAt ≤ instant p.decidedAt ∧
      instant p.decidedAt < a.expiresAt) := fun hnone =>
    hnone.2 ⟨a, ha, htenant.trans hp.tenant, htarget.trans hp.event, hrecord⟩
  -- No approval is recorded for an event that is still requested.
  have hunrecorded : ¬∃ x ∈ s.approvals.rows, x.tenantId = p.tenant ∧
      x.commandType = e.commandType ∧ x.targetId = p.event ∧ x.status = .approved := by
    rintro ⟨x, hx, -, htype, hevent, hstatus⟩
    have hfunding : x.commandType ≠ .transferCompensation := by
      rw [htype]
      unfold FundingEvent.commandType
      split_ifs <;> simp
    obtain ⟨e', he', hdecided, -⟩ := honce.recorded x hx hstatus hfunding
    rw [hevent, hp.find he] at he'
    rw [← Option.some.inj he'] at hdecided
    exact hdecided hrequested
  unfold recordFundingDecision
  simp only [hp.approve, if_true]
  rw [Txn.get_bind, Txn.raiseIf_bind_of_neg (by rw [not_not]; exact hrequested),
    Txn.raiseIf_bind_of_neg (by simpa only [hp.approve] using hcovered)]
  rw [Txn.bind_of_ok (a := ()) (Txn.set_ok.mpr rfl)]
  refine Txn.exists_bind (insertApproval_of_unrecorded hunrecorded hp.approval) fun s₂ hs₂ => ?_
  have haudit : s₂.audit.find? ids.audit = none := by
    rw [hs₂]
    exact hp.audit
  have hevent : PlainEntry "funding_event_id" p.event.text :=
    .uuid (by decide) (by decide) p.event
  have hterms : PlainEntry "terminology" "recorded external value evidence" :=
    ⟨by decide, by decide, by decide, by decide⟩
  have hplain : ∀ x ∈ [("funding_event_id", p.event.text),
      ("terminology", "recorded external value evidence")], PlainEntry x.1 x.2 := by
    intro x hx
    simp only [List.mem_cons, List.not_mem_nil, or_false] at hx
    rcases hx with rfl | rfl
    · exact hevent
    · exact hterms
  have hname : IsAuditName true 128 "funding.approved" := by decide
  have htype : IsAuditName false 64 "funding_event" := by decide
  have houtcome : "succeeded" ∈ ["allowed", "denied", "succeeded", "failed"] := by decide
  refine (controlledAppendAuditV1_of_acceptable [("funding_event_id", p.event.text),
    ("terminology", "recorded external value evidence")] ?_ haudit).imp fun _ h => h.1
  exact ⟨hp.caller.1, congrArg some hp.caller.2.1, hname, htype, ⟨p.event, rfl⟩, houtcome, rfl,
    hplain, by simp⟩

/-- A proper approval of an event that can be approved is carried out. -/
theorem exists_decideFunding (hp : p.Proper sess ids s e) (he : e ∈ s.fundingEvents)
    (hrequested : e.status = .requested) (honce : FundingOnce s)
    (h : s.FundingApprovable e p.actor (instant p.decidedAt)) :
    ∃ s', controlledDecideFundingV1 sess p ids s = .ok ((), s') := by
  obtain ⟨policy, hpolicy, hproduction, hwindow⟩ := h
  rw [hp.tenant] at hpolicy
  obtain ⟨s', hs'⟩ : ∃ s', recordFundingDecision sess p ids e policy s = .ok ((), s') :=
    recordFundingDecision_of_fresh hp he hrequested honce hwindow
  refine ⟨s', ?_⟩
  -- The condition refutes each disjunct of the guard that would raise.
  have hallowed : ¬(p.approve = true ∧
      (¬(p.demo = true ↔ policy.mode = .localDemoSingleOperator) ∨
        (policy.mode = .productionDualControl ∧
          (policy.financeActivated = false ∨ e.requesterSubjectId = p.actor)))) := by
    rintro ⟨-, hmode | ⟨hmode, hbad⟩⟩
    · exact hmode (hp.demo policy hpolicy)
    · obtain ⟨hactive, hdifferent⟩ := hproduction hmode
      rcases hbad with hinactive | hsame
      · rw [hactive] at hinactive
        cases hinactive
      · exact hdifferent hsame
  have hopen : ¬(p.approve = true ∧ e.status = .approved) := by
    rw [hrequested]
    rintro ⟨-, hstatus⟩
    cases hstatus
  simp only [controlledDecideFundingV1, Txn.get_bind_ok, Txn.raiseIf_bind_ok, Txn.orRaise_bind_ok,
    Option.filter_eq_some_iff, decide_eq_true_eq, not_not]
  refine ⟨hp.caller, hp.reason, e, ⟨hp.find he, hp.tenant⟩, policy, hpolicy, hallowed, ?_⟩
  rw [if_neg hopen]
  exact hs'

/-- An event that is requested is approved by a proper call exactly when it can be. -/
theorem approves_funding_iff (hp : p.Proper sess ids s e) (he : e ∈ s.fundingEvents)
    (hrequested : e.status = .requested) (honce : FundingOnce s) :
    p.Approves sess ids s ↔ s.FundingApprovable e p.actor (instant p.decidedAt) := by
  constructor
  · rintro ⟨e', he', happroved⟩
    rcases commit_cases (controlledDecideFundingV1 sess p ids) s with hsame | ⟨u, hok⟩
    · rw [hsame, hp.find he] at he'
      rw [← Option.some.inj he', hrequested] at happroved
      cases happroved
    · exact (decideFunding_ok hp he hrequested hok).1
  · intro h
    obtain ⟨s', hs'⟩ := exists_decideFunding hp he hrequested honce h
    have hevents := (decideFunding_ok hp he hrequested hs').2
    refine ⟨e.decide p, ?_, ?_⟩
    · rw [commit_of_ok hs', hevents]
      exact Table.find?_replace_self (hp.find he) ((e.decide_fields p).1.trans hp.event)
    · unfold FundingEvent.decide
      rw [if_pos hp.approve]

/-- The requester is refused as such exactly in production mode. -/
theorem refused_funding_iff (hp : p.Proper sess ids s e) (he : e ∈ s.fundingEvents) :
    p.RefusedAsRequester sess ids s e ↔ e.requesterSubjectId = p.actor ∧
      ∃ policy, s.settings.fundingPolicies.find? (e.tenantId, e.currency) = some policy ∧
        policy.mode = .productionDualControl := by
  refine ⟨fun h => ⟨h.1, h.2.1⟩, ?_⟩
  rintro ⟨hsame, policy, hpolicy, hmode⟩
  refine ⟨hsame, ⟨policy, hpolicy, hmode⟩, ?_⟩
  rw [hp.tenant] at hpolicy
  have hfound : (s.fundingEvents.find? p.event).filter (·.tenantId = p.tenant) = some e :=
    Option.filter_eq_some_iff.mpr ⟨hp.find he, decide_eq_true hp.tenant⟩
  unfold controlledDecideFundingV1
  rw [Txn.get_bind, Txn.raiseIf_bind_of_neg (by rw [not_not]; exact hp.caller),
    Txn.raiseIf_bind_of_neg hp.reason, Txn.bind_of_ok (Txn.orRaise_ok.mpr ⟨hfound, rfl⟩),
    Txn.bind_of_ok (Txn.orRaise_ok.mpr ⟨hpolicy, rfl⟩),
    Txn.raiseIf_bind_of_pos ⟨hp.approve, .inr ⟨hmode, .inr hsame⟩⟩]

/-- When the inbox is right about a requested funding event: in production mode for its requester,
and for others while finance is active and the window of the request is open; in demo mode for
others than its requester while the window is open. -/
def Db.FundingSettled (s : Db) (e : FundingEvent) (actor : String) (now : Instant) : Prop :=
  ∃ policy, s.settings.fundingPolicies.find? (e.tenantId, e.currency) = some policy ∧
    (policy.mode = .productionDualControl → e.requesterSubjectId = actor ∨
      (policy.financeActivated = true ∧ s.FundingWindow e now)) ∧
    (policy.mode = .localDemoSingleOperator →
      e.requesterSubjectId ≠ actor ∧ s.FundingWindow e now)

/-- The inbox and the decision agree on a requested event exactly when the event is settled for the
actor: the mode, the requester and the record say the same. -/
theorem funding_agrees_iff (hs : Reviewable s) (hp : p.Proper sess ids s e)
    (he : e ∈ s.fundingEvents) (hrequested : e.status = .requested) :
    p.Agrees sess ids s e ↔ s.FundingSettled e p.actor (instant p.decidedAt) := by
  obtain ⟨hevidence, hunmarked⟩ := hs.funding e he
  have hmark := hunmarked hrequested
  have hrole := hp.caller.2.2
  unfold FundingDecision.Agrees
  rw [← hp.event, shows_funding_iff hrole he hp.tenant, shows_funding_iff hrole he hp.tenant,
    approves_funding_iff hp he hrequested hs.once, refused_funding_iff hp he]
  -- A requested event carries no demo mark, so that both flags compare the two actors only.
  have hactionable : (e.approvalItem p.actor).actionableByMe = true ↔
      e.requesterSubjectId ≠ p.actor := by
    simp only [FundingEvent.approvalItem, FundingEvent.SelfApprovalBlocked, hrequested, hmark,
      hevidence, decide_eq_true_eq, and_true, true_and, ne_eq]
  have hblocked : (e.approvalItem p.actor).selfApprovalBlocked = true ↔
      e.requesterSubjectId = p.actor := by
    simp only [FundingEvent.approvalItem, FundingEvent.SelfApprovalBlocked, hmark,
      decide_eq_true_eq, and_true]
  rw [hactionable, hblocked]
  -- The queue hides an own request; it settles the matter just when production would refuse it.
  constructor
  · rintro ⟨hshown, hrefused⟩
    by_cases hsame : e.requesterSubjectId = p.actor
    · obtain ⟨-, policy, hpolicy, hmode⟩ := hrefused hsame
      refine ⟨policy, hpolicy, fun _ => .inl hsame, fun hdemo => ?_⟩
      rw [hmode] at hdemo
      cases hdemo
    · obtain ⟨policy, hpolicy, hproduction, hwindow⟩ := hshown.mp hsame
      exact ⟨policy, hpolicy, fun hmode => .inr ⟨(hproduction hmode).1, hwindow⟩,
        fun _ => ⟨hsame, hwindow⟩⟩
  · rintro ⟨policy, hpolicy, hproduction, hdemo⟩
    -- Conversely the mode of the policy decides which part of the condition applies.
    cases hmode : policy.mode with
    | productionDualControl =>
      refine ⟨⟨fun hne => ?_, ?_⟩, fun hsame => ⟨hsame, policy, hpolicy, hmode⟩⟩
      · rcases hproduction hmode with hsame | ⟨hactive, hwindow⟩
        · exact absurd hsame hne
        · exact ⟨policy, hpolicy, fun _ => ⟨hactive, hne⟩, hwindow⟩
      · rintro ⟨policy', hpolicy', hallowed, -⟩
        rw [hpolicy] at hpolicy'
        obtain rfl := Option.some.inj hpolicy'
        exact (hallowed hmode).2
    | localDemoSingleOperator =>
      obtain ⟨hne, hwindow⟩ := hdemo hmode
      refine ⟨⟨fun _ => ?_, fun _ => hne⟩, fun hsame => absurd hsame hne⟩
      refine ⟨policy, hpolicy, fun hproduction => ?_, hwindow⟩
      rw [hmode] at hproduction
      cases hproduction

end Funding

/-! ## Decisions on corrections -/

/-- A proper call for the approval of a correction: by a member of finance who has just
authenticated again, with a reason and newly drawn identifiers. -/
structure CorrectionDecisionRequest.Proper (p : CorrectionDecisionRequest) (sess : Session)
    (ids : EvidenceIds) (s : Db) (k : Correction) : Prop where
  caller : s.Caller sess p.tenant p.actor [.finance]
  tenant : k.tenantId = p.tenant
  correction : k.id = p.correction
  decision : p.decision = .approved
  reason : ¬(p.reason.utf8ByteSize < 1 ∨ 500 < p.reason.utf8ByteSize)
  stepUp : RecentStepUp p.stepUp (instant p.decidedAt)
  approval : s.approvals.find? ids.approval = none
  audit : s.audit.find? ids.audit = none

/-- The call leaves the correction approved. -/
def CorrectionDecisionRequest.Approves (p : CorrectionDecisionRequest) (sess : Session)
    (ids : EvidenceIds) (s : Db) : Prop :=
  ∃ k, (commit (controlledDecideCorrectionV1 sess p ids) s).corrections.find? p.correction = some k ∧
    k.status = .approved

/-- The call is refused because the actor has requested the correction. -/
def CorrectionDecisionRequest.RefusedAsRequester (p : CorrectionDecisionRequest) (sess : Session)
    (ids : EvidenceIds) (s : Db) (k : Correction) : Prop :=
  k.requesterSubjectId = p.actor ∧
    controlledDecideCorrectionV1 sess p ids s = .error
      ⟨"42501", "controlled_correction_forbidden", "independent correction approver required"⟩

/-- The inbox and the decision agree on a correction. -/
def CorrectionDecisionRequest.Agrees (p : CorrectionDecisionRequest) (sess : Session)
    (ids : EvidenceIds) (s : Db) (k : Correction) : Prop :=
  (s.Shows p.tenant p.actor p.decidedAt .correction p.correction ApprovalItem.actionableByMe ↔
    p.Approves sess ids s) ∧
  (s.Shows p.tenant p.actor p.decidedAt .correction p.correction
      ApprovalItem.selfApprovalBlocked → p.RefusedAsRequester sess ids s k)

section Corrections

variable {sess : Session} {p : CorrectionDecisionRequest} {ids : EvidenceIds} {s s' : Db}
  {k : Correction}

/-- The verdict on a correction whose window is over. -/
def expiredVerdict (p : CorrectionDecisionRequest) : CorrectionVerdict :=
  ⟨.expired, "approval_window_expired", none, "failed", instant p.decidedAt, .obj []⟩

/-- The verdict on a correction that is approved. -/
def approvedVerdict (p : CorrectionDecisionRequest) (k : Correction) : CorrectionVerdict :=
  ⟨.approved, p.reason, some p.actor, "succeeded", k.approvalExpiresAt,
    .obj [("step_up_verified", .bool (k.stepUpRequired = false ∨
      RecentStepUp p.stepUp (instant p.decidedAt)))]⟩

/-- A proper decision finds its correction. -/
theorem CorrectionDecisionRequest.Proper.find (hp : p.Proper sess ids s k)
    (hk : k ∈ s.corrections) : s.corrections.find? p.correction = some k := by
  rw [← hp.correction]
  exact Table.find?_eq_some.mpr ⟨hk, rfl⟩

/-- A proper call comes to the verdict. -/
theorem decideCorrection_eq (hp : p.Proper sess ids s k) (hk : k ∈ s.corrections) :
    controlledDecideCorrectionV1 sess p ids s = (do
      let v ← correctionVerdict p k
      match v with
      | none => pure ()
      | some v => recordVerdict sess p ids k v : Proc Unit) s := by
  have hscope : ¬(¬sess.Allows p.tenant ∨ p.actor ≠ sess.actorId) := by
    rintro (hdenied | hother)
    · exact hdenied hp.caller.1
    · exact hother hp.caller.2.1
  have hrole : ¬(p.decision ≠ .cancelled ∧ ¬s.settings.HasRole p.tenant p.actor [.finance]) :=
    fun h => h.2 hp.caller.2.2
  have hfound : (s.corrections.find? p.correction).filter (·.tenantId = p.tenant) = some k :=
    Option.filter_eq_some_iff.mpr ⟨hp.find hk, decide_eq_true hp.tenant⟩
  unfold controlledDecideCorrectionV1
  rewrite [Txn.get_bind, Txn.raiseIf_bind_of_neg hscope, Txn.raiseIf_bind_of_neg hp.reason,
    Txn.raiseIf_bind_of_neg hrole, Txn.bind_of_ok (Txn.orRaise_ok.mpr ⟨hfound, rfl⟩)]
  rfl

/-- What the verdict on a requested correction is. -/
theorem correctionVerdict_eq (hp : p.Proper sess ids s k) (hrequested : k.status = .requested) :
    correctionVerdict p k s =
      if k.approvalExpiresAt ≤ instant p.decidedAt then .ok (some (expiredVerdict p), s)
      else if k.SelfApprovalBlocked p.actor then .error
        ⟨"42501", "controlled_correction_forbidden", "independent correction approver required"⟩
      else .ok (some (approvedVerdict p k), s) := by
  have hopen : ¬(p.decision = .approved ∧ k.status = .approved) := by
    rw [hrequested]
    rintro ⟨-, hstatus⟩
    cases hstatus
  unfold correctionVerdict
  rw [if_neg (by rw [hp.decision]; simp), if_neg hopen,
    Txn.raiseIf_bind_of_neg (by rw [not_not]; exact hrequested)]
  split_ifs with hover hblocked
  · rfl
  · rw [Txn.raiseIf_bind_of_pos ⟨hblocked.2, hblocked.1⟩]
  · rw [Txn.raiseIf_bind_of_neg fun h => hblocked ⟨h.2, h.1⟩,
      Txn.raiseIf_bind_of_neg fun h => h.2.2 hp.stepUp, hp.decision]
    rfl

/-- The evidence of an approval is recorded when none is recorded for it yet. -/
theorem recordVerdict_of_fresh (hs : Reviewable s) (hp : p.Proper sess ids s k)
    (hk : k ∈ s.corrections) (hrequested : k.status = .requested) :
    ∃ s', recordVerdict sess p ids k (approvedVerdict p k) s = .ok ((), s') := by
  -- No approval is recorded for a correction that is still requested.
  have hunrecorded : ¬∃ x ∈ s.approvals.rows, x.tenantId = p.tenant ∧
      x.commandType = .transferCompensation ∧ x.targetId = p.correction ∧ x.status = .approved := by
    rintro ⟨x, hx, -, htype, htarget, hstatus⟩
    obtain ⟨k', hk', hdecided⟩ := hs.approved x hx htype hstatus
    rw [htarget, hp.find hk] at hk'
    rw [← Option.some.inj hk'] at hdecided
    exact hdecided hrequested
  unfold recordVerdict
  rw [Txn.get_bind, Txn.bind_of_ok (a := ()) (Txn.set_ok.mpr rfl)]
  refine Txn.exists_bind (insertApproval_of_unrecorded hunrecorded hp.approval) fun s₁ hs₁ => ?_
  have hfresh : s₁.audit.find? ids.audit = none := by
    rw [hs₁]
    exact hp.audit
  have hname : IsAuditName true 128 ("transfer_correction." ++ CorrectionStatus.approved.text) := by
    decide
  have htype : IsAuditName false 64 "transfer_correction" := by decide
  have houtcome : "succeeded" ∈ ["allowed", "denied", "succeeded", "failed"] := by decide
  have hfields : ∀ b, metadataFields? (.obj [("step_up_verified", .bool b)]) =
      some [("step_up_verified", .bool b)] := fun b => if_pos (by cases b <;> decide)
  have hsafe : ∀ b, ∀ f ∈ [("step_up_verified", Json.bool b)], SafeEntry f := by decide
  refine Exists.imp (fun _ h => And.left h) (controlledAppendAuditV1_of_safe ?_ (hfields _)
    (hsafe _) hfresh)
  exact ⟨hp.caller.1, congrArg some hp.caller.2.1, hname, htype, ⟨p.correction, rfl⟩, houtcome⟩

/-- A verdict is written to the correction. -/
theorem recordVerdict_corrections {v : CorrectionVerdict} {u : Unit}
    (h : recordVerdict sess p ids k v s = .ok (u, s')) :
    s'.corrections = s.corrections.replace (k.decide v (instant p.decidedAt)) := by
  simp only [recordVerdict, insertApproval, Txn.bind_assoc, Txn.get_bind_ok, Txn.set_bind_ok,
    Txn.raiseIf_bind_ok, insertRow_bind_ok] at h
  obtain ⟨-, approvals, -, hlast⟩ := h
  obtain ⟨audit, -, rfl⟩ := controlledAppendAuditV1_ok hlast
  rfl

/-- The correction after a verdict. -/
theorem find_recordVerdict {v : CorrectionVerdict} {u : Unit} (hp : p.Proper sess ids s k)
    (hk : k ∈ s.corrections) (h : recordVerdict sess p ids k v s = .ok (u, s')) :
    ∃ k', s'.corrections.find? p.correction = some k' ∧ k'.status = v.status := by
  refine ⟨k.decide v (instant p.decidedAt), ?_, ?_⟩
  · rw [recordVerdict_corrections h]
    refine Table.find?_replace_self (hp.find hk) ?_
    unfold Correction.decide
    split_ifs <;> exact hp.correction
  · unfold Correction.decide
    split_ifs <;> rfl

/-- A requested correction is approved by a proper call exactly when its window is open and the
actor is not kept from it. -/
theorem approves_correction_iff (hs : Reviewable s) (hp : p.Proper sess ids s k)
    (hk : k ∈ s.corrections) (hrequested : k.status = .requested) :
    p.Approves sess ids s ↔
      instant p.decidedAt < k.approvalExpiresAt ∧ ¬k.SelfApprovalBlocked p.actor := by
  have hdecide := decideCorrection_eq hp hk
  have hverdict := correctionVerdict_eq hp hrequested
  constructor
  -- An approval in the state must come from this call, as the row was requested before it.
  · rintro ⟨k', hk', happroved⟩
    rcases commit_cases (controlledDecideCorrectionV1 sess p ids) s with hsame | ⟨u, hok⟩
    · rw [hsame, hp.find hk] at hk'
      rw [← Option.some.inj hk', hrequested] at happroved
      cases happroved
    · rw [hdecide, Txn.bind_ok] at hok
      obtain ⟨v, s₁, hv, hrest⟩ := hok
      rw [hverdict] at hv
      split_ifs at hv with hover hblocked
      -- Past its deadline the verdict is `expired`, never `approved`.
      · cases hv
        obtain ⟨k'', hk'', hexpired⟩ := find_recordVerdict hp hk hrest
        rw [hk'] at hk''
        rw [← Option.some.inj hk'', happroved] at hexpired
        cases hexpired
      · exact ⟨not_le.mp hover, hblocked⟩
  -- In time and not blocked, the verdict is `approved`, and writing it down cannot fail.
  · rintro ⟨hopen, hallowed⟩
    rw [if_neg (not_le.mpr hopen), if_neg hallowed] at hverdict
    rw [Txn.bind_of_ok hverdict] at hdecide
    obtain ⟨s', hs'⟩ := recordVerdict_of_fresh hs hp hk hrequested
    obtain ⟨k', hk', hstatus⟩ := find_recordVerdict hp hk hs'
    refine ⟨k', ?_, hstatus⟩
    rw [commit_of_ok (hdecide.trans hs')]
    exact hk'

/-- The evidence of a verdict is not refused as forbidden. -/
theorem recordVerdict_raises (v : CorrectionVerdict) : Txn.Outcome (recordVerdict sess p ids k v) s
    (fun _ _ => True) fun e => e.constraint ≠ "controlled_correction_forbidden" := by
  have hinsert : ∀ {ρ κ : Type} [DecidableEq κ] {key : ρ → κ} (t : Option (Table key))
      (put : Table key → Db) (constraint : String) (s : Db),
      constraint ≠ "controlled_correction_forbidden" →
      Txn.Outcome (Txn.orRaise t (uniqueViolation constraint) >>= fun t => Txn.set (put t) :
        Proc Unit) s (fun _ _ => True) fun e => e.constraint ≠ "controlled_correction_forbidden" := by
    intro ρ κ _ key t put constraint s hne
    refine .orRaise_bind (fun _ => hne) fun t _ => ⟨fun _ _ _ => trivial, fun e herr => ?_⟩
    cases herr
  unfold recordVerdict insertApproval
  refine .get_bind (.set_bind (.bind (R := fun _ _ => True) ?_ fun _ s₁ _ => ?_))
  · refine .get_bind (.raiseIf_bind (fun _ => by decide) fun _ => .get_bind ?_)
    exact hinsert _ _ _ _ (by decide)
  · unfold controlledAppendAuditV1
    refine .raiseIf_bind (fun _ => by decide) fun _ => .raiseIf_bind (fun _ => by decide) fun _ =>
      .orRaise_bind (fun _ => by decide) fun _ _ => .raiseIf_bind (fun _ => by decide) fun _ =>
      .get_bind ?_
    exact hinsert _ _ _ _ (by decide)

/-- The requester is refused as such exactly in production mode and while the window is open. -/
theorem refused_correction_iff (hp : p.Proper sess ids s k) (hk : k ∈ s.corrections)
    (hrequested : k.status = .requested) :
    p.RefusedAsRequester sess ids s k ↔
      instant p.decidedAt < k.approvalExpiresAt ∧ k.SelfApprovalBlocked p.actor := by
  have hdecide := decideCorrection_eq hp hk
  have hverdict := correctionVerdict_eq hp hrequested
  constructor
  -- The only error of this text is that of the self-approval check.
  · rintro ⟨hsame, herror⟩
    rw [hdecide, Txn.bind_error, hverdict] at herror
    split_ifs at herror with hover hblocked
    · rcases herror with hnone | ⟨v, s₁, hv, hrest⟩
      · cases hnone
      · cases hv
        exact absurd rfl ((recordVerdict_raises _).2 _ hrest)
    · exact ⟨not_le.mp hover, hblocked⟩
    · rcases herror with hnone | ⟨v, s₁, hv, hrest⟩
      · cases hnone
      · cases hv
        exact absurd rfl ((recordVerdict_raises _).2 _ hrest)
  -- In time and blocked, the check itself raises it.
  · rintro ⟨hopen, hblocked⟩
    rw [if_neg (not_le.mpr hopen), if_pos hblocked] at hverdict
    exact ⟨hblocked.1, hdecide.trans (Txn.bind_of_error hverdict)⟩

/-- The original of a correction has its journal. -/
theorem Reviewable.evidenceComplete (hs : Reviewable s) (hk : k ∈ s.corrections) :
    ∃ o, s.transfers.find? k.originalTransferId = some o ∧ k.EvidenceComplete o := by
  obtain ⟨o, ho, hposted, -⟩ := hs.reversing.original k hk
  obtain ⟨hmem, hid⟩ := Table.find?_eq_some.mp ho
  obtain ⟨j, hj, htype, hsource⟩ := hs.reversing.journaled o hmem hposted
  have hshaped := hs.linked.shaped j hj
  unfold Journal.Shaped at hshaped
  rw [htype] at hshaped
  obtain ⟨y, hy⟩ := hshaped
  have hfind : s.transfers.find? j.sourceId = some o :=
    Table.find?_eq_some.mpr ⟨hmem, hsource.symm⟩
  obtain rfl := Option.some.inj (hfind.symm.trans hy.find)
  exact ⟨o, ho, by rw [hy.linked]; simp, hs.correction k hk⟩

/-- The inbox and the decision agree on a requested correction exactly when the actor is not its
requester or the time to approve has not run out. -/
theorem correction_agrees_iff (hs : Reviewable s) (hp : p.Proper sess ids s k)
    (hk : k ∈ s.corrections) (hrequested : k.status = .requested) :
    p.Agrees sess ids s k ↔
      ¬(k.SelfApprovalBlocked p.actor ∧ k.approvalExpiresAt ≤ instant p.decidedAt) := by
  obtain ⟨o, ho, hevidence⟩ := hs.evidenceComplete hk
  have hrole := hp.caller.2.2
  unfold CorrectionDecisionRequest.Agrees
  rw [← hp.correction, shows_correction_iff hrole hk hp.tenant ho,
    shows_correction_iff hrole hk hp.tenant ho, approves_correction_iff hs hp hk hrequested,
    refused_correction_iff hp hk hrequested]
  -- The queue and the decision use one predicate; only the deadline tells them apart.
  have hactionable : (k.approvalItem o p.actor (instant p.decidedAt)).actionableByMe = true ↔
      instant p.decidedAt < k.approvalExpiresAt ∧ ¬k.SelfApprovalBlocked p.actor := by
    simp only [Correction.approvalItem, hrequested, hevidence, decide_eq_true_eq, and_true,
      true_and]
  have hblocked : (k.approvalItem o p.actor (instant p.decidedAt)).selfApprovalBlocked = true ↔
      k.SelfApprovalBlocked p.actor := decide_eq_true_iff
  rw [hactionable, hblocked]
  constructor
  · rintro ⟨-, hrefused⟩ ⟨hself, hover⟩
    exact absurd (hrefused hself).1 (not_lt.mpr hover)
  · intro hsettled
    exact ⟨Iff.rfl, fun hself => ⟨not_le.mp fun hover => hsettled ⟨hself, hover⟩, hself⟩⟩

end Corrections

/-! ## Agreement -/

/-- In every state that the calls reach, the inbox and the decision agree on a requested funding
event exactly when it is settled in the sense above, and on a requested correction exactly unless
its requester looks at it in production mode after its window is over. -/
theorem approvals_inbox_agrees (d : Digest) (s₀ : Db) (hs : s₀.Provisioned)
    (happrovals : s₀.approvals.rows = []) (cs : List Call) :
    (∀ e ∈ (run (exec d) cs s₀).fundingEvents, e.status = .requested →
      ∀ sess p ids, FundingDecision.Proper p sess ids (run (exec d) cs s₀) e →
        (p.Agrees sess ids (run (exec d) cs s₀) e ↔
          (run (exec d) cs s₀).FundingSettled e p.actor (instant p.decidedAt))) ∧
    ∀ k ∈ (run (exec d) cs s₀).corrections, k.status = .requested →
      ∀ sess p ids, CorrectionDecisionRequest.Proper p sess ids (run (exec d) cs s₀) k →
        (p.Agrees sess ids (run (exec d) cs s₀) k ↔
          ¬(k.SelfApprovalBlocked p.actor ∧ k.approvalExpiresAt ≤ instant p.decidedAt)) := by
  have hreviewable := run_reviewable d hs happrovals cs
  constructor
  · intro e he hrequested sess p ids hp
    exact funding_agrees_iff hreviewable hp he hrequested
  · intro k hk hrequested sess p ids hp
    exact correction_agrees_iff hreviewable hp hk hrequested

namespace Sample

/-- The database after Fiona's request. -/
def requestedFunding (mode : ControlMode) : Db :=
  run (exec fundingDigest) [requestFunding] (fundingDb mode)

/-- The approval of the request an hour later. -/
def fundingApproval (actor : String) (demo : Bool) : FundingDecision where
  tenant := tenant
  actor := actor
  event := uuid 400
  approve := true
  demo := demo
  reason := "evidence seen"
  correlation := uuid 5
  decidedAt := hour 1

/-- The identifiers of the approval. -/
def fundingApprovalIds : EvidenceIds := ⟨uuid 410, uuid 411, uuid 412⟩

/-- Fiona's request, which an active policy of the mode governs and whose window is open, and the
members of finance who can be asked to approve it. -/
theorem requestedFunding_row (mode : ControlMode) :
    (∃ e ∈ (requestedFunding mode).fundingEvents, ∃ policy,
      (e.id = uuid 400 ∧ e.tenantId = tenant ∧ e.status = .requested ∧
        e.requesterSubjectId = "fiona" ∧ (requestedFunding mode).FundingWindow e (instant (hour 1))) ∧
      (requestedFunding mode).settings.fundingPolicies.find? (tenant, e.currency) = some policy ∧
      policy.mode = mode ∧ policy.financeActivated = true) ∧
    (∀ actor ∈ ["fiona", "frank"],
      (requestedFunding mode).Caller (financeSession actor) tenant actor [.finance]) ∧
    (requestedFunding mode).approvals.find? fundingApprovalIds.approval = none ∧
    (requestedFunding mode).audit.find? fundingApprovalIds.audit = none := by
  have hrow : (requestedFunding mode).fundingEvents.rows.any (fun e =>
      (e.id = uuid 400 ∧ e.tenantId = tenant ∧ e.status = .requested ∧
        e.requesterSubjectId = "fiona" ∧ (requestedFunding mode).FundingWindow e (instant (hour 1))) ∧
      ((requestedFunding mode).settings.fundingPolicies.find? (tenant, e.currency)).any (fun policy =>
        policy.mode = mode ∧ policy.financeActivated = true)) = true ∧
      (∀ actor ∈ ["fiona", "frank"],
        (requestedFunding mode).Caller (financeSession actor) tenant actor [.finance]) ∧
      (requestedFunding mode).approvals.find? fundingApprovalIds.approval = none ∧
      (requestedFunding mode).audit.find? fundingApprovalIds.audit = none := by
    cases mode <;> decide +kernel
  refine ⟨?_, hrow.2⟩
  obtain ⟨e, he, htrue⟩ := List.any_eq_true.mp hrow.1
  obtain ⟨hfields, hany⟩ := of_decide_eq_true htrue
  obtain ⟨policy, hpolicy, hmode⟩ := (Option.any_eq_true _ _).mp hany
  exact ⟨e, he, policy, hfields, hpolicy, of_decide_eq_true hmode⟩

/-- The approval is a proper call by a member of finance. -/
theorem fundingApproval_proper {mode : ControlMode} {e : FundingEvent} {policy : FundingPolicy}
    {actor : String} {demo : Bool} (hactor : actor ∈ ["fiona", "frank"])
    (hid : e.id = uuid 400) (htenant : e.tenantId = tenant)
    (hpolicy : (requestedFunding mode).settings.fundingPolicies.find? (tenant, e.currency) =
      some policy) (hmode : policy.mode = mode)
    (hdemo : demo = true ↔ mode = .localDemoSingleOperator) :
    (fundingApproval actor demo).Proper (financeSession actor) fundingApprovalIds
      (requestedFunding mode) e := by
  obtain ⟨-, hcaller, happroval, haudit⟩ := requestedFunding_row mode
  have hreason : ¬("evidence seen".toList.length < 1 ∨ 500 < "evidence seen".toList.length) := by
    decide
  refine ⟨hcaller actor hactor, htenant, hid, rfl, hreason, fun policy' hpolicy' => ?_, happroval,
    haudit⟩
  have hsame := Option.some.inj (hpolicy.symm.trans hpolicy')
  rw [← hsame, hmode]
  exact hdemo

end Sample

/-- An hour after Fiona's request, Frank sees what his decision would do. -/
theorem approvals_inbox_agrees_sample :
    (Sample.fundingDb .productionDualControl).Provisioned ∧
      ∃ e ∈ (Sample.requestedFunding .productionDualControl).fundingEvents,
        (Sample.fundingApproval "frank" false).Agrees (Sample.financeSession "frank")
          Sample.fundingApprovalIds (Sample.requestedFunding .productionDualControl) e := by
  have hprovisioned := Sample.provisioned.configured
    (Sample.fundingSettings .productionDualControl)
  obtain ⟨e, he, policy, ⟨hid, htenant, hrequested, hfiona, hwindow⟩, hpolicy, hmode, hactive⟩ :=
    (Sample.requestedFunding_row .productionDualControl).1
  have hproper := Sample.fundingApproval_proper (show "frank" ∈ _ by decide) hid htenant hpolicy
    hmode (show false = true ↔ _ by decide)
  refine ⟨hprovisioned, e, he, ((approvals_inbox_agrees Sample.fundingDigest
    (Sample.fundingDb .productionDualControl) hprovisioned rfl [Sample.requestFunding]).1 e he
    hrequested _ _ _ hproper).mpr ?_⟩
  refine ⟨policy, by rw [htenant]; exact hpolicy, fun _ => .inr ⟨hactive, hwindow⟩, fun hdemo => ?_⟩
  rw [hmode] at hdemo
  cases hdemo

/-- In demo mode Fiona is told that she cannot approve her own request, and she can. -/
theorem own_request_shown_blocked :
    (Sample.fundingDb .localDemoSingleOperator).Provisioned ∧
      ∃ e ∈ (Sample.requestedFunding .localDemoSingleOperator).fundingEvents,
        e.status = .requested ∧
        (Sample.fundingApproval "fiona" true).Proper (Sample.financeSession "fiona")
          Sample.fundingApprovalIds (Sample.requestedFunding .localDemoSingleOperator) e ∧
        ¬(Sample.fundingApproval "fiona" true).Agrees (Sample.financeSession "fiona")
          Sample.fundingApprovalIds (Sample.requestedFunding .localDemoSingleOperator) e := by
  have hprovisioned := Sample.provisioned.configured
    (Sample.fundingSettings .localDemoSingleOperator)
  obtain ⟨e, he, policy, ⟨hid, htenant, hrequested, hfiona, hwindow⟩, hpolicy, hmode, hactive⟩ :=
    (Sample.requestedFunding_row .localDemoSingleOperator).1
  have hproper := Sample.fundingApproval_proper (show "fiona" ∈ _ by decide) hid htenant hpolicy
    hmode (show true = true ↔ _ by decide)
  refine ⟨hprovisioned, e, he, hrequested, hproper, fun hagrees => ?_⟩
  have hreviewable : Reviewable (Sample.requestedFunding .localDemoSingleOperator) :=
    run_reviewable Sample.fundingDigest hprovisioned rfl [Sample.requestFunding]
  obtain ⟨policy', hpolicy', -, hdemo⟩ :=
    (funding_agrees_iff hreviewable hproper he hrequested).mp hagrees
  rw [htenant, hpolicy] at hpolicy'
  rw [← Option.some.inj hpolicy'] at hdemo
  exact (hdemo hmode).1 hfiona

end LedgerSync
