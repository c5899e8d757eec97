import LedgerSync.FundingLifecycle
import LedgerSync.Journals

/-!
# Funding under dual control

A funding event posts one journal, it is compensated at most once, and a compensation has the
reverse journal and is never compensated itself. This holds in every history.

That an event which is posted in production mode was approved by somebody else than its requester
does not: a decision compares the two under the policy of its own time, and a posting reads the
policy again but never compares them. An event that its requester approved while the tenant ran in
demo mode is posted after the tenant has been switched to production (`self_approved_posted`). The
switch is the only way to get there (`funding_controlled`).
-/

namespace LedgerSync

open Lib

/-! ## One call -/

/-- What a call does to the funding events and to the approval records. -/
inductive FundingControl (s s' : Db) : Prop
  | same (events : s'.fundingEvents = s.fundingEvents)
      (approvals : s'.approvals = s.approvals ∨ CorrectionEvidence s.approvals s'.approvals)
      (journals : ∀ j ∈ s.journals, j ∈ s'.journals)
  | requested {e : FundingEvent} (events : s.fundingEvents.insert? e = some s'.fundingEvents)
      (status : e.status = .requested) (unclashing : ¬∃ x ∈ s.fundingEvents.rows, e.Clashes x)
      (approvals : RequestEvidence s.approvals s'.approvals) (journals : s'.journals = s.journals)
  | decided {e : FundingEvent} {p : FundingDecision} {policy : FundingPolicy}
      (find : s.fundingEvents.find? p.event = some e) (status : e.status = .requested)
      (events : s'.fundingEvents = s.fundingEvents.replace (e.decide p))
      (policy_find : s.settings.fundingPolicies.find? (e.tenantId, e.currency) = some policy)
      (independent : p.approve = true → policy.mode = .productionDualControl →
        e.requesterSubjectId ≠ p.actor)
      (approvals : DecisionEvidence p e s.approvals s'.approvals)
      (journals : s'.journals = s.journals)
  | posted {p : FundingPost} {ids : FundingPostIds} (h : PostedFunding p ids s s')

section Step

variable {d : Digest} {c : Call} {s s' : Db}

/-- A returning call requests, decides or posts a funding event, or keeps the events and records
nothing about them. -/
theorem Effect.fundingControl (h : Effect d c s s') : FundingControl s s' := by
  have hjournals : ∀ j ∈ s.journals, j ∈ s'.journals := by
    intro j hj
    rcases h.change.journal with ⟨heq, -⟩ | ⟨_, _, _, _, _, hw⟩
    · rw [heq]
      exact hj
    · exact (Table.mem_insert? hw.insert).mpr (.inr hj)
  by_cases hfunds : c.Funds
  case neg =>
    have hevents := h.untouched.fundingEvents hfunds
    by_cases hcorrects : c.Corrects
    case neg => exact .same hevents (.inl (h.untouched.approvals hfunds hcorrects)) hjournals
    -- The records of corrections have targets of their own.
    cases h with
    | none => exact .same rfl (.inl rfl) hjournals
    | requestedCorrection _ _ _ _ _ _ evidence => exact .same hevents (.inr evidence) hjournals
    | decidedCorrection _ _ _ _ _ evidence => exact .same hevents (.inr evidence) hjournals
    | lapsedCorrection h => exact .same hevents (.inr h.evidence) hjournals
    | postedCorrection h => exact .same hevents (.inl (by rw [h.frame])) hjournals
    | _ => exact False.elim hcorrects
  cases h with
  | none => exact .same rfl (.inl rfl) hjournals
  | @requestedFunding _ _ _ _ s₁ _ _ _ e cleared row events frame unclashing evidence =>
    have hcleared : s₁.fundingEvents = s.fundingEvents ∧ s₁.approvals = s.approvals ∧
        s₁.journals = s.journals := by
      rcases cleared with rfl | hc
      · exact ⟨rfl, rfl, rfl⟩
      · rw [hc.frame]
        exact ⟨rfl, rfl, rfl⟩
    rw [hcleared.1] at events unclashing
    rw [hcleared.2.1] at evidence
    refine .requested events (requestedFunding?_status row) unclashing evidence ?_
    rw [frame]
    exact hcleared.2.2
  | requestedCompensation _ _ _ _ unclashing events frame evidence =>
    exact .requested events rfl unclashing evidence (by rw [frame])
  | decidedFunding find requested events frame tenant policy_find independent evidence =>
    rw [← tenant] at policy_find
    exact .decided find requested events policy_find independent evidence (by rw [frame])
  | postedFunding h => exact .posted h
  | _ => exact False.elim hfunds

/-- What a call leaves of an event that is decided. -/
structure FundingEvent.Follows (e' e : FundingEvent) : Prop where
  id : e'.id = e.id
  tenant : e'.tenantId = e.tenantId
  currency : e'.currency = e.currency
  requester : e'.requesterSubjectId = e.requesterSubjectId
  original : e'.compensationOfEventId = e.compensationOfEventId
  approver : e.status ≠ .requested → e'.approverSubjectId = e.approverSubjectId
  decided : e.status ≠ .requested → e'.status ≠ .requested
  approved : e.status ≠ .requested → e'.status = .approved → e.status = .approved
  unposted : e'.Posted → ¬e.Posted → e.status = .approved

/-- An event follows itself. -/
theorem FundingEvent.Follows.refl (e : FundingEvent) : e.Follows e :=
  ⟨rfl, rfl, rfl, rfl, rfl, fun _ => rfl, fun h => h, fun _ h => h, fun h h' => absurd h h'⟩

/-- A requested event is followed by its decision. -/
theorem FundingEvent.follows_decide {e : FundingEvent} (h : e.status = .requested)
    (p : FundingDecision) : (e.decide p).Follows e := by
  unfold FundingEvent.decide
  split_ifs <;> exact ⟨rfl, rfl, rfl, rfl, rfl, fun hne => absurd h hne, fun hne => absurd h hne,
    fun hne => absurd h hne, fun hposted => by rcases hposted with h' | h' <;> cases h'⟩

/-- An approved event is followed by its posting. -/
theorem FundingEvent.follows_post {e : FundingEvent} (h : e.status = .approved) (journal : Uuid)
    (key : String) (now : Instant) : (e.post journal key now).Follows e where
  id := rfl
  tenant := rfl
  currency := rfl
  requester := rfl
  original := rfl
  approver _ := rfl
  decided _ := by simp [FundingEvent.post]
  approved _ := by simp [FundingEvent.post]
  unposted _ _ := h

/-- A posted event is followed by its compensation. -/
theorem FundingEvent.follows_compensate {e : FundingEvent} (h : e.status = .posted)
    (compensation : Uuid) (now : Instant) : (e.compensate compensation now).Follows e where
  id := rfl
  tenant := rfl
  currency := rfl
  requester := rfl
  original := rfl
  approver _ := rfl
  decided _ := by simp [FundingEvent.compensate]
  approved _ := by simp [FundingEvent.compensate]
  unposted _ hnot := absurd (.inl h) hnot

/-- The events after a posting: those from before, the one that is posted, and the original that it
compensates. -/
theorem PostedFunding.event_cases {p : FundingPost} {ids : FundingPostIds}
    (h : PostedFunding p ids s s') (hl : Linked s) {x : FundingEvent} (hx : x ∈ s'.fundingEvents) :
    x ∈ s.fundingEvents ∨ x = h.event.post ids.journal p.idempotencyKey p.now ∨
      ∃ o ∈ s.fundingEvents, o.status = .posted ∧ x = o.compensate p.fundingEventId p.now := by
  rcases h.mem_events hx with hold | hpost | ⟨o, ho, hstatus, hof, hmark⟩
  · exact .inl hold
  · exact .inr (.inl hpost)
  · rcases ho with ho | rfl
    · exact .inr (.inr ⟨o, ho, hstatus, hmark⟩)
    · -- An event is not its own original, since an original compensates nothing.
      obtain ⟨o', ho', hnone, -⟩ := hl.compensating _ _ h.event_find _ hof
      have hkey : h.event.id = p.fundingEventId := Table.key_of_find? h.event_find
      rw [show (h.event.post ids.journal p.idempotencyKey p.now).id = p.fundingEventId from hkey,
        h.event_find] at ho'
      obtain rfl := Option.some.inj ho'
      cases hof.symm.trans hnone

/-- The events after a posting each follow an event before it. -/
theorem PostedFunding.follows {p : FundingPost} {ids : FundingPostIds} (h : PostedFunding p ids s s')
    (hl : Linked s) {x : FundingEvent} (hx : x ∈ s'.fundingEvents) :
    ∃ e ∈ s.fundingEvents, x.Follows e := by
  rcases h.event_cases hl hx with hold | rfl | ⟨o, ho, hstatus, rfl⟩
  · exact ⟨x, hold, .refl x⟩
  · exact ⟨h.event, Table.mem_of_find? h.event_find, FundingEvent.follows_post h.event_status _ _ _⟩
  · exact ⟨o, ho, FundingEvent.follows_compensate hstatus _ _⟩

/-- An event after a call is new, or it follows an event before the call. -/
theorem FundingControl.follows (h : FundingControl s s') (hl : Linked s) {x : FundingEvent}
    (hx : x ∈ s'.fundingEvents) :
    (∃ e ∈ s.fundingEvents, x.Follows e) ∨
      (s.fundingEvents.insert? x = some s'.fundingEvents ∧
        ¬∃ y ∈ s.fundingEvents.rows, x.Clashes y) := by
  cases h with
  | same events _ _ => exact .inl ⟨x, events ▸ hx, .refl x⟩
  | requested events _ unclashing _ _ =>
    rcases (Table.mem_insert? events).mp hx with rfl | hold
    · exact .inr ⟨events, unclashing⟩
    · exact .inl ⟨x, hold, .refl x⟩
  | decided find status events _ _ _ _ =>
    rw [events] at hx
    rcases Table.mem_replace hx with rfl | ⟨hold, -⟩
    · exact .inl ⟨_, Table.mem_of_find? find, FundingEvent.follows_decide status _⟩
    · exact .inl ⟨x, hold, .refl x⟩
  | posted h => exact .inl (h.follows hl hx)

/-- An event before a call is followed by an event after it. -/
theorem Effect.followed (h : Effect d c s s') (hl : Linked s) {i : Uuid} {e : FundingEvent}
    (he : s.fundingEvents.find? i = some e) :
    ∃ x, s'.fundingEvents.find? i = some x ∧ x.Follows e := by
  obtain ⟨x, hx, -⟩ := h.fundingChange.kept he
  have hkey : x.id = i := Table.key_of_find? hx
  rcases h.fundingControl.follows hl (Table.mem_of_find? hx) with ⟨e₀, he₀, hfollows⟩ | ⟨hins, -⟩
  · have hsame := Table.find?_eq_some.mpr ⟨he₀, hfollows.id.symm.trans hkey⟩
    obtain rfl := Option.some.inj (he.symm.trans hsame)
    exact ⟨x, hx, hfollows⟩
  · have hnone := (Table.insert?_eq_some.mp hins).1
    rw [hkey, he] at hnone
    cases hnone

end Step

/-! ## What holds in every state -/

/-- The journal of a funding event. -/
def FundingEvent.HasJournal (s : Db) (e : FundingEvent) (j : Journal) : Prop :=
  j ∈ s.journals ∧ j.sourceType = .fundingEvent ∧ j.sourceId = e.id

/-- The event was approved by somebody else than its requester. -/
def FundingEvent.Independent (e : FundingEvent) : Prop :=
  ∃ approver, e.approverSubjectId = some approver ∧ approver ≠ e.requesterSubjectId

/-- The tenant funds the currency in production mode. -/
def Settings.Production (c : Settings) (tenant : Uuid) (currency : String) : Prop :=
  ∃ policy, c.fundingPolicies.find? (tenant, currency) = some policy ∧
    policy.mode = .productionDualControl

/-- What holds of funding events in every history. -/
structure FundingOnce (s : Db) : Prop where
  recorded : ∀ r ∈ s.approvals, r.status = .approved → r.commandType ≠ .transferCompensation →
    ∃ e, s.fundingEvents.find? r.targetId = some e ∧ e.status ≠ .requested ∧
      r.requesterSubjectId = e.requesterSubjectId ∧ r.approverSubjectId = e.approverSubjectId
  single : ∀ e ∈ s.fundingEvents, ∀ x ∈ s.fundingEvents, e.compensationOfEventId ≠ none →
    e.compensationOfEventId = x.compensationOfEventId → e = x
  journaled : ∀ e ∈ s.fundingEvents, e.Posted → ∃ j, e.HasJournal s j

/-- No approved event of a tenant in production mode was approved by its requester. -/
def Approving (s : Db) : Prop :=
  ∀ e ∈ s.fundingEvents, e.status = .approved → s.settings.Production e.tenantId e.currency →
    e.approverSubjectId ≠ some e.requesterSubjectId

section Invariant

variable {d : Digest} {c : Call} {s s' : Db}

/-- An approval after a call was there before it, or a decision wrote it. -/
theorem FundingControl.approval (h : FundingControl s s') {r : Approval} (hr : r ∈ s'.approvals)
    (hstatus : r.status = .approved) (htype : r.commandType ≠ .transferCompensation) :
    r ∈ s.approvals ∨ ∃ e p, s.fundingEvents.find? p.event = some e ∧ r.targetId = p.event ∧
      s'.fundingEvents = s.fundingEvents.replace (e.decide p) ∧
      r.requesterSubjectId = e.requesterSubjectId ∧ r.approverSubjectId = some p.actor := by
  -- Only a decision adds an approved record of a funding command.
  cases h with
  | same _ approvals _ =>
    rcases approvals with heq | ⟨a, hins, htransfer⟩
    · exact .inl (heq ▸ hr)
    · rcases (Table.mem_insert? hins).mp hr with rfl | hold
      · exact absurd htransfer htype
      · exact .inl hold
  | requested _ _ _ approvals _ =>
    obtain ⟨a, hins, hrequested⟩ := approvals
    rcases (Table.mem_insert? hins).mp hr with rfl | hold
    · cases hrequested.symm.trans hstatus
    · exact .inl hold
  | decided find _ events _ _ approvals _ =>
    obtain ⟨a, hins, -, htarget, -, hrequester, happrover, -⟩ := approvals
    rcases (Table.mem_insert? hins).mp hr with rfl | hold
    · exact .inr ⟨_, _, find, htarget, events, hrequester, happrover⟩
    · exact .inl hold
  -- A posting writes no approval.
  | posted h =>
    refine .inl ?_
    have heq : s'.approvals = s.approvals := by rw [h.frame]
    exact heq ▸ hr

/-- A decision keeps the event and its requester, names its actor and leaves no request. -/
theorem FundingEvent.decide_fields (e : FundingEvent) (p : FundingDecision) :
    (e.decide p).id = e.id ∧ (e.decide p).requesterSubjectId = e.requesterSubjectId ∧
      (e.decide p).approverSubjectId = some p.actor ∧ (e.decide p).status ≠ .requested := by
  unfold FundingEvent.decide
  split_ifs <;> exact ⟨rfl, rfl, rfl, by simp⟩

/-- A journal is written with its event, and no call takes it away. -/
theorem FundingControl.journaled (h : FundingControl s s') (hl : Linked s) (hs : FundingOnce s)
    {x : FundingEvent} (hx : x ∈ s'.fundingEvents) (hposted : x.Posted) :
    ∃ j, x.HasJournal s' j := by
  -- A requested event is not posted, so that it is not one of those newly written.
  have hunposted : x.status ≠ .requested := by
    intro hreq
    rcases hposted with h' | h' <;> cases hreq.symm.trans h'
  cases h with
  | same events _ journals =>
    obtain ⟨j, hj, hrest⟩ := hs.journaled x (events ▸ hx) hposted
    exact ⟨j, journals j hj, hrest⟩
  | requested events status _ _ journals =>
    rcases (Table.mem_insert? events).mp hx with rfl | hold
    · exact absurd status hunposted
    · unfold FundingEvent.HasJournal
      rw [journals]
      exact hs.journaled x hold hposted
  | decided _ _ events _ _ _ journals =>
    rw [events] at hx
    unfold FundingEvent.HasJournal
    rw [journals]
    rcases Table.mem_replace hx with rfl | ⟨hold, -⟩
    -- A decision leaves its event requested, approved or rejected.
    · unfold FundingEvent.Posted FundingEvent.decide at hposted
      split_ifs at hposted <;> simp at hposted
    · exact hs.journaled x hold hposted
  | @posted p ids h =>
    have hkey : h.event.id = p.fundingEventId := Table.key_of_find? h.event_find
    obtain ⟨e, he, hfollows⟩ := h.follows hl hx
    -- An event posted before keeps its journal.
    by_cases hbefore : e.Posted
    · obtain ⟨j, hj, htype, hsource⟩ := hs.journaled e he hbefore
      exact ⟨j, (Table.mem_insert? h.journals).mpr (.inr hj), htype, hsource.trans hfollows.id.symm⟩
    · -- Only the event of the call is newly posted.
      have hid : x.id = p.fundingEventId := by
        rcases h.event_cases hl hx with hold | rfl | ⟨o, ho, hstatus, rfl⟩
        · rw [Table.eq_of_key hold he hfollows.id] at hposted
          exact absurd hposted hbefore
        · exact hkey
        · rw [← Table.eq_of_key ho he hfollows.id] at hbefore
          exact absurd (.inl hstatus) hbefore
      exact ⟨fundingJournal p ids.journal, (Table.mem_insert? h.journals).mpr (.inl rfl), rfl,
        hid.symm⟩

/-- A returning call keeps requests and decisions single. -/
theorem Effect.fundingOnce (h : Effect d c s s') (hl : Linked s) (hs : FundingOnce s) :
    FundingOnce s' where
  recorded r hr hstatus htype := by
    -- The record is one of before, or the decision of this call wrote it.
    rcases h.fundingControl.approval hr hstatus htype with hold |
        ⟨e, p, hfind, htarget, hevents, hrequester, happrover⟩
    · obtain ⟨e, he, hdecided, hrequester, happrover⟩ := hs.recorded r hold hstatus htype
      obtain ⟨x, hx, hfollows⟩ := h.followed hl he
      exact ⟨x, hx, hfollows.decided hdecided, hrequester.trans hfollows.requester.symm,
        happrover.trans (hfollows.approver hdecided).symm⟩
    · obtain ⟨hid, hreq, happ, hdecided⟩ := e.decide_fields p
      have hkey : e.id = p.event := Table.key_of_find? hfind
      refine ⟨e.decide p, ?_, hdecided, hrequester.trans hreq.symm, happrover.trans happ.symm⟩
      rw [hevents, htarget]
      exact Table.find?_replace_self hfind (hid.trans hkey)
  single e he x hx hne heq := by
    rcases h.fundingControl.follows hl he with ⟨e₀, he₀, hfe⟩ | ⟨hins, hclash⟩ <;>
      rcases h.fundingControl.follows hl hx with ⟨x₀, hx₀, hfx⟩ | ⟨hins', hclash'⟩
    -- Of two events with one original, at most one is new, and inserting it checked for the other.
    · rw [hfe.original] at hne heq
      rw [hfx.original] at heq
      obtain rfl := hs.single e₀ he₀ x₀ hx₀ hne heq
      exact Table.eq_of_key he hx (hfe.id.trans hfx.id.symm)
    · exact absurd ⟨e₀, he₀, .inr (.inr ⟨heq ▸ hne, heq.symm.trans hfe.original⟩)⟩ hclash'
    · exact absurd ⟨x₀, hx₀, .inr (.inr ⟨hne, heq.trans hfx.original⟩)⟩ hclash
    · -- Both are the one event that the call inserted.
      rcases (Table.mem_insert? hins).mp hx with rfl | hold
      · rfl
      · exact absurd rfl (Table.find?_eq_none.mp (Table.insert?_eq_some.mp hins').1 x hold)
  journaled x hx hposted := h.fundingControl.journaled hl hs hx hposted

/-- A call does not switch a tenant to production mode while an approved event of it was approved by
its requester. -/
def SwitchSafe (s : Db) (c : Call) : Prop :=
  ∀ st, c = .configure st → ∀ e ∈ s.fundingEvents, e.status = .approved →
    st.Production e.tenantId e.currency → ¬s.settings.Production e.tenantId e.currency →
    e.approverSubjectId ≠ some e.requesterSubjectId

/-- A step keeps every approval by somebody who may approve, while the settings stay. -/
theorem FundingControl.approving (h : FundingControl s s') (hsettings : s'.settings = s.settings)
    (hs : Approving s) : Approving s' := by
  intro x hx hstatus hproduction
  rw [hsettings] at hproduction
  cases h with
  | same events _ _ => exact hs x (events ▸ hx) hstatus hproduction
  | requested events status _ _ _ =>
    rcases (Table.mem_insert? events).mp hx with rfl | hold
    · cases status.symm.trans hstatus
    · exact hs x hold hstatus hproduction
  | @decided e p policy find status events policy_find independent _ _ =>
    rw [events] at hx
    -- A rejected event is not approved, so that only an approval is left to check.
    rcases Table.mem_replace hx with rfl | ⟨hold, -⟩
    · by_cases happrove : p.approve = true
      · -- The decision compared the two under the policy that is still in force.
        unfold FundingEvent.decide at hproduction ⊢
        rw [if_pos happrove] at hproduction ⊢
        obtain ⟨policy', hfind, hmode⟩ := hproduction
        obtain rfl := Option.some.inj (policy_find.symm.trans hfind)
        intro heq
        exact independent happrove hmode (Option.some.inj heq).symm
      · unfold FundingEvent.decide at hstatus
        rw [if_neg happrove] at hstatus
        cases hstatus
    · exact hs x hold hstatus hproduction
  -- Posted events are no longer approved.
  | posted h =>
    rcases h.mem_events hx with hold | rfl | ⟨o, -, -, -, rfl⟩
    · exact hs x hold hstatus hproduction
    · cases hstatus
    · cases hstatus

/-- A call that switches no tenant to production with a self-approved event keeps them too. -/
theorem Effect.approving (h : Effect d c s s') (hsafe : SwitchSafe s c) (hs : Approving s) :
    Approving s' := by
  rcases h.settings with hsame | hconfigure
  · exact h.fundingControl.approving hsame hs
  · -- New settings leave the events as they are.
    intro x hx hstatus hproduction
    generalize s'.settings = st at hconfigure hproduction
    subst hconfigure
    have hevents : s'.fundingEvents = s.fundingEvents := by
      cases h <;> rfl
    by_cases hbefore : s.settings.Production x.tenantId x.currency
    · exact hs x (hevents ▸ hx) hstatus hbefore
    · exact hsafe _ rfl x (hevents ▸ hx) hstatus hproduction hbefore

/-- Every event that a call posts in production mode was approved by somebody else than its
requester, and its approval had not expired at the time of the posting. -/
def DualControlled (s s' : Db) : Prop :=
  ∀ e ∈ s'.fundingEvents, e.Posted → (∀ e₀, s.fundingEvents.find? e.id = some e₀ → ¬e₀.Posted) →
    s.settings.Production e.tenantId e.currency → e.Independent ∧
      ∃ r ∈ s.approvals, r.targetId = e.id ∧ r.status = .approved ∧
        r.requesterSubjectId = e.requesterSubjectId ∧ r.approverSubjectId = e.approverSubjectId ∧
        ∃ now, e.postedAt = some now ∧ now < r.expiresAt

/-- An event that became posted in a call is the one that the call posted. -/
theorem FundingControl.newly_posted (h : FundingControl s s') (hl : Linked s) {x : FundingEvent}
    (hx : x ∈ s'.fundingEvents) (hposted : x.Posted)
    (hnew : ∀ e₀, s.fundingEvents.find? x.id = some e₀ → ¬e₀.Posted) :
    ∃ p ids, ∃ h : PostedFunding p ids s s', x = h.event.post ids.journal p.idempotencyKey p.now := by
  -- The event was not there as it is, so that this call wrote it.
  have hold : x ∉ s.fundingEvents := fun hmem =>
    hnew x (Table.find?_eq_some.mpr ⟨hmem, rfl⟩) hposted
  cases h with
  | same events _ _ => exact absurd (events ▸ hx) hold
  | requested events status _ _ _ =>
    rcases (Table.mem_insert? events).mp hx with rfl | hmem
    · rcases hposted with h' | h' <;> cases status.symm.trans h'
    · exact absurd hmem hold
  | decided _ _ events _ _ _ _ =>
    rw [events] at hx
    rcases Table.mem_replace hx with rfl | ⟨hmem, -⟩
    · unfold FundingEvent.Posted FundingEvent.decide at hposted
      split_ifs at hposted <;> simp at hposted
    · exact absurd hmem hold
  -- An original marked as compensated had been posted already.
  | @posted p ids h =>
    rcases h.event_cases hl hx with hmem | rfl | ⟨o, ho, hstatus, rfl⟩
    · exact absurd hmem hold
    · exact ⟨p, ids, h, rfl⟩
    · exact absurd (.inl hstatus) (hnew o (Table.find?_eq_some.mpr ⟨ho, rfl⟩))

/-- A step whose approvals are such posts events under dual control. -/
theorem FundingControl.dualControlled (h : FundingControl s s') (hl : Linked s)
    (hs : FundingOnce s) (ha : Approving s) : DualControlled s s' := by
  intro x hx hposted hnew hproduction
  -- The posting consumed an approval whose record names the event and both actors.
  obtain ⟨p, ids, h, rfl⟩ := h.newly_posted hl hx hposted hnew
  have hkey : h.event.id = p.fundingEventId := Table.key_of_find? h.event_find
  have hmem := Table.mem_of_find? h.event_find
  have htype : h.approval.commandType ≠ .transferCompensation := by
    rw [h.approval_type]
    unfold FundingEvent.commandType
    split_ifs <;> simp
  obtain ⟨e, he, -, hrequester, happrover⟩ :=
    hs.recorded h.approval h.approval_mem h.approval_status htype
  rw [h.approval_target, h.event_find] at he
  obtain rfl := Option.some.inj he
  -- The approval was given under production, hence by another actor.
  have hdifferent := ha h.event hmem h.event_status hproduction
  obtain ⟨approver, hsome⟩ := Option.ne_none_iff_exists'.mp h.approval_approver
  refine ⟨⟨approver, happrover.symm.trans hsome, ?_⟩, h.approval, h.approval_mem,
    h.approval_target.trans hkey.symm, h.approval_status, hrequester, happrover, p.now, rfl,
    h.approval_open⟩
  rintro rfl
  exact hdifferent (happrover.symm.trans hsome)

/-- At first there are neither events nor approvals. -/
theorem Db.Provisioned.fundingOnce (h : s.Provisioned) (happrovals : s.approvals.rows = []) :
    FundingOnce s where
  recorded r hr := by
    rw [Table.mem_def, happrovals] at hr
    cases hr
  single e he := by
    rw [Table.mem_def, h.fundingEvents] at he
    cases he
  journaled e he := by
    rw [Table.mem_def, h.fundingEvents] at he
    cases he

/-- The journal of a funding event moves its amount. -/
theorem Linked.fundingShape (hl : Linked s) {e : FundingEvent} (he : e ∈ s.fundingEvents)
    {j : Journal} (hj : e.HasJournal s j) : FundingShape s j e := by
  obtain ⟨hmem, htype, hsource⟩ := hj
  have hshaped := hl.shaped j hmem
  unfold Journal.Shaped at hshaped
  rw [htype] at hshaped
  obtain ⟨x, hx⟩ := hshaped
  have hfind : s.fundingEvents.find? j.sourceId = some e :=
    Table.find?_eq_some.mpr ⟨he, hsource.symm⟩
  obtain rfl := Option.some.inj (hfind.symm.trans hx.find)
  exact hx

/-- The two journals move one amount between two accounts, in opposite directions. -/
def Db.Opposite (s : Db) (j j' : Journal) : Prop :=
  ∃ debit credit amount currency, s.PostedAs j debit credit amount currency ∧
    s.PostedAs j' credit debit amount currency

/-- The journal of a compensation reverses that of its original. -/
theorem FundingOnce.opposite (hs : FundingOnce s) (hl : Linked s) {e : FundingEvent}
    (he : e ∈ s.fundingEvents) {i : Uuid} (hi : e.compensationOfEventId = some i)
    (hposted : e.Posted) : ∃ o j j', s.fundingEvents.find? i = some o ∧ e.HasJournal s j ∧
      o.HasJournal s j' ∧ s.Opposite j j' := by
  obtain ⟨j, hj⟩ := hs.journaled e he hposted
  have hshape := hl.fundingShape he hj
  -- The compensation has taken its terms from the original with the accounts exchanged.
  obtain ⟨o, ho, hstatus, -, hterms⟩ := hshape.compensation i hi
  obtain ⟨o', ho', hnone, -⟩ := hl.compensating e.id e (Table.find?_eq_some.mpr ⟨he, rfl⟩) i hi
  obtain rfl := Option.some.inj (ho.symm.trans ho')
  have hmem := Table.mem_of_find? ho
  obtain ⟨j', hj'⟩ := hs.journaled o hmem (.inr hstatus)
  refine ⟨o, j, j', ho, hj, hj', o.destinationAccountId, o.systemAccountId, o.amount, o.currency,
    ?_, ?_⟩
  · have hsides := hshape.sides
    unfold FundingEvent.debitAccountId FundingEvent.creditAccountId at hsides
    simp only [hi, reduceCtorEq, if_false, hterms.destination, hterms.system, hterms.amount,
      hterms.currency] at hsides
    exact hsides
  · have hsides := (hl.fundingShape hmem hj').sides
    unfold FundingEvent.debitAccountId FundingEvent.creditAccountId at hsides
    simp only [hnone, if_true] at hsides
    exact hsides

end Invariant

/-- In every history in which no tenant is switched to production mode while an approved event of it
was approved by its requester: a funding event has at most one journal; every event that is posted
in production mode was approved by somebody else than its requester, with an approval that had not
expired at the time of the posting; an event is compensated at most once, by an event whose journal
is the exact reverse of its own; and a compensation is never compensated. -/
theorem funding_controlled (d : Digest) (s : Db) (hs : s.Provisioned)
    (happrovals : s.approvals.rows = []) (cs : List Call)
    (hsafe : ∀ pre c post, cs = pre ++ c :: post → SwitchSafe (run (exec d) pre s) c) :
    (∀ e ∈ (run (exec d) cs s).fundingEvents, ∀ j j', e.HasJournal (run (exec d) cs s) j →
      e.HasJournal (run (exec d) cs s) j' → j = j') ∧
    (∀ pre c post, cs = pre ++ c :: post →
      DualControlled (run (exec d) pre s) (commit (exec d c) (run (exec d) pre s))) ∧
    ∀ e ∈ (run (exec d) cs s).fundingEvents, ∀ i, e.compensationOfEventId = some i →
      (∃ o, (run (exec d) cs s).fundingEvents.find? i = some o ∧
        o.compensationOfEventId = none) ∧
      (∀ x ∈ (run (exec d) cs s).fundingEvents, x.compensationOfEventId = some i → x = e) ∧
      (e.Posted → ∃ o j j', (run (exec d) cs s).fundingEvents.find? i = some o ∧
        e.HasJournal (run (exec d) cs s) j ∧ o.HasJournal (run (exec d) cs s) j' ∧
        (run (exec d) cs s).Opposite j j') := by
  -- What holds in every state along the history.
  have hall : ∀ l, l <+: cs → Linked (run (exec d) l s) ∧ FundingOnce (run (exec d) l s) ∧
      Approving (run (exec d) l s) := by
    intro l hl
    refine run_prefix_invariant (I := fun s => Linked s ∧ FundingOnce s ∧ Approving s) ?_
      ⟨hs.linked, hs.fundingOnce happrovals, fun e he => ?_⟩ hl
    · intro pre c post hcs _ s' hstep ⟨hlinked, honce, happroving⟩
      have heffect := exec_effect hstep
      exact ⟨heffect.linked hlinked, heffect.fundingOnce hlinked honce,
        heffect.approving (hsafe pre c post hcs) happroving⟩
    · rw [Table.mem_def, hs.fundingEvents] at he
      cases he
  obtain ⟨hlinked, honce, -⟩ := hall cs List.prefix_rfl
  refine ⟨fun e he j j' hj hj' => ?_, fun pre c post hcs => ?_, fun e he i hi => ⟨?_, ?_, ?_⟩⟩
  · have hid := (hlinked.fundingShape he hj).linked.symm.trans (hlinked.fundingShape he hj').linked
    exact Table.eq_of_key hj.1 hj'.1 (Option.some.inj hid)
  · obtain ⟨hlinked', honce', happroving⟩ := hall pre ⟨c :: post, hcs.symm⟩
    rcases commit_cases (exec d c) (run (exec d) pre s) with h | ⟨u, h⟩
    · rw [h]
      intro x hx hposted hnew
      exact absurd hposted (hnew x (Table.find?_eq_some.mpr ⟨hx, rfl⟩))
    · exact (exec_effect h).fundingControl.dualControlled hlinked' honce' happroving
  · obtain ⟨o, ho, hnone, -⟩ := hlinked.compensating e.id e (Table.find?_eq_some.mpr ⟨he, rfl⟩) i hi
    exact ⟨o, ho, hnone⟩
  · intro x hx hxi
    exact honce.single x hx e he (by simp [hxi]) (hxi.trans hi.symm)
  · exact honce.opposite hlinked he hi

/-- A request that another member of finance approved, posted in production mode. -/
theorem funding_controlled_sample :
    (Sample.fundingDb .productionDualControl).Provisioned ∧
      (∃ e ∈ (run (exec Sample.fundingDigest) [Sample.requestFunding,
        Sample.approveFunding "frank" false, Sample.postFunding]
        (Sample.fundingDb .productionDualControl)).fundingEvents, e.Posted) ∧
      DualControlled (run (exec Sample.fundingDigest) [Sample.requestFunding,
          Sample.approveFunding "frank" false] (Sample.fundingDb .productionDualControl))
        (commit (exec Sample.fundingDigest Sample.postFunding) (run (exec Sample.fundingDigest)
          [Sample.requestFunding, Sample.approveFunding "frank" false]
          (Sample.fundingDb .productionDualControl))) := by
  have hprovisioned := Sample.provisioned.configured
    (Sample.fundingSettings .productionDualControl)
  have hposted : (run (exec Sample.fundingDigest) [Sample.requestFunding,
      Sample.approveFunding "frank" false, Sample.postFunding]
      (Sample.fundingDb .productionDualControl)).fundingEvents.rows.any
      (fun e => decide e.Posted) = true := by decide +kernel
  obtain ⟨e, he, hepost⟩ := List.any_eq_true.mp hposted
  refine ⟨hprovisioned, ⟨e, he, of_decide_eq_true hepost⟩, ?_⟩
  refine (funding_controlled Sample.fundingDigest (Sample.fundingDb .productionDualControl)
    hprovisioned rfl [Sample.requestFunding, Sample.approveFunding "frank" false,
      Sample.postFunding] (fun pre c post hcs st hst => ?_)).2.1 _ _ [] rfl
  -- None of the three calls changes the settings.
  have hmem : Call.configure st ∈ [Sample.requestFunding, Sample.approveFunding "frank" false,
      Sample.postFunding] := by
    rw [hcs, hst]
    exact List.mem_append_right _ List.mem_cons_self
  simp [Sample.requestFunding, Sample.approveFunding, Sample.postFunding] at hmem

/-- Fiona requests and approves funding while the tenant runs in demo mode, the tenant is switched
to production, and the event is posted. -/
theorem self_approved_posted :
    ¬DualControlled (run (exec Sample.fundingDigest) [Sample.requestFunding,
        Sample.approveFunding "fiona" true,
        .configure (Sample.fundingSettings .productionDualControl)]
        (Sample.fundingDb .localDemoSingleOperator))
      (commit (exec Sample.fundingDigest Sample.postFunding) (run (exec Sample.fundingDigest)
        [Sample.requestFunding, Sample.approveFunding "fiona" true,
          .configure (Sample.fundingSettings .productionDualControl)]
        (Sample.fundingDb .localDemoSingleOperator))) := by
  generalize hs : run (exec Sample.fundingDigest) [Sample.requestFunding,
    Sample.approveFunding "fiona" true, .configure (Sample.fundingSettings .productionDualControl)]
    (Sample.fundingDb .localDemoSingleOperator) = s
  have hposted : (commit (exec Sample.fundingDigest Sample.postFunding) s).fundingEvents.rows.any
      (fun e => e.Posted ∧ e.id = Sample.uuid 400 ∧ e.tenantId = Sample.tenant ∧
        e.currency = "INR" ∧ e.approverSubjectId = some e.requesterSubjectId) = true := by
    rw [← hs]
    decide +kernel
  -- The event is newly posted: it is not posted in the state before.
  have hbefore : (s.fundingEvents.find? (Sample.uuid 400)).all (fun e => ¬e.Posted) = true := by
    rw [← hs]
    decide +kernel
  have hmode : (s.settings.fundingPolicies.find? (Sample.tenant, "INR")).any
      (fun p => p.mode = .productionDualControl) = true := by
    rw [← hs]
    decide +kernel
  obtain ⟨e, he, hfacts⟩ := List.any_eq_true.mp hposted
  obtain ⟨hpost, hid, htenant, hcurrency, hself⟩ := of_decide_eq_true hfacts
  obtain ⟨policy, hpolicy, hproduction⟩ := (Option.any_eq_true _ _).mp hmode
  have hnew : ∀ e₀, s.fundingEvents.find? e.id = some e₀ → ¬e₀.Posted := by
    intro e₀ he₀
    rw [hid] at he₀
    rw [he₀] at hbefore
    exact of_decide_eq_true hbefore
  have hmode' : s.settings.Production e.tenantId e.currency := by
    rw [htenant, hcurrency]
    exact ⟨policy, hpolicy, of_decide_eq_true hproduction⟩
  -- The posted event records its requester as approver, which dual control excludes.
  intro hcontrolled
  obtain ⟨⟨approver, happrover, hne⟩, -⟩ := hcontrolled e he hpost hnew hmode'
  exact hne (Option.some.inj (happrover.symm.trans hself))

end LedgerSync
