import LedgerSync.Lib.RollingWindow
import LedgerSync.Book

/-!
# Funding events over whole histories

What every call can do to the funding events and to the velocity rows that their limits are checked
against (`FundingStep`), and the rolling limits that follow. A posting carries a time of its own,
and postings are committed in any order of these times. The check adds up every velocity row that
has not expired at the time of the posting, later ones included, and nothing ever deletes such a
row; so every window of 24 hours stays within the limits (`funding_rolling_limit`).
-/

namespace LedgerSync

open Lib

/-! ## One call -/

/-- What a call does to the funding events and the velocity rows. -/
inductive FundingStep (s s' : Db) : Prop
  | same (events : s'.fundingEvents = s.fundingEvents)
      (velocity : s'.fundingVelocity = s.fundingVelocity)
  | requested {e : FundingEvent} (events : s.fundingEvents.insert? e = some s'.fundingEvents)
      (status : e.status = .requested) (velocity : s'.fundingVelocity = s.fundingVelocity)
  | decided {e : FundingEvent} {p : FundingDecision} (find : s.fundingEvents.find? e.id = some e)
      (status : e.status = .requested)
      (events : s'.fundingEvents = s.fundingEvents.replace (e.decide p))
      (velocity : s'.fundingVelocity = s.fundingVelocity)
  | posted {p : FundingPost} {ids : FundingPostIds} (h : PostedFunding p ids s s')

/-- An event that is requested has the status of a request. -/
theorem requestedFunding?_status {p : FundingRequest} {policy : FundingPolicy} {id clearing : Uuid}
    {e : FundingEvent} (h : requestedFunding? p policy id clearing = some e) :
    e.status = .requested := by
  unfold requestedFunding? at h
  split_ifs at h
  cases h
  rfl

section Step

variable {d : Digest} {c : Call} {s s' : Db}

/-- A returning call requests, decides or posts a funding event, or leaves the events alone. -/
theorem Effect.fundingStep (h : Effect d c s s') : FundingStep s s' := by
  by_cases hc : c.Funds
  -- A call that is no funding command leaves both tables alone.
  case neg => exact .same (h.untouched.fundingEvents hc) (h.untouched.fundingVelocity hc)
  cases h with
  | none => exact .same rfl rfl
  | @requestedFunding _ _ _ _ s₁ _ _ _ e cleared row events frame =>
    -- Creating the clearing account touches neither table.
    have hcleared : s₁.fundingEvents = s.fundingEvents ∧
        s₁.fundingVelocity = s.fundingVelocity := by
      rcases cleared with rfl | hc
      · exact ⟨rfl, rfl⟩
      · rw [hc.frame]
        exact ⟨rfl, rfl⟩
    rw [hcleared.1] at events
    refine .requested events (requestedFunding?_status row) ?_
    rw [frame]
    exact hcleared.2
  | requestedCompensation _ _ _ _ _ events frame => exact .requested events rfl (by rw [frame])
  | decidedFunding find requested events frame =>
    exact .decided ((Table.key_of_find? find).symm ▸ find) requested events (by rw [frame])
  | postedFunding h => exact .posted h
  | _ => exact False.elim hc

end Step

/-! ## What counts towards a limit -/

/-- The event has been posted: it stays so when it is compensated later. -/
def FundingEvent.Posted (e : FundingEvent) : Prop := e.status = .posted ∨ e.status = .compensated

/-- Whether an event has been posted can be decided. -/
instance (e : FundingEvent) : Decidable e.Posted := inferInstanceAs (Decidable (_ ∨ _))

/-- The event counts towards the limit of a tenant and a currency, or towards that of one requester
in it: it has been posted, and it is not a compensation. -/
def FundingEvent.CountsFor (e : FundingEvent) (tenant : Uuid) (currency : String)
    (requester : Option String) : Prop :=
  e.tenantId = tenant ∧ e.currency = currency ∧ e.compensationOfEventId = none ∧ e.Posted ∧
    ∀ a, requester = some a → e.requesterSubjectId = a

/-- Whether an event counts towards a limit can be decided. -/
instance FundingEvent.decidableCountsFor (e : FundingEvent) (t : Uuid) (cur : String)
    (r : Option String) : Decidable (e.CountsFor t cur r) :=
  inferInstanceAs (Decidable (_ ∧ _ ∧ _ ∧ _ ∧ ∀ _, _))

/-- What an event adds to a rolling total. -/
def FundingEvent.weight (tenant : Uuid) (currency : String) (requester : Option String)
    (e : FundingEvent) : ℤ :=
  if e.CountsFor tenant currency requester then e.amount else 0

/-- The time of the posting; every event that counts has one. -/
def FundingEvent.time (e : FundingEvent) : Instant := e.postedAt.getD 0

/-- What the funding posted in the 24 hours up to `T` adds up to, of all requesters or of one. -/
def Db.fundingWindow (s : Db) (tenant : Uuid) (currency : String) (requester : Option String)
    (T : Instant) : ℤ :=
  s.fundingEvents.window FundingEvent.time (FundingEvent.weight tenant currency requester) day T

/-- The limit of a tenant, or of one requester. -/
def FundingPolicy.rollingLimit (policy : FundingPolicy) : Option String → ℤ
  | none => policy.tenantRolling24h
  | some _ => policy.operatorRolling24h

/-- No event counts below zero. -/
theorem FundingEvent.weight_nonneg (tenant : Uuid) (currency : String) (requester : Option String)
    (e : FundingEvent) : 0 ≤ e.weight tenant currency requester := by
  unfold FundingEvent.weight
  split_ifs
  · exact e.amount_pos.le
  · exact le_refl 0

/-- An event that has not been posted does not count. -/
theorem FundingEvent.weight_of_unposted {e : FundingEvent} (h : ¬e.Posted) (tenant : Uuid)
    (currency : String) (requester : Option String) : e.weight tenant currency requester = 0 :=
  if_neg fun hc => h hc.2.2.2.1

/-- A compensation does not count. -/
theorem FundingEvent.weight_of_compensation {e : FundingEvent} (h : e.compensationOfEventId ≠ none)
    (tenant : Uuid) (currency : String) (requester : Option String) :
    e.weight tenant currency requester = 0 :=
  if_neg fun hc => h hc.2.2.1

/-- The velocity row of a posted event. -/
structure FundingVelocity.Of (v : FundingVelocity) (e : FundingEvent) : Prop where
  tenantId : v.tenantId = e.tenantId
  actorSubjectId : v.actorSubjectId = e.requesterSubjectId
  amount : v.amount = e.amount
  postedAt : e.postedAt = some v.occurredAt
  expiresAt : v.expiresAt = v.occurredAt + day

/-- Every posted event that is not a compensation has its velocity row, and velocity rows are
positive. -/
structure FundingCounted (s : Db) : Prop where
  velocity : ∀ e ∈ s.fundingEvents, e.compensationOfEventId = none → e.Posted →
    ∃ v, s.fundingVelocity.find? e.id = some v ∧ v.Of e
  positive : ∀ v ∈ s.fundingVelocity, 0 < (v.amount : ℤ)

section Limits

variable {d : Digest} {c : Call} {s s' : Db} {tenant : Uuid} {currency : String}
  {policy : FundingPolicy}

/-- The events after a posting, with the events before it: the posted event is new in its state,
and a compensation has marked its original. -/
theorem PostedFunding.mem_events {p : FundingPost} {ids : FundingPostIds}
    (h : PostedFunding p ids s s') {x : FundingEvent} (hx : x ∈ s'.fundingEvents) :
    x ∈ s.fundingEvents ∨ x = h.event.post ids.journal p.idempotencyKey p.now ∨
      ∃ o, (o ∈ s.fundingEvents ∨ o = h.event.post ids.journal p.idempotencyKey p.now) ∧
        o.status = .posted ∧ h.event.compensationOfEventId = some o.id ∧
        x = o.compensate p.fundingEventId p.now := by
  rcases hof : h.event.compensationOfEventId with _ | original
  · rw [(h.closed.counted hof).2] at hx
    rcases Table.mem_replace hx with rfl | ⟨hold, -⟩
    · exact .inr (.inl rfl)
    · exact .inl hold
  · obtain ⟨o, ho, -, hstatus, -, hevents⟩ := h.closed.marked original hof
    rw [hevents] at hx
    rcases Table.mem_replace hx with rfl | ⟨hold, -⟩
    · refine .inr (.inr ⟨o, ?_, hstatus, by rw [Table.key_of_find? ho], rfl⟩)
      rcases Table.mem_replace (Table.mem_of_find? ho) with rfl | ⟨hold, -⟩
      · exact .inr rfl
      · exact .inl hold
    · rcases Table.mem_replace hold with rfl | ⟨hold, -⟩
      · exact .inr (.inl rfl)
      · exact .inl hold

/-- A step keeps the velocity rows in step with the posted events. -/
theorem FundingStep.counted (h : FundingStep s s') (hs : FundingCounted s) : FundingCounted s' := by
  cases h with
  | same events velocity => exact ⟨by rw [events, velocity]; exact hs.velocity,
      by rw [velocity]; exact hs.positive⟩
  | requested events status velocity =>
    refine ⟨fun x hx horiginal hposted => ?_, by rw [velocity]; exact hs.positive⟩
    rw [velocity]
    rcases (Table.mem_insert? events).mp hx with rfl | hold
    · rcases hposted with h | h <;> cases status.symm.trans h
    · exact hs.velocity x hold horiginal hposted
  | decided find status events velocity =>
    refine ⟨fun x hx horiginal hposted => ?_, by rw [velocity]; exact hs.positive⟩
    rw [velocity]
    rw [events] at hx
    rcases Table.mem_replace hx with rfl | ⟨hold, -⟩
    · unfold FundingEvent.Posted FundingEvent.decide at hposted
      split_ifs at hposted <;> simp at hposted
    · exact hs.velocity x hold horiginal hposted
  | @posted p ids h =>
    have hkey := Table.key_of_find? h.event_find
    -- A row that was there stays, and a compensation adds none.
    have hkept : ∀ i v, s.fundingVelocity.find? i = some v →
        s'.fundingVelocity.find? i = some v := by
      intro i v hv
      rcases hof : h.event.compensationOfEventId with _ | original
      · exact Table.find?_insert?_of_some (h.closed.counted hof).1 hv
      · obtain ⟨_, -, -, -, hvelocity, -⟩ := h.closed.marked original hof
        rw [hvelocity, hv]
    constructor
    · intro x hx horiginal hposted
      rcases h.mem_events hx with hold | rfl | ⟨o, ho, hstatus, hof, rfl⟩
      · obtain ⟨v, hv, hvof⟩ := hs.velocity x hold horiginal hposted
        exact ⟨v, hkept _ v hv, hvof⟩
      · have hins := (h.closed.counted horiginal).1
        exact ⟨_, Table.find?_insert?_self hins hkey.symm, h.event_tenant.symm, rfl, rfl, rfl, rfl⟩
      · rcases ho with ho | rfl
        · obtain ⟨v, hv, hvof⟩ := hs.velocity o ho horiginal (.inl hstatus)
          exact ⟨v, hkept _ v hv, hvof.tenantId, hvof.actorSubjectId, hvof.amount, hvof.postedAt,
            hvof.expiresAt⟩
        · cases horiginal.symm.trans hof
    · intro v hv
      rcases hof : h.event.compensationOfEventId with _ | original
      · rcases (Table.mem_insert? (h.closed.counted hof).1).mp hv with rfl | hold
        · exact h.event.amount_pos
        · exact hs.positive v hold
      · obtain ⟨_, -, -, -, hvelocity, -⟩ := h.closed.marked original hof
        rw [hvelocity] at hv
        exact hs.positive v hv

/-- The events less than 24 hours older than a posting, and all later ones, weigh no more than what
the posting checks. -/
theorem FundingCounted.since_le (hs : FundingCounted s) (requester : Option String)
    (now : Instant) :
    s.fundingEvents.since FundingEvent.time (FundingEvent.weight tenant currency requester)
      (now - day) ≤ s.fundingRolling tenant now requester := by
  -- Each event of the sum has its own row in the velocity table, of the same amount.
  refine Table.total_le_of_key (fun v hv => ?_) fun e he hne => ?_
  · split_ifs
    · exact (hs.positive v hv).le
    · exact le_refl 0
  -- Events of an earlier time weigh nothing.
  · by_cases hlater : now - day < e.time
    swap
    · exact absurd (if_neg hlater) hne
    rw [if_pos hlater] at hne ⊢
    by_cases hcounts : e.CountsFor tenant currency requester
    swap
    · exact absurd (if_neg hcounts) hne
    have ⟨htenant, _, horiginal, hposted, hrequester⟩ := hcounts
    obtain ⟨v, hv, hof⟩ := hs.velocity e he horiginal hposted
    have htime : e.time = v.occurredAt := by rw [FundingEvent.time, hof.postedAt, Option.getD_some]
    refine ⟨v, hv, ?_⟩
    rw [FundingEvent.weight, if_pos hcounts, if_pos, hof.amount]
    refine ⟨hof.tenantId.trans htenant, ?_, fun a ha => hof.actorSubjectId.trans (hrequester a ha)⟩
    rw [hof.expiresAt, ← htime]
    linarith

/-- What the limits of a requester or of all of them leave for an event. -/
theorem PostedFunding.room {p : FundingPost} {ids : FundingPostIds} (h : PostedFunding p ids s s')
    (horiginal : h.event.compensationOfEventId = none) (requester : Option String)
    (hrequester : ∀ a, requester = some a → h.event.requesterSubjectId = a) :
    s.fundingRolling p.tenantId p.now requester + h.event.amount ≤
      h.policy.rollingLimit requester := by
  obtain ⟨hoperator, htenant⟩ := h.limits horiginal
  rcases requester with _ | a
  · rw [FundingPolicy.rollingLimit]
    omega
  · rw [← hrequester a rfl, FundingPolicy.rollingLimit]
    omega

/-- Posting an event keeps every window within the limit of its policy. -/
theorem PostedFunding.window_le {p : FundingPost} {ids : FundingPostIds}
    (h : PostedFunding p ids s s') (hcounted : FundingCounted s)
    (hpolicy : s.settings.fundingPolicies.find? (tenant, currency) = some policy)
    {requester : Option String} (hlimit : ∀ T, s.fundingWindow tenant currency requester T ≤
      policy.rollingLimit requester) :
    ∀ T, s'.fundingWindow tenant currency requester T ≤ policy.rollingLimit requester := by
  have hkey := Table.key_of_find? h.event_find
  have hfind : s.fundingEvents.find? (h.event.post ids.journal p.idempotencyKey p.now).id =
      some h.event := by
    rw [show (h.event.post ids.journal p.idempotencyKey p.now).id = p.fundingEventId from hkey]
    exact h.event_find
  -- The event counts for nothing before its posting.
  have hunposted : ¬h.event.Posted := by
    rintro (hstatus | hstatus) <;> cases h.event_status.symm.trans hstatus
  have hzero := FundingEvent.weight_of_unposted hunposted tenant currency requester
  rcases hof : h.event.compensationOfEventId with _ | original
  · -- The event starts to count.
    intro T
    unfold Db.fundingWindow
    rw [(h.closed.counted hof).2]
    refine Table.window_replace hfind hzero (fun x _ => x.weight_nonneg _ _ _) (fun hne => ?_)
      hlimit T
    by_cases hcounts : (h.event.post ids.journal p.idempotencyKey p.now).CountsFor tenant currency
        requester
    swap
    · exact absurd (if_neg hcounts) hne
    have ⟨htenant, hcurrency, _, _, hrequester⟩ := hcounts
    have htenant' : p.tenantId = tenant := h.event_tenant.symm.trans htenant
    have hsame : h.policy = policy := by
      have hfound := h.policy_find
      rw [htenant', show h.event.currency = currency from hcurrency, hpolicy] at hfound
      exact (Option.some.inj hfound).symm
    -- The posting compared the rolling sum with the limit of the same policy.
    have hroom := h.room hof requester hrequester
    rw [htenant', hsame] at hroom
    have hsince := @FundingCounted.since_le _ tenant currency hcounted requester p.now
    rw [FundingEvent.weight, if_pos hcounts]
    exact (add_le_add hsince (le_refl _)).trans hroom
  · -- A compensation does not count, and its original counts as before.
    intro T
    obtain ⟨o, ho, -, hstatus, -, hevents⟩ := h.closed.marked original hof
    have hkey' : o.id = original := Table.key_of_find? ho
    have ho' : (s.fundingEvents.replace (h.event.post ids.journal p.idempotencyKey p.now)).find?
        (o.compensate p.fundingEventId p.now).id = some o := by
      rw [show (o.compensate p.fundingEventId p.now).id = original from hkey']
      exact ho
    have hsame : (o.compensate p.fundingEventId p.now).weight tenant currency requester =
        o.weight tenant currency requester := by
      unfold FundingEvent.weight FundingEvent.CountsFor FundingEvent.Posted FundingEvent.compensate
      simp [hstatus]
    unfold Db.fundingWindow
    rw [hevents, Table.window_replace_of_eq ho' rfl hsame,
      Table.window_replace_of_zero hfind ?_ hzero]
    · exact hlimit T
    · exact FundingEvent.weight_of_compensation (by simp [FundingEvent.post, hof]) _ _ _

/-- The rolling limits of a tenant and a currency hold, and what keeps them so. -/
structure FundingWithin (tenant : Uuid) (currency : String) (policy : FundingPolicy) (s : Db) :
    Prop where
  counted : FundingCounted s
  policy_find : s.settings.fundingPolicies.find? (tenant, currency) = some policy
  window : ∀ requester T,
    s.fundingWindow tenant currency requester T ≤ policy.rollingLimit requester

/-- So does every step. -/
theorem FundingStep.window_le (h : FundingStep s s')
    (hs : FundingWithin tenant currency policy s) (requester : Option String) (T : Instant) :
    s'.fundingWindow tenant currency requester T ≤ policy.rollingLimit requester := by
  cases h with
  | same events _ =>
    rw [Db.fundingWindow, events]
    exact hs.window requester T
  | requested events status _ =>
    have hzero := FundingEvent.weight_of_unposted (e := _) (fun hposted : FundingEvent.Posted _ => by
      rcases hposted with h | h <;> cases status.symm.trans h) tenant currency requester
    -- A requested event weighs nothing.
    exact Table.window_insert? events (fun x _ => x.weight_nonneg _ _ _)
      (fun hne => absurd hzero hne) (hs.window requester) T
  | @decided e p find status events _ =>
    -- A decision changes nothing about the weight, which is zero before and after.
    have hzero : e.weight tenant currency requester = 0 :=
      FundingEvent.weight_of_unposted (by simp [FundingEvent.Posted, status]) _ _ _
    have hzero' : (e.decide p).weight tenant currency requester = 0 := by
      refine FundingEvent.weight_of_unposted ?_ _ _ _
      unfold FundingEvent.Posted FundingEvent.decide
      split_ifs <;> simp
    have hid : (e.decide p).id = e.id := by
      unfold FundingEvent.decide
      split_ifs <;> rfl
    rw [Db.fundingWindow, events, Table.window_replace_of_zero (hid ▸ find) hzero' hzero]
    exact hs.window requester T
  | posted h => exact h.window_le hs.counted hs.policy_find (hs.window requester) T

/-- A returning call keeps the windows within the limits of a policy that is not configured away. -/
theorem Effect.fundingWithin (h : Effect d c s s') (hs : FundingWithin tenant currency policy s)
    (hfixed : ∀ st, c = .configure st →
      st.fundingPolicies.find? (tenant, currency) = some policy) :
    FundingWithin tenant currency policy s' where
  counted := h.fundingStep.counted hs.counted
  policy_find := by
    rcases h.settings with hsame | hconfigured
    · rw [hsame]
      exact hs.policy_find
    · exact hfixed _ hconfigured
  window := h.fundingStep.window_le hs

/-- At first there are neither events nor velocity rows. -/
theorem Db.Provisioned.fundingCounted (h : s.Provisioned) : FundingCounted s where
  velocity e he := by
    rw [Table.mem_def, h.fundingEvents] at he
    cases he
  positive v hv := by
    rw [Table.mem_def, h.fundingVelocity] at hv
    cases hv

/-- At first nothing counts towards a limit. -/
theorem Db.Provisioned.fundingWithin (h : s.Provisioned)
    (hpolicy : s.settings.fundingPolicies.find? (tenant, currency) = some policy) :
    FundingWithin tenant currency policy s where
  counted := h.fundingCounted
  policy_find := hpolicy
  window requester T := by
    have hzero : s.fundingWindow tenant currency requester T = 0 := by
      unfold Db.fundingWindow Table.window Table.total
      rw [h.fundingEvents]
      rfl
    have hcommand := policy.perCommand_pos
    have hoperator := policy.perCommand_le
    have htenant := policy.operator_le
    rw [hzero]
    cases requester <;> simp only [FundingPolicy.rollingLimit] <;> omega

end Limits

/-- The rolling limits of a tenant and a currency whose funding policy is fixed hold after every
history of calls: whatever times the postings carry and in whatever order they are committed, the
funding posted in any 24 hours adds up to no more than the limit of the tenant, and that of each
requester to no more than the limit of an operator. -/
theorem funding_rolling_limit (d : Digest) (s : Db) (hs : s.Provisioned) (tenant : Uuid)
    (currency : String) (policy : FundingPolicy)
    (hpolicy : s.settings.fundingPolicies.find? (tenant, currency) = some policy) (cs : List Call)
    (hfixed : ∀ st, Call.configure st ∈ cs →
      st.fundingPolicies.find? (tenant, currency) = some policy) (T : Instant) :
    (run (exec d) cs s).fundingWindow tenant currency none T ≤ policy.tenantRolling24h ∧
      ∀ requester, (run (exec d) cs s).fundingWindow tenant currency (some requester) T ≤
        policy.operatorRolling24h := by
  have hwithin : FundingWithin tenant currency policy (run (exec d) cs s) := by
    refine run_prefix_invariant ?_ (hs.fundingWithin hpolicy) List.prefix_rfl
    rintro pre c post rfl _ s' hstep hwithin
    refine (exec_effect hstep).fundingWithin hwithin fun st hst => hfixed st ?_
    rw [hst]
    exact List.mem_append_right _ List.mem_cons_self
  exact ⟨hwithin.window none T, fun requester => hwithin.window (some requester) T⟩

namespace Sample

/-- A funding policy in the given mode: at most 500 at a time, 600 a day for an operator and 800 for
the tenant. -/
def fundingPolicy (mode : ControlMode) : FundingPolicy where
  tenantId := tenant
  currency := "INR"
  mode := mode
  financeActivated := true
  policyVersion := big 1
  perCommand := big 500
  operatorRolling24h := big 600
  tenantRolling24h := big 800
  perCommand_pos := by decide
  perCommand_le := policy.maximum_le_actor
  operator_le := by decide

/-- The settings with two members of finance and the funding policy. -/
def fundingSettings (mode : ControlMode) : Settings :=
  { settings with
    subjectRoles := [⟨tenant, "fiona", .finance⟩, ⟨tenant, "frank", .finance⟩]
    fundingPolicies := table [fundingPolicy mode] (List.nodup_singleton _) }

/-- The database with these settings. -/
def fundingDb (mode : ControlMode) : Db := { db with settings := fundingSettings mode }

/-- The fingerprint of a funding request of 300. -/
def fundingFingerprint : Bytes :=
  [93, 178, 22, 4, 92, 161, 2, 39, 13, 31, 205, 25, 17, 143, 46, 197, 117,
    169, 136, 190, 20, 223, 138, 109, 16, 50, 192, 214, 206, 122, 110, 179]

/-- The text of the funding request, with its digest. -/
def fundingText : String × Bytes :=
  ("\x00".intercalate ["00000000-0000-0000-0000-000000000001", "fiona",
    "00000000-0000-0000-0000-00000000000b", "INR", "300", "sample-wire-0001",
    "statement line 1"], fundingFingerprint)

/-- SHA-256 of the funding request that the cases use. -/
def fundingDigest : Digest := digestOf [fundingText]

/-- The session of a member of finance. -/
def financeSession (actor : String) : Session := ⟨tenant.text, actor, false⟩

/-- Fiona requests 300 for the destination. -/
def requestFunding : Call :=
  .requestFunding (financeSession "fiona")
    { tenant := tenant
      actor := "fiona"
      destination := destination
      currency := "INR"
      amount := big 300
      external := "sample-wire-0001"
      evidence := "statement line 1"
      key := "sample-funding-001"
      fingerprint := fundingFingerprint
      correlation := uuid 5
      requestedAt := hour 0 }
    ⟨⟨uuid 400, uuid 401, uuid 402⟩, uuid 403, uuid 404⟩

/-- The approval of the request by a member of finance. -/
def approveFunding (actor : String) (demo : Bool) : Call :=
  .decideFunding (financeSession actor)
    { tenant := tenant
      actor := actor
      event := uuid 400
      approve := true
      demo := demo
      reason := "evidence seen"
      correlation := uuid 5
      decidedAt := hour 1 }
    ⟨uuid 410, uuid 411, uuid 412⟩

/-- The posting of the request. -/
def postFunding : Call :=
  .postFunding (financeSession "frank")
    { tenantId := tenant
      actorSubjectId := "frank"
      fundingEventId := uuid 400
      idempotencyKey := "sample-fund-post-1"
      correlationId := uuid 5
      occurredAt := hour 2 }
    ⟨uuid 420, uuid 421, uuid 422, uuid 423, uuid 424⟩

end Sample

/-- A request that was approved by another member of finance and posted: it is in the window of its
time, and every window is within the limits. -/
theorem funding_rolling_limit_sample :
    (Sample.fundingDb .productionDualControl).Provisioned ∧
      (run (exec Sample.fundingDigest) [Sample.requestFunding, Sample.approveFunding "frank" false,
        Sample.postFunding] (Sample.fundingDb .productionDualControl)).fundingWindow Sample.tenant
        "INR" (some "fiona") (instant (Sample.hour 2)) = 300 ∧
      ∀ T, (run (exec Sample.fundingDigest) [Sample.requestFunding,
        Sample.approveFunding "frank" false, Sample.postFunding]
        (Sample.fundingDb .productionDualControl)).fundingWindow Sample.tenant "INR" none T ≤ 800 := by
  have hprovisioned := Sample.provisioned.configured
    (Sample.fundingSettings .productionDualControl)
  refine ⟨hprovisioned, by decide +kernel, fun T => ?_⟩
  refine (funding_rolling_limit Sample.fundingDigest (Sample.fundingDb .productionDualControl)
    hprovisioned Sample.tenant "INR" (Sample.fundingPolicy .productionDualControl) rfl _
    (fun st hst => ?_) T).1
  simp [Sample.requestFunding, Sample.approveFunding, Sample.postFunding] at hst

end LedgerSync
