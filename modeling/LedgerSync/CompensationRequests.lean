import LedgerSync.Documents
import LedgerSync.FundingLifecycle

/-!
# Requests for the compensation of funding

A compensation is stored as one more funding event, and its external reference is made from the
identifier of its original. External references are unique in a tenant, and those of ordinary
requests are chosen by their callers; so a member of finance who asks for new funding under the
reference `compensation:<id>` blocks the compensation of that event for good
(`compensation_blocked`). Nothing else does (`compensation_requestable`).
-/

namespace LedgerSync

open Lib

/-- The external reference of the compensation of an event. -/
def compensationReference (original : Uuid) : String := "compensation:" ++ original.text

/-- The references of compensations are known by their originals. -/
theorem compensationReference_inj {x y : Uuid}
    (h : compensationReference x = compensationReference y) : x = y := by
  have hlist := congrArg String.toList h
  unfold compensationReference at hlist
  rw [String.toList_append, String.toList_append] at hlist
  exact Uuid.text_inj.mp (String.toList_inj.mp (List.append_cancel_left hlist))

/-! ## Where references come from -/

/-- The call asks for funding of a tenant under an external reference. -/
def Call.Requests (c : Call) (tenant : Uuid) (reference : String) : Prop :=
  ∃ sess p ids, c = .requestFunding sess p ids ∧ p.tenant = tenant ∧ p.external = reference

/-- An event as the calls of a history leave it: an ordinary one has the reference of a request, a
compensation has the reference that is made for it, and only a compensated event names its
compensation. `asked` says which references have been requested. -/
structure FundingEvent.Traced (asked : Uuid → String → Prop) (e : FundingEvent) : Prop where
  reference : (e.compensationOfEventId = none ∧ asked e.tenantId e.externalReference) ∨
    ∃ o, e.compensationOfEventId = some o ∧ e.externalReference = compensationReference o
  uncompensated : e.status ≠ .compensated → e.compensationEventId = none

section Step

variable {d : Digest} {c : Call} {s s' : Db} {asked : Uuid → String → Prop} {e : FundingEvent}

/-- A decision keeps an event traced. -/
theorem FundingEvent.Traced.decide (h : e.Traced asked) (hstatus : e.status = .requested)
    (p : FundingDecision) : (e.decide p).Traced asked := by
  have hopen : e.compensationEventId = none := h.uncompensated (by simp [hstatus])
  unfold FundingEvent.decide
  split_ifs <;> exact ⟨h.reference, fun _ => hopen⟩

/-- A posting keeps an event traced. -/
theorem FundingEvent.Traced.post (h : e.Traced asked) (hstatus : e.status = .approved)
    (journal : Uuid) (key : String) (now : Instant) : (e.post journal key now).Traced asked :=
  ⟨h.reference, fun _ => h.uncompensated (by simp [hstatus])⟩

/-- A compensation keeps its original traced. -/
theorem FundingEvent.Traced.compensate (h : e.Traced asked) (compensation : Uuid)
    (now : Instant) : (e.compensate compensation now).Traced asked :=
  ⟨h.reference, fun hne => absurd rfl hne⟩

/-- What is left of a request is traced to it. -/
theorem requestedFunding?_traced {p : FundingRequest} {policy : FundingPolicy} {id clearing : Uuid}
    (h : requestedFunding? p policy id clearing = some e) (hasked : asked p.tenant p.external) :
    e.Traced asked := by
  unfold requestedFunding? at h
  split_ifs at h
  cases h
  exact ⟨.inl ⟨rfl, hasked⟩, fun _ => rfl⟩

/-- The events after a posting are traced when those before it are. -/
theorem PostedFunding.traced {p : FundingPost} {ids : FundingPostIds} (h : PostedFunding p ids s s')
    (hs : ∀ e ∈ s.fundingEvents, e.Traced asked) : ∀ e ∈ s'.fundingEvents, e.Traced asked := by
  have hposted : (h.event.post ids.journal p.idempotencyKey p.now).Traced asked :=
    (hs h.event (Table.mem_of_find? h.event_find)).post h.event_status _ _ _
  intro x hx
  rcases h.mem_events hx with hold | rfl | ⟨o, ho | rfl, -, -, rfl⟩
  · exact hs x hold
  · exact hposted
  · exact (hs o ho).compensate _ _
  · exact hposted.compensate _ _

/-- A call keeps all events traced, when its own request counts as asked. -/
theorem Effect.traced (h : Effect d c s s') (hcall : ∀ t x, c.Requests t x → asked t x)
    (hs : ∀ e ∈ s.fundingEvents, e.Traced asked) : ∀ e ∈ s'.fundingEvents, e.Traced asked := by
  by_cases hc : c.Funds
  case neg =>
    -- Only the funding calls write events.
    rw [h.untouched.fundingEvents hc]
    exact hs
  have hinsert : ∀ {e₀ : FundingEvent}, s.fundingEvents.insert? e₀ = some s'.fundingEvents →
      e₀.Traced asked → ∀ e ∈ s'.fundingEvents, e.Traced asked := by
    intro e₀ hins htraced e he
    rcases (Table.mem_insert? hins).mp he with rfl | hold
    · exact htraced
    · exact hs e hold
  cases h with
  | none => exact hs
  | @requestedFunding _ _ _ _ s₁ _ _ _ e₀ cleared row events =>
    -- The clearing account is created without touching the events.
    have hcleared : s₁.fundingEvents = s.fundingEvents := by
      rcases cleared with rfl | hc
      · rfl
      · rw [hc.frame]
    rw [hcleared] at events
    exact hinsert events (requestedFunding?_traced row (hcall _ _ ⟨_, _, _, rfl, rfl, rfl⟩))
  | requestedCompensation _ _ _ _ _ events =>
    exact hinsert events ⟨.inr ⟨_, rfl, rfl⟩, fun _ => rfl⟩
  | decidedFunding find requested events =>
    intro x hx
    rw [events] at hx
    rcases Table.mem_replace hx with rfl | ⟨hold, -⟩
    · exact (hs _ (Table.mem_of_find? find)).decide requested _
    · exact hs x hold
  | postedFunding h => exact h.traced hs
  | _ => exact False.elim hc

end Step

/-- After a history the events are traced to its requests. -/
theorem run_traced (d : Digest) {s : Db} (hs : s.Provisioned) (cs : List Call) :
    ∀ e ∈ (run (exec d) cs s).fundingEvents, e.Traced fun t x => ∃ c ∈ cs, c.Requests t x := by
  refine run_prefix_invariant (I := fun s : Db => ∀ e ∈ s.fundingEvents,
    e.Traced fun t x => ∃ c ∈ cs, c.Requests t x) ?_ ?_ List.prefix_rfl
  · intro pre c post hcs _ s' hstep htraced
    refine (exec_effect hstep).traced (fun t x hreq => ⟨c, ?_, hreq⟩) htraced
    rw [hcs]
    exact List.mem_append_right _ List.mem_cons_self
  · intro e he
    rw [Table.mem_def, hs.fundingEvents] at he
    cases he

/-! ## The request -/

/-- A request that a member of finance makes properly, with a new key and newly drawn
identifiers. -/
structure CompensationRequest.Proper (d : Digest) (sess : Session) (p : CompensationRequest)
    (ids : EvidenceIds) (s : Db) : Prop where
  caller : s.Caller sess p.tenant p.actor [.finance]
  wellFormed : p.WellFormed d
  key : ∀ e ∈ s.fundingEvents, e.tenantId = p.tenant → e.requesterSubjectId = p.actor →
    e.idempotencyKey ≠ p.key
  created : s.fundingEvents.find? ids.created = none
  untargeted : ∀ a ∈ s.approvals, a.targetId ≠ ids.created
  approval : s.approvals.find? ids.approval = none
  audit : s.audit.find? ids.audit = none

/-- A posted event of a tenant that is not a compensation, that nobody has asked to compensate, and
whose currency has an active policy. -/
structure Db.Compensable (s : Db) (tenant : Uuid) (o : FundingEvent) : Prop where
  tenantId : o.tenantId = tenant
  posted : o.status = .posted
  original : o.compensationOfEventId = none
  unasked : ∀ e ∈ s.fundingEvents, e.compensationOfEventId ≠ some o.id
  policy : ∃ q, s.settings.fundingPolicies.find? (tenant, o.currency) = some q ∧
    (q.mode = .localDemoSingleOperator ∨ q.financeActivated = true)

/-- The reference is taken by an ordinary event of the tenant. -/
def Db.ReferenceTaken (s : Db) (tenant : Uuid) (reference : String) : Prop :=
  ∃ e ∈ s.fundingEvents, e.tenantId = tenant ∧ e.compensationOfEventId = none ∧
    e.externalReference = reference

/-- Whether a request is proper can be decided. -/
instance (d : Digest) (sess : Session) (p : CompensationRequest) (ids : EvidenceIds) (s : Db) :
    Decidable (p.Proper d sess ids s) :=
  decidable_of_iff (s.Caller sess p.tenant p.actor [.finance] ∧ p.WellFormed d ∧
    (∀ e ∈ s.fundingEvents.rows, e.tenantId = p.tenant → e.requesterSubjectId = p.actor →
      e.idempotencyKey ≠ p.key) ∧ s.fundingEvents.find? ids.created = none ∧
    (∀ a ∈ s.approvals.rows, a.targetId ≠ ids.created) ∧ s.approvals.find? ids.approval = none ∧
    s.audit.find? ids.audit = none)
    ⟨fun ⟨h₁, h₂, h₃, h₄, h₅, h₆, h₇⟩ => ⟨h₁, h₂, h₃, h₄, h₅, h₆, h₇⟩,
      fun h => ⟨h.1, h.2, h.3, h.4, h.5, h.6, h.7⟩⟩

/-- Whether an event can be compensated can be decided. -/
instance (s : Db) (tenant : Uuid) (o : FundingEvent) :
    Decidable (s.Compensable tenant o) :=
  decidable_of_iff (o.tenantId = tenant ∧ o.status = .posted ∧ o.compensationOfEventId = none ∧
    (∀ e ∈ s.fundingEvents.rows, e.compensationOfEventId ≠ some o.id) ∧
    ∃ q, s.settings.fundingPolicies.find? (tenant, o.currency) = some q ∧
      (q.mode = .localDemoSingleOperator ∨ q.financeActivated = true))
    ⟨fun ⟨h₁, h₂, h₃, h₄, h₅⟩ => ⟨h₁, h₂, h₃, h₄, h₅⟩, fun h => ⟨h.1, h.2, h.3, h.4, h.5⟩⟩

section Request

variable {d : Digest} {sess : Session} {p : CompensationRequest} {ids : EvidenceIds} {s : Db}

/-- The evidence of a new event is recorded when its identifiers are new. -/
theorem recordFundingRequest_of_fresh {e : FundingEvent} {type : CommandType} {eventType : String}
    (hscope : sess.Allows e.tenantId) (hactor : e.requesterSubjectId = sess.actorId)
    (hevent : IsAuditName true 128 eventType) (huntargeted : ∀ a ∈ s.approvals, a.targetId ≠ e.id)
    (hfresh : s.approvals.find? ids.approval = none) (haudit : s.audit.find? ids.audit = none) :
    ∃ s', recordFundingRequest sess e type eventType ids s = .ok ((), s') := by
  refine Txn.exists_bind (insertApproval_of_fresh huntargeted hfresh) fun s₁ hs₁ => ?_
  -- The approval leaves the audit log alone.
  have haudit' : s₁.audit.find? ids.audit = none := by
    rw [hs₁]
    exact haudit
  -- Both entries of the audit record are plain.
  have hevent_id : PlainEntry "funding_event_id" e.id.text := .uuid (by decide) (by decide) e.id
  have hterms : PlainEntry "terminology" "recorded external value evidence" :=
    ⟨by decide, by decide, by decide, by decide⟩
  have hplain : ∀ x ∈ [("funding_event_id", e.id.text),
      ("terminology", "recorded external value evidence")], PlainEntry x.1 x.2 := by
    intro x hx
    simp only [List.mem_cons, List.not_mem_nil, or_false] at hx
    rcases hx with rfl | rfl
    · exact hevent_id
    · exact hterms
  refine (controlledAppendAuditV1_of_acceptable [("funding_event_id", e.id.text),
    ("terminology", "recorded external value evidence")] ?_ haudit').imp fun _ h => h.1
  have htype : IsAuditName false 64 "funding_event" := by decide
  have houtcome : "succeeded" ∈ ["allowed", "denied", "succeeded", "failed"] := by decide
  exact ⟨hscope, congrArg some hactor, hevent, htype, ⟨e.id, rfl⟩, houtcome, rfl, hplain, by simp⟩

/-- The new event shares its key, its reference or its original with another one only through the
reference. -/
theorem requestedCompensation_clashes {asked : Uuid → String → Prop} {o : FundingEvent}
    (hp : p.Proper d sess ids s) (hfind : s.fundingEvents.find? p.original = some o)
    (ho : s.Compensable p.tenant o) (htraced : ∀ e ∈ s.fundingEvents, e.Traced asked) :
    (∃ x ∈ s.fundingEvents.rows, (requestedCompensation p o ids.created).Clashes x) ↔
      s.ReferenceTaken p.tenant (compensationReference p.original) := by
  have hid : o.id = p.original := Table.key_of_find? hfind
  constructor
  · rintro ⟨x, hx, ⟨htenant, hrequester, hkey⟩ | ⟨htenant, href⟩ | ⟨-, hof⟩⟩
    · exact absurd hkey.symm (hp.key x hx htenant.symm hrequester.symm)
    · rcases (htraced x hx).reference with ⟨hnone, -⟩ | ⟨i, hi, hix⟩
      · exact ⟨x, hx, htenant.symm, hnone, href.symm⟩
      · -- The reference of another compensation names another original.
        have hsame : p.original = i := compensationReference_inj (href.trans hix)
        rw [← hsame, ← hid] at hi
        exact absurd hi (ho.unasked x hx)
    · rw [show (requestedCompensation p o ids.created).compensationOfEventId =
        some p.original from rfl, ← hid] at hof
      exact absurd hof.symm (ho.unasked x hx)
  · rintro ⟨x, hx, htenant, -, href⟩
    exact ⟨x, hx, .inr (.inl ⟨htenant.symm, href.symm⟩)⟩

/-- A proper request for an event that can be compensated goes as far as its insert. -/
theorem compensation_ok_iff {asked : Uuid → String → Prop} {o : FundingEvent}
    (hp : p.Proper d sess ids s) (hfind : s.fundingEvents.find? p.original = some o)
    (ho : s.Compensable p.tenant o) (htraced : ∀ e ∈ s.fundingEvents, e.Traced asked) :
    (∃ s', controlledRequestFundingCompensationV1 d sess p ids s = .ok ((ids.created, false), s')) ↔
      ¬s.ReferenceTaken p.tenant (compensationReference p.original) := by
  -- The key was not used before, so that the request is no replay.
  have hnew : s.fundingEvents.rows.find? (fun e => e.tenantId = p.tenant ∧
      e.requesterSubjectId = p.actor ∧ e.idempotencyKey = p.key) = none := by
    rw [List.find?_eq_none]
    intro e he hbad
    obtain ⟨htenant, hrequester, hkey⟩ := of_decide_eq_true hbad
    exact hp.key e he htenant hrequester hkey
  -- A posted original is not compensated yet.
  have hopen : o.compensationEventId = none :=
    (htraced o (Table.mem_of_find? hfind)).uncompensated (by simp [ho.posted])
  rw [← requestedCompensation_clashes hp hfind ho htraced]
  simp only [controlledRequestFundingCompensationV1, Txn.get_bind_ok, Txn.raiseIf_bind_ok, hnew,
    createCompensation, insertFundingEvent, Txn.bind_assoc, Txn.orRaise_bind_ok,
    insertRow_bind_ok, Option.filter_eq_some_iff, decide_eq_true_eq, not_not]
  constructor
  -- A successful request has passed the check for a clash.
  · rintro ⟨s', -, -, o', ⟨ho', -⟩, -, -, hclash, -⟩
    obtain rfl := Option.some.inj (hfind.symm.trans ho')
    exact hclash
  -- Conversely every other step of the request succeeds.
  · intro hclash
    have hcreated : s.fundingEvents.find? (requestedCompensation p o ids.created).id = none :=
      hp.created
    obtain ⟨t, ht⟩ := Table.exists_insert? hcreated
    have hrecord : ∃ s', recordFundingRequest sess (requestedCompensation p o ids.created)
        .fundingCompensation "funding.compensation.requested" ids { s with fundingEvents := t } =
          .ok ((), s') :=
      recordFundingRequest_of_fresh hp.caller.1 hp.caller.2.1 (by decide) hp.untargeted hp.approval
        hp.audit
    obtain ⟨s', hs'⟩ := hrecord
    refine ⟨s', hp.caller, hp.wellFormed, o, ⟨hfind, ho.tenantId, ho.original⟩, ?_, ho.policy,
      hclash, t, ht, ?_⟩
    · simp [ho.posted, hopen]
    · rw [Txn.bind_of_ok hs']
      rfl

end Request

/-- After every history, a proper request for the compensation of a posted event that nobody has
asked to compensate succeeds exactly when no ordinary event of the tenant has the reference
`compensation:<id>`; and it succeeds when no call of the history asked for funding under it. -/
theorem compensation_requestable (d : Digest) (s₀ : Db) (hs : s₀.Provisioned) (cs : List Call)
    (sess : Session) (p : CompensationRequest) (ids : EvidenceIds) (o : FundingEvent)
    (hp : p.Proper d sess ids (run (exec d) cs s₀))
    (hfind : (run (exec d) cs s₀).fundingEvents.find? p.original = some o)
    (ho : (run (exec d) cs s₀).Compensable p.tenant o) :
    ((∃ s', controlledRequestFundingCompensationV1 d sess p ids (run (exec d) cs s₀) =
        .ok ((ids.created, false), s')) ↔
      ¬(run (exec d) cs s₀).ReferenceTaken p.tenant (compensationReference p.original)) ∧
    ((∀ c ∈ cs, ¬c.Requests p.tenant (compensationReference p.original)) →
      ∃ s', controlledRequestFundingCompensationV1 d sess p ids (run (exec d) cs s₀) =
        .ok ((ids.created, false), s')) := by
  have htraced := run_traced d hs cs
  have hiff := compensation_ok_iff hp hfind ho htraced
  refine ⟨hiff, fun hcalls => hiff.mpr ?_⟩
  rintro ⟨e, he, htenant, hnone, href⟩
  rcases (htraced e he).reference with ⟨-, c, hc, hreq⟩ | ⟨i, hi, -⟩
  · rw [htenant, href] at hreq
    exact hcalls c hc hreq
  · rw [hnone] at hi
    cases hi

namespace Sample

/-- SHA-256 of the texts of three funding requests: that of 300, the compensation of it, and another
request whose reference is that of the compensation. -/
def compensationDigest : Digest :=
  digestOf [fundingText,
    ("\x00".intercalate ["00000000-0000-0000-0000-000000000001", "fiona",
        "00000000-0000-0000-0000-000000000190", "duplicate", "posted twice"],
      [209, 155, 120, 149, 241, 231, 56, 73, 141, 159, 116, 246, 182, 161, 45, 65, 21, 243, 69, 77,
        24, 78, 73, 247, 248, 63, 121, 92, 49, 87, 195, 189]),
    ("\x00".intercalate ["00000000-0000-0000-0000-000000000001", "frank",
        "00000000-0000-0000-0000-00000000000b", "INR", "5",
        "compensation:00000000-0000-0000-0000-000000000190", "statement line 2"],
      [48, 94, 171, 169, 255, 252, 116, 240, 166, 84, 232, 143, 31, 209, 247, 238, 187, 233, 172,
        97, 134, 68, 181, 253, 117, 132, 19, 131, 151, 13, 174, 38])]

/-- Frank requests 5 under the reference of the compensation of the posted event. -/
def occupyReference : Call :=
  .requestFunding (financeSession "frank")
    { tenant := tenant
      actor := "frank"
      destination := destination
      currency := "INR"
      amount := big 5
      external := compensationReference (uuid 400)
      evidence := "statement line 2"
      key := "sample-funding-002"
      fingerprint := [48, 94, 171, 169, 255, 252, 116, 240, 166, 84, 232, 143, 31, 209, 247, 238,
        187, 233, 172, 97, 134, 68, 181, 253, 117, 132, 19, 131, 151, 13, 174, 38]
      correlation := uuid 5
      requestedAt := hour 3 }
    ⟨⟨uuid 430, uuid 431, uuid 432⟩, uuid 433, uuid 434⟩

/-- Fiona asks to compensate the posted event. -/
def compensation : CompensationRequest where
  tenant := tenant
  actor := "fiona"
  original := uuid 400
  reason := "duplicate"
  note := "posted twice"
  key := "sample-compensate-1"
  fingerprint := [209, 155, 120, 149, 241, 231, 56, 73, 141, 159, 116, 246, 182, 161, 45, 65, 21,
    243, 69, 77, 24, 78, 73, 247, 248, 63, 121, 92, 49, 87, 195, 189]
  correlation := uuid 5
  requestedAt := hour 4

/-- The identifiers that her request draws. -/
def compensationIds : EvidenceIds := ⟨uuid 440, uuid 441, uuid 442⟩

/-- The database after a request for 300 was approved and posted, and after further calls. -/
def funded (cs : List Call) : Db :=
  run (exec compensationDigest) ([requestFunding, approveFunding "frank" false, postFunding] ++ cs)
    (fundingDb .productionDualControl)

/-- The posted event can be compensated, as far as it goes by its own fields, both before and after
the reference of the compensation is taken; after that the request is refused. -/
theorem funded_facts :
    (compensation.Proper compensationDigest (financeSession "fiona") compensationIds (funded []) ∧
      ((funded []).fundingEvents.find? compensation.original).any
        (fun o => (funded []).Compensable tenant o) = true) ∧
    (compensation.Proper compensationDigest (financeSession "fiona") compensationIds
        (funded [occupyReference]) ∧
      ((funded [occupyReference]).fundingEvents.find? compensation.original).any
        (fun o => (funded [occupyReference]).Compensable tenant o) = true) ∧
    (match controlledRequestFundingCompensationV1 compensationDigest (financeSession "fiona")
        compensation compensationIds (funded [occupyReference]) with
      | .ok _ => false
      | .error _ => true) = true := by
  decide +kernel

end Sample

/-- After a request for 300 was approved and posted, it can be compensated. -/
theorem compensation_requestable_sample :
    (Sample.fundingDb .productionDualControl).Provisioned ∧
      ∃ s', controlledRequestFundingCompensationV1 Sample.compensationDigest
        (Sample.financeSession "fiona") Sample.compensation Sample.compensationIds
        (Sample.funded []) = .ok ((Sample.compensationIds.created, false), s') := by
  have hprovisioned := Sample.provisioned.configured
    (Sample.fundingSettings .productionDualControl)
  obtain ⟨hready, -⟩ := Sample.funded_facts
  obtain ⟨o, hfind, ho⟩ := (Option.any_eq_true _ _).mp hready.2
  refine ⟨hprovisioned, (compensation_requestable Sample.compensationDigest
    (Sample.fundingDb .productionDualControl) hprovisioned
    ([Sample.requestFunding, Sample.approveFunding "frank" false, Sample.postFunding] ++ [])
    (Sample.financeSession "fiona") Sample.compensation Sample.compensationIds o hready.1 hfind
    (of_decide_eq_true ho)).2 ?_⟩
  -- The only request of the history has a reference of its own.
  rintro c hc ⟨sess, p, ids, rfl, -, href⟩
  simp only [List.append_nil, List.mem_cons, List.not_mem_nil, or_false, Sample.requestFunding,
    Sample.approveFunding, Sample.postFunding, Call.requestFunding.injEq, reduceCtorEq] at hc
  obtain ⟨-, rfl, -⟩ := hc
  revert href
  decide +kernel

/-- Frank asks for 5 under the reference of the compensation. From then on the posted event cannot
be compensated, although nobody has asked for it before. -/
theorem compensation_blocked :
    (Sample.fundingDb .productionDualControl).Provisioned ∧
      Sample.compensation.Proper Sample.compensationDigest (Sample.financeSession "fiona")
        Sample.compensationIds (Sample.funded [Sample.occupyReference]) ∧
      (∃ o, (Sample.funded [Sample.occupyReference]).fundingEvents.find?
          Sample.compensation.original = some o ∧
        (Sample.funded [Sample.occupyReference]).Compensable Sample.tenant o) ∧
      ¬∃ r s', controlledRequestFundingCompensationV1 Sample.compensationDigest
        (Sample.financeSession "fiona") Sample.compensation Sample.compensationIds
        (Sample.funded [Sample.occupyReference]) = .ok (r, s') := by
  obtain ⟨-, ⟨hproper, hposted⟩, hraised⟩ := Sample.funded_facts
  obtain ⟨o, hfind, ho⟩ := (Option.any_eq_true _ _).mp hposted
  refine ⟨Sample.provisioned.configured (Sample.fundingSettings .productionDualControl), hproper,
    ⟨o, hfind, of_decide_eq_true ho⟩, ?_⟩
  rintro ⟨r, s', hok⟩
  rw [hok] at hraised
  cases hraised

end LedgerSync
