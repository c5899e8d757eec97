import LedgerSync.OpeningImports

/-!
# The controlled commands as one system

Every call that the database accepts, what it can do to the tables, and the histories of calls. A
serializable database runs its transactions as if one after another, so a history is a list of
calls; a call that raises is rolled back (`run`).

`Effect` says once what each call can have done, and every invariant is proved by cases on it.
Where the tables of requests and approvals play no part, `Change` is the same with the calls that
only touch those tables grouped together.
-/

namespace LedgerSync

open Lib

/-- The calls, with their sessions, arguments, clock readings and drawn identifiers. The last two
stand for everything that operators change outside of the controlled commands: any settings, and
any status of any account. -/
inductive Call where
  | submitTransfer (sess : Session) (p : TransferRequest) (ids : TransferIds)
  | requestCorrection (sess : Session) (p : CorrectionRequest) (ids : EvidenceIds)
  | decideCorrection (sess : Session) (p : CorrectionDecisionRequest) (ids : EvidenceIds)
  | postCorrection (sess : Session) (p : CorrectionPost) (ids : CorrectionPostIds)
  | ensureFundingAccount (sess : Session) (tenant : Uuid) (actor currency : String)
      (correlation : Uuid) (now : Instant) (created audit : Uuid)
  | requestFunding (sess : Session) (p : FundingRequest) (ids : FundingRequestIds)
  | requestFundingCompensation (sess : Session) (p : CompensationRequest) (ids : EvidenceIds)
  | decideFunding (sess : Session) (p : FundingDecision) (ids : EvidenceIds)
  | postFunding (sess : Session) (p : FundingPost) (ids : FundingPostIds)
  | createHold (sess : Session) (p : HoldRequest) (clock : HoldClock) (id : Uuid) (ids : ChangeIds)
  | decideHold (sess : Session) (p : HoldDecisionRequest) (clock : DecisionClock)
      (ids : DecisionIds)
  | claimHoldExpiry (p : ExpiryClaim)
  | expireHold (sess : Session) (p : ExpiryRequest) (clock : ExpiryClock) (correlation : Uuid)
      (ids : ChangeIds)
  | executeOpeningImport (sess : Session) (p : ImportExecute) (ids : ImportIds)
  | configure (c : Settings)
  | setAccountStatus (account : Uuid) (status : AccountStatus)

/-- Any change of the settings. -/
def configure (c : Settings) : Proc Unit := do
  let s ← Txn.get
  Txn.set { s with settings := c }

/-- Any change of the status of an account. -/
def setAccountStatus (account : Uuid) (status : AccountStatus) : Proc Unit := do
  let s ← Txn.get
  Txn.set { s with accounts := s.accounts.update account fun a => { a with status := status } }

/-- A call as a transaction. -/
def exec (d : Digest) : Call → Proc Unit
  | .submitTransfer sess p ids => Txn.discard (controlledSubmitTransferV1 d sess p ids)
  | .requestCorrection sess p ids => Txn.discard (controlledRequestCorrectionV1 d sess p ids)
  | .decideCorrection sess p ids => Txn.discard (controlledDecideCorrectionV1 sess p ids)
  | .postCorrection sess p ids => Txn.discard (controlledPostTransferCorrectionV1 sess p ids)
  | .ensureFundingAccount sess t a cur c now created audit =>
    Txn.discard (controlledEnsureFundingAccountV1 sess t a cur c now created audit)
  | .requestFunding sess p ids => Txn.discard (controlledRequestFundingV1 d sess p ids)
  | .requestFundingCompensation sess p ids =>
    Txn.discard (controlledRequestFundingCompensationV1 d sess p ids)
  | .decideFunding sess p ids => Txn.discard (controlledDecideFundingV1 sess p ids)
  | .postFunding sess p ids => Txn.discard (controlledPostFundingV1 sess p ids)
  | .createHold sess p clock id ids => Txn.discard (controlledCreateHoldV1 d sess p clock id ids)
  | .decideHold sess p clock ids => Txn.discard (controlledDecideHoldV1 d sess p clock ids)
  | .claimHoldExpiry p => Txn.discard (controlledClaimHoldExpiryV1 p)
  | .expireHold sess p clock c ids => Txn.discard (controlledExpireHoldV1 sess p clock c ids)
  | .executeOpeningImport sess p ids =>
    Txn.discard (controlledExecuteOpeningImportV1 d sess p ids)
  | .configure c => configure c
  | .setAccountStatus account status => setAccountStatus account status

/-- What a returning call did to the database. -/
inductive Effect (d : Digest) : Call → Db → Db → Prop
  /-- A replay, a conflict, or a job that was done already. -/
  | none (c : Call) (s : Db) : Effect d c s s
  | rejectedTransfer {sess : Session} {p : TransferRequest} {ids : TransferIds} {s s' : Db}
      {body : Json} (guarded : Guarded d sess p s) (h : RejectedTransfer p ids s s' body) :
      Effect d (.submitTransfer sess p ids) s s'
  | postedTransfer {sess : Session} {p : TransferRequest} {ids : TransferIds} {s s' : Db}
      {body : Json} (guarded : Guarded d sess p s) (h : PostedTransfer p ids s s' body) :
      Effect d (.submitTransfer sess p ids) s s'
  | requestedCorrection {sess : Session} {p : CorrectionRequest} {ids : EvidenceIds} {s s' : Db}
      {original : Transfer} {policy : TransferPolicy}
      (original_find : s.transfers.find? p.original = some original)
      (original_tenant : original.tenantId = p.tenant)
      (corrections : s.corrections.insert? (requestedCorrection p policy ids.created) =
        some s'.corrections)
      (frame : s' = { s with
        corrections := s'.corrections, approvals := s'.approvals, audit := s'.audit })
      (original_status : original.status = .posted)
      (original_first : original.compensationOfTransferId = .none)
      (evidence : CorrectionEvidence s.approvals s'.approvals) :
      Effect d (.requestCorrection sess p ids) s s'
  | decidedCorrection {sess : Session} {p : CorrectionDecisionRequest} {ids : EvidenceIds}
      {s s' : Db} {c : Correction} {v : CorrectionVerdict}
      (find : s.corrections.find? p.correction = some c)
      (corrections : s'.corrections = s.corrections.replace (c.decide v (instant p.decidedAt)))
      (frame : s' = { s with
        corrections := s'.corrections, approvals := s'.approvals, audit := s'.audit })
      (pending : c.status = .requested ∨ c.status = .approved)
      (verdict : v.status ≠ .posted ∧ v.status ≠ .requested)
      (evidence : CorrectionEvidence s.approvals s'.approvals) :
      Effect d (.decideCorrection sess p ids) s s'
  | lapsedCorrection {sess : Session} {p : CorrectionPost} {ids : CorrectionPostIds} {s s' : Db}
      {c : Correction} (h : LapsedCorrection p s s' c) : Effect d (.postCorrection sess p ids) s s'
  | postedCorrection {sess : Session} {p : CorrectionPost} {ids : CorrectionPostIds} {s s' : Db}
      (h : PostedCorrection p ids s s') : Effect d (.postCorrection sess p ids) s s'
  | createdClearing {sess : Session} {t : Uuid} {a cur : String} {c : Uuid} {now : Instant}
      {created audit : Uuid} {s s' : Db} (h : ClearingCreated t created cur now s s') :
      Effect d (.ensureFundingAccount sess t a cur c now created audit) s s'
  | requestedFunding {sess : Session} {p : FundingRequest} {ids : FundingRequestIds}
      {s s₁ s' : Db} {policy : FundingPolicy} {clearing : Uuid} {e : FundingEvent}
      (cleared : s₁ = s ∨
        ClearingCreated p.tenant ids.clearing p.currency (instant p.requestedAt) s s₁)
      (row : requestedFunding? p policy ids.created clearing = some e)
      (events : s₁.fundingEvents.insert? e = some s'.fundingEvents)
      (frame : s' = { s₁ with
        fundingEvents := s'.fundingEvents, approvals := s'.approvals, audit := s'.audit })
      (unclashing : ¬∃ x ∈ s₁.fundingEvents.rows, e.Clashes x)
      (evidence : RequestEvidence s₁.approvals s'.approvals) :
      Effect d (.requestFunding sess p ids) s s'
  | requestedCompensation {sess : Session} {p : CompensationRequest} {ids : EvidenceIds} {s s' : Db}
      {o : FundingEvent} (find : s.fundingEvents.find? p.original = some o)
      (tenant : o.tenantId = p.tenant) (original : o.compensationOfEventId = .none)
      (posted : o.status = .posted)
      (unclashing : ¬∃ x ∈ s.fundingEvents.rows, (requestedCompensation p o ids.created).Clashes x)
      (events : s.fundingEvents.insert? (requestedCompensation p o ids.created) =
        some s'.fundingEvents)
      (frame : s' = { s with
        fundingEvents := s'.fundingEvents, approvals := s'.approvals, audit := s'.audit })
      (evidence : RequestEvidence s.approvals s'.approvals) :
      Effect d (.requestFundingCompensation sess p ids) s s'
  | decidedFunding {sess : Session} {p : FundingDecision} {ids : EvidenceIds} {s s' : Db}
      {e : FundingEvent} {policy : FundingPolicy}
      (find : s.fundingEvents.find? p.event = some e) (requested : e.status = .requested)
      (events : s'.fundingEvents = s.fundingEvents.replace (e.decide p))
      (frame : s' = { s with
        fundingEvents := s'.fundingEvents, approvals := s'.approvals, audit := s'.audit })
      (tenant : e.tenantId = p.tenant)
      (policy_find : s.settings.fundingPolicies.find? (p.tenant, e.currency) = some policy)
      (independent : p.approve = true → policy.mode = .productionDualControl →
        e.requesterSubjectId ≠ p.actor)
      (evidence : DecisionEvidence p e s.approvals s'.approvals) :
      Effect d (.decideFunding sess p ids) s s'
  | postedFunding {sess : Session} {p : FundingPost} {ids : FundingPostIds} {s s' : Db}
      (h : PostedFunding p ids s s') : Effect d (.postFunding sess p ids) s s'
  | createdHold {sess : Session} {p : HoldRequest} {clock : HoldClock} {id : Uuid}
      {ids : ChangeIds} {s s' : Db} (h : HoldCreated p clock id ids s s') :
      Effect d (.createHold sess p clock id ids) s s'
  | releasedHold {sess : Session} {p : HoldDecisionRequest} {clock : DecisionClock}
      {ids : DecisionIds} {s s' : Db} (h : HoldReturned p.target p.tenant .released
        (instant clock.now) (instant clock.now) ids.change clock.change s s') :
      Effect d (.decideHold sess p clock ids) s s'
  | capturedHold {sess : Session} {p : HoldDecisionRequest} {clock : DecisionClock}
      {ids : DecisionIds} {s s' : Db} (h : HoldCaptured d p clock ids s s') :
      Effect d (.decideHold sess p clock ids) s s'
  | deniedCapture {sess : Session} {p : HoldDecisionRequest} {clock : DecisionClock}
      {ids : DecisionIds} {s s' : Db}
      (frame : s' = { s with audit := s'.audit, holdCommands := s'.holdCommands }) :
      Effect d (.decideHold sess p clock ids) s s'
  | claimedExpiry {p : ExpiryClaim} {s s' : Db}
      (jobs : s'.holdJobs.rows = s.holdJobs.rows.map (fun j => if j.holdId ∈ p.selected s then
        j.claim p.owner (instant p.claimAt + p.leaseSeconds * 1000000) else j))
      (frame : s' = { s with holdJobs := s'.holdJobs }) : Effect d (.claimHoldExpiry p) s s'
  | expiredHold {sess : Session} {p : ExpiryRequest} {clock : ExpiryClock} {c : Uuid}
      {ids : ChangeIds} {s s' : Db} (h : HoldReturned p.target p.tenant .expired
        (instant clock.balance) (instant clock.completed) ids clock.change s s') :
      Effect d (.expireHold sess p clock c ids) s s'
  | importedOpenings {sess : Session} {p : ImportExecute} {ids : ImportIds} {s s' : Db}
      (h : OpeningImported p ids s s') : Effect d (.executeOpeningImport sess p ids) s s'
  | configured {c : Settings} {s : Db} : Effect d (.configure c) s { s with settings := c }
  | changedStatus {account : Uuid} {status : AccountStatus} {s : Db} :
      Effect d (.setAccountStatus account status) s
        { s with accounts := s.accounts.update account fun a => { a with status := status } }

/-- Every returning call had one of the effects. -/
theorem exec_effect {d : Digest} {c : Call} {s s' : Db} {u : Unit}
    (h : exec d c s = .ok (u, s')) : Effect d c s s' := by
  -- Every procedure has its lemma; what it leaves open is what its effect says.
  cases c with
  | submitTransfer sess p ids =>
    obtain ⟨⟨body, replayed⟩, h⟩ := Txn.discard_ok.mp h
    obtain ⟨hguard, ⟨-, rfl, -⟩ | ⟨-, ⟨⟨hrejected⟩⟩ | ⟨⟨hposted⟩⟩⟩⟩ :=
      controlledSubmitTransferV1_ok h
    · exact .none _ _
    · exact .rejectedTransfer hguard hrejected
    · exact .postedTransfer hguard hposted
  | requestCorrection sess p ids =>
    obtain ⟨r, h⟩ := Txn.discard_ok.mp h
    obtain rfl | ⟨original, policy, hfind, htenant, hposted, hnone, hins, hevidence, hframe⟩ :=
      controlledRequestCorrectionV1_ok h
    · exact .none _ _
    · exact .requestedCorrection hfind htenant hins hframe hposted hnone hevidence
  | decideCorrection sess p ids =>
    obtain ⟨r, h⟩ := Txn.discard_ok.mp h
    obtain rfl | ⟨c, v, hfind, -, hposted, hrequested, hpending, hc, hevidence, hframe⟩ :=
      controlledDecideCorrectionV1_ok h
    · exact .none _ _
    · exact .decidedCorrection hfind hc hframe hpending ⟨hposted, hrequested⟩ hevidence
  | postCorrection sess p ids =>
    obtain ⟨r, h⟩ := Txn.discard_ok.mp h
    obtain rfl | ⟨c, hlapsed⟩ | ⟨⟨hposted⟩⟩ := controlledPostTransferCorrectionV1_ok h
    · exact .none _ _
    · exact .lapsedCorrection hlapsed
    · exact .postedCorrection hposted
  | ensureFundingAccount sess t a cur c now created audit =>
    obtain ⟨r, h⟩ := Txn.discard_ok.mp h
    obtain rfl | hcreated := controlledEnsureFundingAccountV1_ok h
    · exact .none _ _
    · exact .createdClearing hcreated
  | requestFunding sess p ids =>
    obtain ⟨r, h⟩ := Txn.discard_ok.mp h
    obtain rfl | ⟨s₁, policy, clearing, e, hcleared, hrow, hclash, hins, hevidence, hframe⟩ :=
      controlledRequestFundingV1_ok h
    · exact .none _ _
    · exact .requestedFunding hcleared hrow hins hframe hclash hevidence
  | requestFundingCompensation sess p ids =>
    obtain ⟨r, h⟩ := Txn.discard_ok.mp h
    obtain rfl | ⟨o, hfind, htenant, horiginal, hposted, hclash, hins, hevidence, hframe⟩ :=
      controlledRequestFundingCompensationV1_ok h
    · exact .none _ _
    · exact .requestedCompensation hfind htenant horiginal hposted hclash hins hframe hevidence
  | decideFunding sess p ids =>
    obtain ⟨r, h⟩ := Txn.discard_ok.mp h
    obtain rfl | ⟨e, policy, hfind, htenant, hrequested, hpolicy, hindependent, hevents, hevidence,
        hframe⟩ := controlledDecideFundingV1_ok h
    · exact .none _ _
    · exact .decidedFunding hfind hrequested hevents hframe htenant hpolicy hindependent hevidence
  | postFunding sess p ids =>
    obtain ⟨r, h⟩ := Txn.discard_ok.mp h
    obtain rfl | ⟨⟨hposted⟩⟩ := controlledPostFundingV1_ok h
    · exact .none _ _
    · exact .postedFunding hposted
  | createHold sess p clock id ids =>
    obtain ⟨r, h⟩ := Txn.discard_ok.mp h
    obtain rfl | ⟨⟨hcreated⟩⟩ := controlledCreateHoldV1_ok h
    · exact .none _ _
    · exact .createdHold hcreated
  | decideHold sess p clock ids =>
    obtain ⟨r, h⟩ := Txn.discard_ok.mp h
    obtain rfl | ⟨⟨hreleased⟩⟩ | ⟨⟨hcaptured⟩⟩ | hframe := controlledDecideHoldV1_ok h
    · exact .none _ _
    · exact .releasedHold hreleased
    · exact .capturedHold hcaptured
    · exact .deniedCapture hframe
  | claimHoldExpiry p =>
    obtain ⟨r, h⟩ := Txn.discard_ok.mp h
    obtain ⟨-, hjobs, hframe⟩ := controlledClaimHoldExpiryV1_ok h
    exact .claimedExpiry hjobs hframe
  | expireHold sess p clock c ids =>
    obtain ⟨r, h⟩ := Txn.discard_ok.mp h
    obtain ⟨-, rfl | ⟨⟨hexpired⟩⟩⟩ := controlledExpireHoldV1_ok h
    · exact .none _ _
    · exact .expiredHold hexpired
  | executeOpeningImport sess p ids =>
    obtain ⟨r, h⟩ := Txn.discard_ok.mp h
    obtain rfl | ⟨⟨himported⟩⟩ := controlledExecuteOpeningImportV1_ok h
    · exact .none _ _
    · exact .importedOpenings himported
  | configure c =>
    -- The two settings calls write their one field.
    simp only [exec, configure, Txn.get_bind_ok, Txn.set_ok] at h
    subst h
    exact .configured
  | setAccountStatus account status =>
    simp only [exec, setAccountStatus, Txn.get_bind_ok, Txn.set_ok] at h
    subst h
    exact .changedStatus

/-- The settings change only where they are changed. -/
theorem Effect.settings {d : Digest} {c : Call} {s s' : Db} (h : Effect d c s s') :
    s'.settings = s.settings ∨ c = .configure s'.settings := by
  -- Only `configure` writes the settings.
  cases h with
  | none => exact .inl rfl
  | rejectedTransfer _ h => exact .inl (by rw [h.frame]; rfl)
  | postedTransfer _ h => exact .inl (by rw [h.frame])
  | requestedCorrection _ _ _ frame => exact .inl (by rw [frame])
  | decidedCorrection _ _ frame => exact .inl (by rw [frame])
  | lapsedCorrection h => exact .inl (by rw [h.frame])
  | postedCorrection h => exact .inl (by rw [h.frame])
  | createdClearing h => exact .inl (by rw [h.frame])
  | requestedFunding cleared _ _ frame =>
    rcases cleared with rfl | h
    · exact .inl (by rw [frame])
    · exact .inl (by rw [frame, h.frame])
  | requestedCompensation _ _ _ _ _ _ frame => exact .inl (by rw [frame])
  | decidedFunding _ _ _ frame => exact .inl (by rw [frame])
  | postedFunding h => exact .inl (by rw [h.frame])
  | createdHold h => exact .inl (by rw [h.frame])
  | releasedHold h => exact .inl (by rw [h.frame])
  | capturedHold h =>
    have hmid : s'.settings = h.mid.settings := (congrArg Db.settings h.frame :)
    have hbefore : h.mid.settings = s.settings := (congrArg Db.settings h.posted.frame :)
    exact .inl (hmid.trans hbefore)
  | deniedCapture frame => exact .inl (by rw [frame])
  | claimedExpiry _ frame => exact .inl (by rw [frame])
  | expiredHold h => exact .inl (by rw [h.frame])
  | importedOpenings h => exact .inl (by rw [h.frame])
  | configured => exact .inr rfl
  | changedStatus => exact .inl rfl

/-- The commands of funding. -/
def Call.Funds : Call → Prop
  | .requestFunding .. | .requestFundingCompensation .. | .decideFunding .. | .postFunding .. => True
  | _ => False

/-- The commands of corrections. -/
def Call.Corrects : Call → Prop
  | .requestCorrection .. | .decideCorrection .. | .postCorrection .. => True
  | _ => False

/-- What the calls leave alone that are neither commands of funding nor of corrections. -/
structure Untouched (c : Call) (s s' : Db) : Prop where
  fundingEvents : ¬c.Funds → s'.fundingEvents = s.fundingEvents
  fundingVelocity : ¬c.Funds → s'.fundingVelocity = s.fundingVelocity
  corrections : ¬c.Corrects → s'.corrections = s.corrections
  approvals : ¬c.Funds → ¬c.Corrects → s'.approvals = s.approvals

/-- A call that writes none of the four tables leaves them all alone. -/
theorem Untouched.of_eq {c : Call} {s s' : Db} (events : s'.fundingEvents = s.fundingEvents)
    (velocity : s'.fundingVelocity = s.fundingVelocity)
    (corrections : s'.corrections = s.corrections) (approvals : s'.approvals = s.approvals) :
    Untouched c s s' :=
  ⟨fun _ => events, fun _ => velocity, fun _ => corrections, fun _ _ => approvals⟩

/-- A command of funding leaves the corrections alone. -/
theorem Untouched.of_funds {c : Call} {s s' : Db} (hc : c.Funds)
    (corrections : s'.corrections = s.corrections) : Untouched c s s' :=
  ⟨absurd hc, absurd hc, fun _ => corrections, absurd hc⟩

/-- A command of corrections leaves the funding events alone. -/
theorem Untouched.of_corrects {c : Call} {s s' : Db} (hc : c.Corrects)
    (events : s'.fundingEvents = s.fundingEvents)
    (velocity : s'.fundingVelocity = s.fundingVelocity) : Untouched c s s' :=
  ⟨fun _ => events, fun _ => velocity, absurd hc, fun _ => absurd hc⟩

/-- A returning call leaves alone what it does not command: every invariant of the funding events
and of the corrections looks at their own commands only. -/
theorem Effect.untouched {d : Digest} {c : Call} {s s' : Db} (h : Effect d c s s') :
    Untouched c s s' := by
  cases h with
  | none => exact .of_eq rfl rfl rfl rfl
  | rejectedTransfer _ h => rw [h.frame]; exact .of_eq rfl rfl rfl rfl
  | postedTransfer _ h => rw [h.frame]; exact .of_eq rfl rfl rfl rfl
  | requestedCorrection _ _ _ frame => rw [frame]; exact .of_corrects trivial rfl rfl
  | decidedCorrection _ _ frame => rw [frame]; exact .of_corrects trivial rfl rfl
  | lapsedCorrection h => rw [h.frame]; exact .of_corrects trivial rfl rfl
  | postedCorrection h => rw [h.frame]; exact .of_corrects trivial rfl rfl
  | createdClearing h => rw [h.frame]; exact .of_eq rfl rfl rfl rfl
  | requestedFunding cleared _ _ frame =>
    rcases cleared with rfl | h
    · rw [frame]; exact .of_funds trivial rfl
    · rw [frame, h.frame]; exact .of_funds trivial rfl
  | requestedCompensation _ _ _ _ _ _ frame => rw [frame]; exact .of_funds trivial rfl
  | decidedFunding _ _ _ frame => rw [frame]; exact .of_funds trivial rfl
  | postedFunding h => rw [h.frame]; exact .of_funds trivial rfl
  | createdHold h => rw [h.frame]; exact .of_eq rfl rfl rfl rfl
  | releasedHold h => rw [h.frame]; exact .of_eq rfl rfl rfl rfl
  | capturedHold h =>
    -- The tables are those that the transfer of the capture leaves.
    exact .of_eq
      ((congrArg Db.fundingEvents h.frame :).trans (congrArg Db.fundingEvents h.posted.frame :))
      ((congrArg Db.fundingVelocity h.frame :).trans
        (congrArg Db.fundingVelocity h.posted.frame :))
      ((congrArg Db.corrections h.frame :).trans (congrArg Db.corrections h.posted.frame :))
      ((congrArg Db.approvals h.frame :).trans (congrArg Db.approvals h.posted.frame :))
  | deniedCapture frame => rw [frame]; exact .of_eq rfl rfl rfl rfl
  | claimedExpiry _ frame => rw [frame]; exact .of_eq rfl rfl rfl rfl
  | expiredHold h => rw [h.frame]; exact .of_eq rfl rfl rfl rfl
  | importedOpenings h => rw [h.frame]; exact .of_eq rfl rfl rfl rfl
  | configured => exact .of_eq rfl rfl rfl rfl
  | changedStatus => exact .of_eq rfl rfl rfl rfl

/-- What a returning call did to the stored requests: nothing, or it submitted or captured a
transfer. -/
inductive Requested (d : Digest) : Call → Db → Db → Prop
  | kept {c : Call} {s s' : Db} (requests : s'.idempotencyRequests = s.idempotencyRequests) :
      Requested d c s s'
  | rejected {sess : Session} {p : TransferRequest} {ids : TransferIds} {s s' : Db} {body : Json}
      (guarded : Guarded d sess p s) (h : RejectedTransfer p ids s s' body) :
      Requested d (.submitTransfer sess p ids) s s'
  | posted {sess : Session} {p : TransferRequest} {ids : TransferIds} {s s' : Db} {body : Json}
      (guarded : Guarded d sess p s) (h : PostedTransfer p ids s s' body) :
      Requested d (.submitTransfer sess p ids) s s'
  | captured {sess : Session} {p : HoldDecisionRequest} {clock : DecisionClock}
      {ids : DecisionIds} {s s' : Db} (h : HoldCaptured d p clock ids s s') :
      Requested d (.decideHold sess p clock ids) s s'

/-- A returning call stores a request for a transfer only. -/
theorem Effect.requested {d : Digest} {c : Call} {s s' : Db} (h : Effect d c s s') :
    Requested d c s s' := by
  -- Only the submissions and the captures write requests.
  cases h with
  | none => exact .kept rfl
  | rejectedTransfer guarded h => exact .rejected guarded h
  | postedTransfer guarded h => exact .posted guarded h
  | requestedCorrection _ _ _ frame => exact .kept (by rw [frame])
  | decidedCorrection _ _ frame => exact .kept (by rw [frame])
  | lapsedCorrection h => exact .kept (by rw [h.frame])
  | postedCorrection h => exact .kept (by rw [h.frame])
  | createdClearing h => exact .kept (by rw [h.frame])
  | requestedFunding cleared _ _ frame =>
    rcases cleared with rfl | h
    · exact .kept (by rw [frame])
    · exact .kept (by rw [frame, h.frame])
  | requestedCompensation _ _ _ _ _ _ frame => exact .kept (by rw [frame])
  | decidedFunding _ _ _ frame => exact .kept (by rw [frame])
  | postedFunding h => exact .kept (by rw [h.frame])
  | createdHold h => exact .kept (by rw [h.frame])
  | releasedHold h => exact .kept (by rw [h.frame])
  | capturedHold h => exact .captured h
  | deniedCapture frame => exact .kept (by rw [frame])
  | claimedExpiry _ frame => exact .kept (by rw [frame])
  | expiredHold h => exact .kept (by rw [h.frame])
  | importedOpenings h => exact .kept (by rw [h.frame])
  | configured => exact .kept rfl
  | changedStatus => exact .kept rfl

/-- What a returning call did to the tables other than those of requests, approvals, settings and
evidence. -/
inductive Change (d : Digest) (s : Db) : Db → Prop
  /-- Only settings, requests, approvals and evidence changed. -/
  | quiet {s' : Db} (frame : s' = { s with
      settings := s'.settings, corrections := s'.corrections, fundingEvents := s'.fundingEvents
      approvals := s'.approvals, audit := s'.audit, holdCommands := s'.holdCommands }) : Change d s s'
  | status (account : Uuid) (status : AccountStatus) : Change d s
      { s with accounts := s.accounts.update account fun a => { a with status := status } }
  | claimed {p : ExpiryClaim} {s' : Db}
      (jobs : s'.holdJobs.rows = s.holdJobs.rows.map (fun j => if j.holdId ∈ p.selected s then
        j.claim p.owner (instant p.claimAt + p.leaseSeconds * 1000000) else j))
      (frame : s' = { s with holdJobs := s'.holdJobs }) : Change d s s'
  | cleared {tenant created : Uuid} {currency : String} {now : Instant} {s₁ s' : Db}
      (h : ClearingCreated tenant created currency now s s₁)
      (frame : s' = { s₁ with
        fundingEvents := s'.fundingEvents, approvals := s'.approvals, audit := s'.audit }) :
      Change d s s'
  | rejected {p : TransferRequest} {ids : TransferIds} {body : Json} {s' : Db}
      (h : RejectedTransfer p ids s s' body) : Change d s s'
  | posted {p : TransferRequest} {ids : TransferIds} {body : Json} {s' : Db}
      (h : PostedTransfer p ids s s' body) : Change d s s'
  | corrected {p : CorrectionPost} {ids : CorrectionPostIds} {s' : Db}
      (h : PostedCorrection p ids s s') : Change d s s'
  | funded {p : FundingPost} {ids : FundingPostIds} {s' : Db} (h : PostedFunding p ids s s') :
      Change d s s'
  | reserved {p : HoldRequest} {clock : HoldClock} {id : Uuid} {ids : ChangeIds} {s' : Db}
      (h : HoldCreated p clock id ids s s') : Change d s s'
  | returned {target tenant : Uuid} {state : HoldState} {now completed : Instant} {ids : ChangeIds}
      {clock : ChangeClock} {s' : Db} (final : state = .released ∨ state = .expired)
      (h : HoldReturned target tenant state now completed ids clock s s') : Change d s s'
  | captured {p : HoldDecisionRequest} {clock : DecisionClock} {ids : DecisionIds} {s' : Db}
      (h : HoldCaptured d p clock ids s s') : Change d s s'
  | imported {p : ImportExecute} {ids : ImportIds} {s' : Db} (h : OpeningImported p ids s s') :
      Change d s s'

/-- An effect is a change. -/
theorem Effect.change {d : Digest} {c : Call} {s s' : Db} (h : Effect d c s s') :
    Change d s s' := by
  -- Several effects make the same change of the ledger.
  cases h with
  | none => exact .quiet rfl
  | rejectedTransfer _ h => exact .rejected h
  | postedTransfer _ h => exact .posted h
  | requestedCorrection _ _ _ frame => exact .quiet (by rw [frame])
  | decidedCorrection _ _ frame => exact .quiet (by rw [frame])
  | lapsedCorrection h => exact .quiet (by rw [h.frame])
  | postedCorrection h => exact .corrected h
  | createdClearing h => exact .cleared h rfl
  | requestedFunding cleared _ _ frame =>
    rcases cleared with rfl | h
    · exact .quiet (by rw [frame])
    · exact .cleared h frame
  | requestedCompensation _ _ _ _ _ _ frame => exact .quiet (by rw [frame])
  | decidedFunding _ _ _ frame => exact .quiet (by rw [frame])
  | postedFunding h => exact .funded h
  | createdHold h => exact .reserved h
  | releasedHold h => exact .returned (.inl rfl) h
  | capturedHold h => exact .captured h
  | deniedCapture frame => exact .quiet (by rw [frame])
  | claimedExpiry jobs frame => exact .claimed jobs frame
  | expiredHold h => exact .returned (.inr rfl) h
  | importedOpenings h => exact .imported h
  | configured => exact .quiet rfl
  | changedStatus => exact .status _ _

/-- A returning call changed the tables in one of these ways. -/
theorem exec_change {d : Digest} {c : Call} {s s' : Db} {u : Unit}
    (h : exec d c s = .ok (u, s')) : Change d s s' :=
  (exec_effect h).change

/-! ## A small database

Data for the concrete cases: one tenant with two customer accounts and one policy, as it is before
its first command, and the digests of the texts that the cases use. -/

namespace Sample

/-- A `bigint`. -/
def big (z : ℤ) (h : decide (-2 ^ 63 ≤ z ∧ z < 2 ^ 63) = true := by exact Eq.refl true) : Bigint :=
  ⟨z, of_decide_eq_true h⟩

/-- A clock reading on the first day of 1998, some hours after its start. -/
def hour (n : ℕ) (h : decide (n < 1000) = true := by exact Eq.refl true) : Timestamp :=
  ⟨63019209600000000 + n * 3600000000, by have := of_decide_eq_true h; omega⟩

/-- A table with the given rows. -/
def table {ρ κ : Type} [DecidableEq κ] {key : ρ → κ} (rows : List ρ)
    (h : (rows.map key).Nodup := by decide) : Table key :=
  ⟨rows, h⟩

/-- The tenant. -/
def tenant : Uuid := uuid 1

/-- The account that the cases debit. -/
def source : Uuid := uuid 10

/-- The account that the cases credit. -/
def destination : Uuid := uuid 11

/-- The operator, who owns the source. -/
def alice : String := "alice"

/-- A customer account. -/
def account (id : Uuid) : Account :=
  ⟨id, tenant, "INR", .active, .customer, id.text, by decide⟩

/-- A balance at its opening. -/
def balance (id : Uuid) (amount : Bigint)
    (h : decide (0 ≤ (amount : ℤ)) = true := by exact Eq.refl true) : Balance :=
  ⟨id, amount, amount, .zero, false, 0, Bigint.zero_nonneg, .inr (of_decide_eq_true h),
    .inr (of_decide_eq_true h)⟩

/-- The transfer policy: at most 500 at a time, and 600 a day for an actor or a source. -/
def policy : TransferPolicy where
  tenantId := tenant
  currency := "INR"
  minimumTransfer := big 1
  maximumTransfer := big 500
  actorRolling24h := big 600
  sourceAccountRolling24h := big 600
  tenantRolling24h := big 800
  policyVersion := big 1
  controlMode := .productionDualControl
  requiresStepUp := false
  approvalTtlMinutes := 60
  minimum_pos := by decide
  minimum_le := by decide
  maximum_le_actor := by decide
  maximum_le_source := by decide
  greatest_le_tenant := by decide

/-- The settings: the operator may debit the source and credit the destination. -/
def settings : Settings where
  tenants := [tenant]
  subjectRoles := [⟨tenant, alice, .operator⟩]
  accountOwners := [⟨tenant, source, alice, .debit⟩]
  creditPermissions := [⟨tenant, destination, alice⟩]
  transferPolicies := table [policy]
  fundingPolicies := .empty
  webhookEndpoints := .empty

/-- The database: the source opens with 5000. -/
def db : Db where
  settings := settings
  accounts := table [account source, account destination]
  balances := table [balance source (big 5000), balance destination .zero]
  openings := table [⟨source, big 5000⟩, ⟨destination, .zero⟩]
  idempotencyRequests := .empty
  transfers := .empty
  journals := .empty
  postings := .empty
  velocityEvents := .empty
  velocityTotals := .empty
  corrections := .empty
  fundingEvents := .empty
  fundingVelocity := .empty
  approvals := .empty
  outbox := .empty
  audit := .empty
  webhookJobs := .empty
  holds := .empty
  holdCommands := .empty
  holdEvents := .empty
  holdJobs := .empty
  importBatches := .empty
  importRows := .empty
  importApprovals := .empty
  importExecutions := .empty

/-- The session of the operator. -/
def session : Session := ⟨tenant.text, alice, false⟩

/-- The canonical text of a transfer of the given amount. -/
def canonical (amount : String) : String :=
  "00000000-0000-0000-0000-000000000001\nalice\ntransfers.create.v1\n" ++
    "00000000-0000-0000-0000-00000000000a\n00000000-0000-0000-0000-00000000000b\nINR\n" ++ amount

/-- The fingerprint of a transfer of 100. -/
def fingerprint100 : Bytes :=
  [207, 113, 109, 127, 9, 175, 253, 26, 176, 210, 15, 148, 253, 221, 212, 29, 156, 151, 33, 148,
    156, 155, 214, 112, 159, 228, 182, 117, 155, 231, 126, 119]

/-- The fingerprint of a transfer of 200. -/
def fingerprint200 : Bytes :=
  [213, 177, 53, 174, 205, 203, 18, 166, 0, 31, 34, 90, 52, 35, 55, 78, 112, 142, 56, 61, 113, 35,
    145, 167, 24, 31, 102, 98, 5, 11, 68, 111]

/-- The fingerprint of a transfer of 500. -/
def fingerprint500 : Bytes :=
  [202, 162, 85, 58, 144, 88, 95, 31, 147, 142, 161, 41, 200, 230, 40, 63, 218, 131, 199, 218, 88,
    131, 54, 253, 193, 244, 97, 84, 80, 201, 90, 219]

/-- SHA-256 of the texts that the cases use: three transfers, and the creation and the capture of a
hold of 200. -/
def digests : List (String × Bytes) :=
  [(canonical "100", fingerprint100), (canonical "200", fingerprint200),
    (canonical "500", fingerprint500),
    ("[\"00000000-0000-0000-0000-00000000000a\", \"00000000-0000-0000-0000-00000000000b\", " ++
        "\"200\", \"INR\", 600]",
      [3, 230, 155, 6, 101, 107, 171, 88, 93, 192, 189, 29, 173, 121, 30, 208, 236, 63, 143, 163,
        165, 171, 122, 230, 106, 125, 29, 134, 228, 141, 105, 41]),
    ("[\"00000000-0000-0000-0000-000000000032\", \"capture\"]",
      [115, 25, 105, 97, 160, 168, 28, 72, 52, 64, 77, 226, 225, 157, 212, 241, 228, 3, 148, 208,
        85, 247, 130, 102, 109, 64, 198, 206, 1, 225, 70, 239])]

/-- The digest function that is known on some texts. -/
def digestOf (known : List (String × Bytes)) : Digest where
  sha256 s := (List.range 32).map fun i => ((known.lookup s).getD []).getD i 0
  length_sha256 s := by rw [List.length_map, List.length_range]

/-- The digest function on these texts. -/
def digest : Digest := digestOf digests

/-- The numbers of the sample identifiers are in range. -/
theorem following_lt {n k : ℕ} (h : decide (n < 1000) = true) (hk : decide (k < 10) = true) :
    n + k < 2 ^ 128 := by
  have := of_decide_eq_true h
  have := of_decide_eq_true hk
  omega

/-- The `k`-th identifier from `n` on. -/
def following (n : ℕ) (h : decide (n < 1000) = true) (k : ℕ)
    (hk : decide (k < 10) = true := by exact Eq.refl true) : Uuid :=
  ⟨n + k, following_lt h hk⟩

/-- The identifiers of a transfer, numbered from `n`. -/
def ids (n : ℕ) (h : decide (n < 1000) = true := by exact Eq.refl true) : TransferIds where
  transfer := following n h 0
  journal := following n h 1
  debitPosting := following n h 2
  creditPosting := following n h 3
  audit := following n h 4
  sourceEvent := following n h 5
  destinationEvent := following n h 6
  transferEvent := following n h 7
  webhookJob _ := following n h 8

/-- A transfer from the source to the destination. -/
def request (amount : Bigint) (fingerprint : Bytes) (key : String) (now : Timestamp) :
    TransferRequest where
  tenantId := tenant
  actorSubjectId := alice
  debitAccountId := source
  creditAccountId := destination
  amount := amount
  currency := "INR"
  idempotencyKey := key
  requestFingerprint := fingerprint
  correlationId := uuid 5
  pilotCurrency := "INR"
  occurredAt := now

/-- A transfer of 100. -/
def transferRequest : TransferRequest :=
  request (big 100) fingerprint100 "sample-transfer-01" (hour 0)

/-- The call that submits it. -/
def transfer : Call := .submitTransfer session transferRequest (ids 100)

end Sample

end LedgerSync
