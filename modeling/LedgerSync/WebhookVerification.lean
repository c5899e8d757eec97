import LedgerSync.WebhookEndpoints

/-!
# The life of a webhook endpoint

A call changes at most one endpoint, and only in one of the ways of `EndpointRow.Step`, each with
one event (`WebhookEffect`). From this, over every history: the status moves forward only, every
version above the first has its event, and an endpoint is activated once, before its challenge is
over (`exists_registration`).

A claim takes jobs from the queue before it looks at their endpoints. A job whose endpoint the API
has verified or disabled stays in the queue, so a claim may take it in the place of a job of a
pending endpoint (`JobClaim.Wastes`); it returns as many jobs as it can exactly when it does not.
-/

namespace LedgerSync

open Lib

/-! ## What a call does -/

/-- The change of an endpoint. An endpoint is activated before its challenge is over, as the
endpoint or one of its jobs has it. -/
inductive EndpointRow.Step (jobs : Table VerificationJob.id) (e : EndpointRow) : EndpointRow → Prop
  | activate (now : Instant) (hstatus : e.status = .pendingVerification)
      (htime : (∃ x, e.challengeExpiresAt = some x ∧ now < x) ∨
        ∃ j ∈ jobs, j.webhookId = e.id ∧ now < j.expiresAt) : Step jobs e (e.activate now)
  | rotate (reference keyId : String) (now : Instant) (hstatus : e.status = .active) :
      Step jobs e (e.rotate reference keyId now)
  | disable (now : Instant) (hstatus : e.status ≠ .disabled) : Step jobs e (e.disable now)

/-- No job is new, and none has another endpoint or another end of its challenge. -/
def JobsKept (t t' : Table VerificationJob.id) : Prop :=
  ∀ j' ∈ t', ∃ j ∈ t, j'.webhookId = j.webhookId ∧ j'.expiresAt = j.expiresAt

/-- The jobs are kept when nothing happens. -/
theorem JobsKept.refl (t : Table VerificationJob.id) : JobsKept t t := fun j hj => ⟨j, hj, rfl, rfl⟩

/-- A job that is written over keeps its endpoint and the end of its challenge. -/
theorem JobsKept.replace {t : Table VerificationJob.id} {j j' : VerificationJob} (hj : j ∈ t)
    (hwebhook : j'.webhookId = j.webhookId) (hexpires : j'.expiresAt = j.expiresAt) :
    JobsKept t (t.replace j') := by
  intro x hx
  rcases Table.mem_replace hx with rfl | ⟨hmem, -⟩
  · exact ⟨j, hj, hwebhook, hexpires⟩
  · exact ⟨x, hmem, rfl, rfl⟩

/-- What a call does to the endpoints, their events and their jobs; `r` is the registration that the
call is, if it is one. -/
inductive WebhookEffect (r : Option RegisterWebhookCommand) (s s' : WebhookDb) : Prop
  | kept (hendpoints : s'.endpoints = s.endpoints) (hevents : s'.events = s.events)
      (hjobs : JobsKept s.jobs s'.jobs)
  | registered (c : RegisterWebhookCommand) (hr : r = some c) (t : Table EndpointEvent.id)
      (hendpoints : s.endpoints.insert? c.row = some s'.endpoints)
      (hevent : s.events.insert? (c.event c.registeredEventId .registered) = some t)
      (hevents : t.insert? (c.event c.scheduledEventId .verificationScheduled) = some s'.events)
      (hjobs : s.jobs.insert? c.job = some s'.jobs)
  | changed (e e' : EndpointRow) (x : EndpointEvent) (he : s.endpoints.find? e.id = some e)
      (hstep : e.Step s.jobs e') (hendpoints : s'.endpoints = s.endpoints.replace e')
      (hwebhook : x.webhookId = e.id) (hversion : x.version = e'.version)
      (hevents : s.events.insert? x = some s'.events) (hjobs : JobsKept s.jobs s'.jobs)

variable {r : Option RegisterWebhookCommand} {s s' : WebhookDb}

/-- The stored commands do not matter to the effect. -/
theorem WebhookEffect.commands {t t' : Table WebhookCommandRow.key}
    (h : WebhookEffect r { s with commands := t } s') :
    WebhookEffect r s { s' with commands := t' } := by
  cases h with
  | kept hendpoints hevents hjobs => exact .kept hendpoints hevents hjobs
  | registered c hr t hendpoints hevent hevents hjobs =>
    exact .registered c hr t hendpoints hevent hevents hjobs
  | changed e e' x he hstep hendpoints hwebhook hversion hevents hjobs =>
    exact .changed e e' x he hstep hendpoints hwebhook hversion hevents hjobs

/-- An event that is inserted is a new row, and nothing else changes. -/
theorem insertWebhookEvent_ok {x : EndpointEvent} {u : Unit}
    (h : insertWebhookEvent x s = .ok (u, s')) :
    ∃ t, s.events.insert? x = some t ∧ s' = { s with events := t } := by
  simp only [insertWebhookEvent, Txn.get_bind_ok, Txn.raiseIf_bind_ok, Txn.orRaise_bind_ok,
    Txn.set_ok] at h
  obtain ⟨-, t, ht, rfl⟩ := h
  exact ⟨t, ht, rfl⟩

/-- A command writes its own row, and does what its action does. -/
theorem webhookCommand_effect {k : WebhookKey} {operation : WebhookOperation}
    {action : WebhookProc Webhook} {x : WebhookSubmission}
    (haction : ∀ s₁ w s₂, action s₁ = .ok (w, s₂) → WebhookEffect r s₁ s₂)
    (h : webhookCommand k operation action s = .ok (x, s')) : WebhookEffect r s s' := by
  simp only [webhookCommand, Txn.raiseIf_bind_ok, Txn.get_bind_ok] at h
  obtain ⟨-, -, hrest⟩ := h
  obtain ⟨stored, s₁, hreserve, hrest⟩ := Txn.bind_ok.mp hrest
  simp only [reserveWebhookCommand, Txn.raiseIf_bind_ok, Txn.get_bind_ok] at hreserve
  obtain ⟨-, hreserve⟩ := hreserve
  -- A free key runs the action and stores its answer; a taken one answers what is stored.
  rcases hfind : s.commands.find? (k.tenant, k.actor, operation, k.key) with _ | row
  · rw [hfind] at hreserve
    simp only [Txn.orRaise_bind_ok, Txn.set_bind_ok, Txn.pure_ok] at hreserve
    obtain ⟨t, -, rfl, rfl⟩ := hreserve
    obtain ⟨w, s₂, hw, hcomplete⟩ := Txn.bind_ok.mp hrest
    simp only [completeWebhookCommand, Txn.bind_ok, Txn.get_ok, Txn.orRaise_ok, Txn.set_ok,
      Txn.pure_ok] at hcomplete
    obtain ⟨_, _, ⟨_, _, ⟨rfl, rfl⟩, row, _, ⟨-, rfl⟩, rfl⟩, -, rfl⟩ := hcomplete
    exact (haction _ _ _ hw).commands
  · rw [hfind] at hreserve
    simp only [Txn.raiseIf_bind_ok, Txn.orRaise_bind_ok, Txn.pure_ok] at hreserve
    obtain ⟨-, w, -, rfl, rfl⟩ := hreserve
    obtain ⟨-, rfl⟩ := Txn.pure_ok.mp hrest
    exact .kept rfl rfl (.refl _)

/-- A registration adds its endpoint, or does nothing. -/
theorem registerWebhook_effect {c : RegisterWebhookCommand} {x : WebhookSubmission}
    (h : registerWebhook c s = .ok (x, s')) : WebhookEffect (some c) s s' := by
  refine webhookCommand_effect (fun s₁ w s₂ haction => ?_) h
  obtain ⟨_, s₃, hendpoint, haction⟩ := Txn.bind_ok.mp haction
  simp only [RegisterWebhookCommand.insertEndpoint, Txn.get_bind_ok, Txn.raiseIf_bind_ok,
    Txn.orRaise_bind_ok, Txn.set_ok] at hendpoint
  obtain ⟨-, -, endpoints, hinsert, rfl⟩ := hendpoint
  obtain ⟨_, s₄, hevent, haction⟩ := Txn.bind_ok.mp haction
  obtain ⟨t, ht, rfl⟩ := insertWebhookEvent_ok hevent
  obtain ⟨_, s₅, hjob, haction⟩ := Txn.bind_ok.mp haction
  simp only [RegisterWebhookCommand.insertJob, Txn.get_bind_ok, Txn.raiseIf_bind_ok,
    Txn.orRaise_bind_ok, Txn.set_ok] at hjob
  obtain ⟨-, -, jobs, hjobs, rfl⟩ := hjob
  obtain ⟨_, s₆, hscheduled, haction⟩ := Txn.bind_ok.mp haction
  obtain ⟨t', ht', rfl⟩ := insertWebhookEvent_ok hscheduled
  obtain ⟨-, rfl⟩ := Txn.pure_ok.mp haction
  exact .registered c rfl t hinsert ht ht' hjobs

/-- Locking an endpoint finds it and changes nothing. -/
theorem lockWebhook_ok {tenant webhook : Uuid} {e : EndpointRow}
    (h : lockWebhook tenant webhook s = .ok (e, s')) :
    s' = s ∧ s.endpoints.find? webhook = some e := by
  simp only [lockWebhook, Txn.get_bind_ok, Txn.orRaise_bind_ok, Txn.raiseIf_bind_ok,
    Txn.pure_ok] at h
  obtain ⟨x, hx, -, rfl, rfl⟩ := h
  exact ⟨rfl, (Option.filter_eq_some_iff.mp hx).1⟩

/-- A change by the API is a step of the endpoint with its event. -/
theorem updateEndpoint_effect {c : EndpointCommand} {e e' : EndpointRow} {action : EndpointAction}
    {w : Webhook} (he : s.endpoints.find? c.webhookId = some e) (hstep : e.Step s.jobs e')
    (h : updateEndpoint c e' action s = .ok (w, s')) : WebhookEffect r s s' := by
  have hid : e.id = c.webhookId := Table.key_of_find? he
  simp only [updateEndpoint, Txn.raiseIf_bind_ok, Txn.get_bind_ok, Txn.set_bind_ok] at h
  obtain ⟨-, hrest⟩ := h
  obtain ⟨_, s₁, hevent, hrest⟩ := Txn.bind_ok.mp hrest
  obtain ⟨t, ht, rfl⟩ := insertWebhookEvent_ok hevent
  obtain ⟨-, rfl⟩ := Txn.pure_ok.mp hrest
  exact .changed e e' _ (by rw [hid, he]) hstep rfl hid.symm rfl ht (.refl _)

/-- A request for verification has one of the effects. -/
theorem verifyWebhook_effect {c : EndpointCommand} {challengeDigest : Bytes} {x : WebhookSubmission}
    (h : verifyWebhook c challengeDigest s = .ok (x, s')) : WebhookEffect r s s' := by
  refine webhookCommand_effect (fun s₁ w s₂ haction => ?_) h
  obtain ⟨e, s₃, hlock, hchecks⟩ := Txn.bind_ok.mp haction
  obtain ⟨rfl, he⟩ := lockWebhook_ok hlock
  simp only [Txn.raiseIf_bind_ok, not_or, not_not] at hchecks
  obtain ⟨⟨hstatus, htime, -⟩, -, hupdate⟩ := hchecks
  exact updateEndpoint_effect he (.activate c.now hstatus (.inl htime)) hupdate

/-- A rotation has one of the effects. -/
theorem rotateWebhook_effect {c : EndpointCommand} {reference keyId : String} {x : WebhookSubmission}
    (h : rotateWebhook c reference keyId s = .ok (x, s')) : WebhookEffect r s s' := by
  refine webhookCommand_effect (fun s₁ w s₂ haction => ?_) h
  obtain ⟨e, s₃, hlock, hchecks⟩ := Txn.bind_ok.mp haction
  obtain ⟨rfl, he⟩ := lockWebhook_ok hlock
  simp only [Txn.raiseIf_bind_ok, not_not] at hchecks
  obtain ⟨hstatus, -, hupdate⟩ := hchecks
  exact updateEndpoint_effect he (.rotate reference keyId c.now hstatus) hupdate

/-- Disabling an endpoint has one of the effects. -/
theorem disableWebhook_effect {c : EndpointCommand} {x : WebhookSubmission}
    (h : disableWebhook c s = .ok (x, s')) : WebhookEffect r s s' := by
  refine webhookCommand_effect (fun s₁ w s₂ haction => ?_) h
  obtain ⟨e, s₃, hlock, hchecks⟩ := Txn.bind_ok.mp haction
  obtain ⟨rfl, he⟩ := lockWebhook_ok hlock
  simp only [Txn.raiseIf_bind_ok] at hchecks
  obtain ⟨hstatus, -, hupdate⟩ := hchecks
  exact updateEndpoint_effect he (.disable c.now hstatus) hupdate

/-- A claim that returns wrote only the claims, and returned the taken jobs whose endpoint is
pending. -/
theorem claimVerification_ok {p : JobClaim} {claimed : List ClaimedVerification}
    (h : controlledClaimWebhookVerificationV1 p s = .ok (claimed, s')) :
    claimed = (p.candidates s).filterMap (fun j =>
        (s.pendingEndpoint? j).map fun e => (j.claim p).claimed e) ∧
      s'.endpoints = s.endpoints ∧ s'.events = s.events ∧ JobsKept s.jobs s'.jobs := by
  simp only [controlledClaimWebhookVerificationV1, Txn.raiseIf_bind_ok, Txn.get_bind_ok,
    Txn.set_bind_ok, Txn.pure_ok] at h
  obtain ⟨-, -, rfl, rfl⟩ := h
  refine ⟨rfl, rfl, rfl, fun j' hj' => ?_⟩
  obtain ⟨j, hj, rfl⟩ := List.mem_map.mp hj'
  refine ⟨j, hj, ?_⟩
  split_ifs
  · exact ⟨rfl, rfl⟩
  · exact ⟨rfl, rfl⟩

/-- A claim in its bounds returns, as long as no generation runs out. -/
theorem exists_claimVerification {p : JobClaim} (hbounded : p.Bounded)
    (hfits : ∀ j ∈ p.candidates s, Bigint.Fits (j.claimGeneration + 1)) :
    ∃ s', controlledClaimWebhookVerificationV1 p s = .ok ((p.candidates s).filterMap (fun j =>
      (s.pendingEndpoint? j).map fun e => (j.claim p).claimed e), s') := by
  have hgenerations : ¬∃ j ∈ p.candidates s, ¬Bigint.Fits (j.claimGeneration + 1) := by
    rintro ⟨j, hj, hnot⟩
    exact hnot (hfits j hj)
  unfold controlledClaimWebhookVerificationV1
  rw [Txn.raiseIf_bind_of_neg (not_not.mpr hbounded), Txn.get_bind]
  dsimp only
  rw [Txn.raiseIf_bind_of_neg hgenerations]
  exact ⟨_, rfl⟩

/-- The job that is found under a fence. -/
theorem WebhookDb.held?_eq_some {f : JobFence} {now : Instant} {j : VerificationJob} :
    s.held? f now = some j ↔ s.jobs.find? f.job = some j ∧ j.HeldBy f now := by
  unfold WebhookDb.held?
  rw [Option.filter_eq_some_iff, decide_eq_true_eq]

/-- A renewal changes only the lease of its job. -/
theorem renewVerificationClaim_effect {sess : Session} {f : JobFence} {lease : ℤ}
    {clock : LeaseClock} {renewed : Bool}
    (h : renewVerificationClaim sess f lease clock s = .ok (renewed, s')) : WebhookEffect r s s' := by
  simp only [renewVerificationClaim, Txn.raiseIf_bind_ok, Txn.get_bind_ok] at h
  obtain ⟨-, hrenew⟩ := h
  rcases hfound : s.renewing? sess f clock with _ | j
  · rw [hfound] at hrenew
    obtain ⟨-, rfl⟩ := Txn.pure_ok.mp hrenew
    exact .kept rfl rfl (.refl _)
  · obtain ⟨-, -, hheld⟩ := Option.bind_eq_some_iff.mp hfound
    have hmem := Table.mem_of_find? (WebhookDb.held?_eq_some.mp hheld).1
    rw [hfound] at hrenew
    simp only [Txn.set_bind_ok, Txn.pure_ok] at hrenew
    obtain ⟨-, rfl⟩ := hrenew
    exact .kept rfl rfl (.replace hmem rfl rfl)

/-- The job and the endpoint that a completion finds. -/
theorem completing?_eq_some {sess : Session} {f : JobFence} {now : Instant} {j : VerificationJob}
    {e : EndpointRow} (h : s.completing? sess f now = some (j, e)) :
    s.held? f now = some j ∧ s.endpoints.find? j.webhookId = some e := by
  obtain ⟨x, hx, hmap⟩ := Option.bind_eq_some_iff.mp h
  obtain ⟨y, hy, heq⟩ := Option.map_eq_some_iff.mp hmap
  obtain ⟨rfl, rfl⟩ := Prod.mk.inj heq
  exact ⟨(Option.filter_eq_some_iff.mp hx).1, (Option.filter_eq_some_iff.mp hy).1⟩

/-- An activation happens before the job expires, for an endpoint that waits for it, and adds its
event. -/
theorem activateEndpoint_ok {j : VerificationJob} {e : EndpointRow} {p : VerificationCompletion}
    {u : Unit} (h : activateEndpoint j e p s = .ok (u, s')) :
    p.completed < j.expiresAt ∧ e.status = .pendingVerification ∧
      ∃ t, s.events.insert? ⟨p.eventId, j.tenantId, j.webhookId, .verified, e.version + 1,
          j.actorSubjectId, j.correlationId, p.completed⟩ = some t ∧
        s' = { s with endpoints := s.endpoints.replace (e.activate p.completed), events := t } := by
  simp only [activateEndpoint, Txn.raiseIf_bind_ok, Txn.get_bind_ok, Txn.set_bind_ok, not_not,
    not_le] at h
  obtain ⟨htime, hstatus, -, hevent⟩ := h
  obtain ⟨t, ht, rfl⟩ := insertWebhookEvent_ok hevent
  exact ⟨htime, hstatus, t, ht, rfl⟩

/-- A completion has one of the effects. -/
theorem completeVerification_effect {sess : Session} {f : JobFence} {p : VerificationCompletion}
    {completed : Bool}
    (h : controlledCompleteWebhookVerificationV1 sess f p s = .ok (completed, s')) :
    WebhookEffect r s s' := by
  simp only [controlledCompleteWebhookVerificationV1, Txn.raiseIf_bind_ok, Txn.get_bind_ok] at h
  obtain ⟨-, h⟩ := h
  -- A job that is no longer held changes nothing.
  rcases hfound : s.completing? sess f p.selectAt with _ | ⟨j, e⟩
  · rw [hfound] at h
    obtain ⟨-, rfl⟩ := Txn.pure_ok.mp h
    exact .kept rfl rfl (.refl _)
  rw [hfound] at h
  obtain ⟨hheld, he⟩ := completing?_eq_some hfound
  have hj : j ∈ s.jobs := Table.mem_of_find? (WebhookDb.held?_eq_some.mp hheld).1
  have hid : e.id = j.webhookId := Table.key_of_find? he
  obtain ⟨_, s₁, hactivate, hrest⟩ := Txn.bind_ok.mp h
  simp only [Txn.raiseIf_bind_ok, Txn.get_bind_ok, Txn.set_bind_ok, Txn.pure_ok] at hrest
  obtain ⟨-, -, -, rfl⟩ := hrest
  unfold settleEndpoint at hactivate
  -- A verified result activates the endpoint; the other ones only close the job.
  split_ifs at hactivate with hverified
  · obtain ⟨htime, hstatus, t, ht, rfl⟩ := activateEndpoint_ok hactivate
    have hstep : e.Step s.jobs (e.activate p.completed) :=
      .activate _ hstatus (.inr ⟨j, hj, hid.symm, htime⟩)
    exact .changed e _ _ (by rw [hid, he]) hstep rfl hid.symm rfl ht (.replace hj rfl rfl)
  · obtain ⟨-, rfl⟩ := Txn.pure_ok.mp hactivate
    exact .kept rfl rfl (.replace hj rfl rfl)

/-- The registration that a call is. -/
def WebhookCall.registration? : WebhookCall → Option RegisterWebhookCommand
  | register c => some c
  | _ => none

/-- Every call has an effect of these. -/
theorem WebhookCall.exec_effect {c : WebhookCall} {u : Unit} (h : c.exec s = .ok (u, s')) :
    WebhookEffect c.registration? s s' := by
  -- Each call is one of the procedures above.
  cases c with
  | register c =>
    obtain ⟨r, hr⟩ := Txn.discard_ok.mp h
    exact registerWebhook_effect hr
  | verify c challengeDigest =>
    obtain ⟨r, hr⟩ := Txn.discard_ok.mp h
    exact verifyWebhook_effect hr
  | rotate c reference keyId =>
    obtain ⟨r, hr⟩ := Txn.discard_ok.mp h
    exact rotateWebhook_effect hr
  | disable c =>
    obtain ⟨r, hr⟩ := Txn.discard_ok.mp h
    exact disableWebhook_effect hr
  | claim p =>
    obtain ⟨r, hr⟩ := Txn.discard_ok.mp h
    obtain ⟨-, hendpoints, hevents, hjobs⟩ := claimVerification_ok hr
    exact .kept hendpoints hevents hjobs
  | renew sess f lease clock =>
    obtain ⟨r, hr⟩ := Txn.discard_ok.mp h
    exact renewVerificationClaim_effect hr
  | complete sess f p =>
    obtain ⟨r, hr⟩ := Txn.discard_ok.mp h
    exact completeVerification_effect hr

/-! ## The endpoints -/

/-- The status goes from pending to active to disabled, or from pending to disabled. -/
def EndpointStatus.Forward (a b : EndpointStatus) : Prop :=
  (a = .pendingVerification ∧ b = .active) ∨ (a = .active ∧ b = .disabled) ∨
    (a = .pendingVerification ∧ b = .disabled)

variable {i : Uuid} {e e' : EndpointRow} {jobs : Table VerificationJob.id}

/-- A step keeps the identifier of an endpoint. -/
theorem EndpointRow.Step.id_eq (h : e.Step jobs e') : e'.id = e.id := by
  cases h <;> rfl

/-- A step takes the version of an endpoint one up. -/
theorem EndpointRow.Step.version_eq (h : e.Step jobs e') : e'.version = e.version + 1 := by
  cases h <;> rfl

/-- A step keeps the status of an endpoint or takes it forward. -/
theorem EndpointRow.Step.status (h : e.Step jobs e') :
    e'.status = e.status ∨ e.status.Forward e'.status := by
  cases h with
  | activate now hstatus htime => exact .inr (.inl ⟨hstatus, rfl⟩)
  | rotate reference keyId now hstatus => exact .inl rfl
  | disable now hstatus =>
    cases hold : e.status with
    | pendingVerification => exact .inr (.inr (.inr ⟨rfl, rfl⟩))
    | active => exact .inr (.inr (.inl ⟨rfl, rfl⟩))
    | disabled => exact absurd hold hstatus

/-- An endpoint stays, and is unchanged or makes a step. -/
theorem WebhookEffect.endpoint (h : WebhookEffect r s s') (he : s.endpoints.find? i = some e) :
    ∃ e', s'.endpoints.find? i = some e' ∧ (e' = e ∨ e.Step s.jobs e') := by
  cases h with
  | kept hendpoints hevents hjobs => exact ⟨e, by rw [hendpoints, he], .inl rfl⟩
  | registered c hr t hendpoints hevent hevents hjobs =>
    exact ⟨e, Table.find?_insert?_of_some hendpoints he, .inl rfl⟩
  | changed x x' y hx hstep hendpoints hwebhook hversion hevents hjobs =>
    have hid : x'.id = x.id := hstep.id_eq
    by_cases hi : i = x.id
    · subst hi
      rw [hx] at he
      obtain rfl := Option.some.inj he
      exact ⟨x', by rw [hendpoints, Table.find?_replace_self hx hid], .inr hstep⟩
    · have hne : i ≠ x'.id := by rw [hid]; exact hi
      exact ⟨e, by rw [hendpoints, Table.find?_replace_ne hne, he], .inl rfl⟩

/-- A new endpoint is the one of the registration. -/
theorem WebhookEffect.new_endpoint (h : WebhookEffect r s s') (hold : s.endpoints.find? i = none)
    (hnew : s'.endpoints.find? i ≠ none) :
    ∃ c, r = some c ∧ c.webhookId = i ∧ s'.endpoints.find? i = some c.row ∧
      s.jobs.insert? c.job = some s'.jobs := by
  cases h with
  | kept hendpoints hevents hjobs => exact absurd (hendpoints ▸ hold) hnew
  | registered c hr t hendpoints hevent hevents hjobs =>
    rw [Table.find?_insert? hendpoints] at hnew ⊢
    split_ifs at hnew ⊢ with hi
    · exact ⟨c, hr, hi.symm, rfl, hjobs⟩
    · exact absurd hold hnew
  | changed x x' y hx hstep hendpoints hwebhook hversion hevents hjobs =>
    have hid : x'.id = x.id := hstep.id_eq
    have hne : i ≠ x'.id := by
      rintro rfl
      rw [hid, hx] at hold
      cases hold
    rw [hendpoints, Table.find?_replace_ne hne] at hnew
    exact absurd hold hnew

/-! ## The events -/

/-- The number of events of an endpoint with a version. -/
def WebhookDb.eventCount (s : WebhookDb) (i : Uuid) (v : ℤ) : ℕ :=
  s.events.rows.countP fun x => x.webhookId = i ∧ x.version = v

/-- Events and jobs have an endpoint, no event is ahead of its endpoint, and every version above the
first has its event. -/
structure WebhookDb.Recorded (s : WebhookDb) : Prop where
  job : ∀ j ∈ s.jobs, s.endpoints.find? j.webhookId ≠ none
  event : ∀ x ∈ s.events, ∃ e, s.endpoints.find? x.webhookId = some e ∧ x.version ≤ e.version
  version : ∀ i e, s.endpoints.find? i = some e → ∀ v, 1 < v → v ≤ e.version → s.eventCount i v = 1

/-- The count after a new event. -/
theorem eventCount_insert {x : EndpointEvent} {v : ℤ} (h : s.events.insert? x = some s'.events) :
    s'.eventCount i v = s.eventCount i v + if x.webhookId = i ∧ x.version = v then 1 else 0 := by
  unfold WebhookDb.eventCount
  rw [(Table.insert?_eq_some.mp h).2, List.countP_cons]
  simp only [decide_eq_true_eq]

/-- At first nothing is recorded. -/
theorem WebhookDb.start_recorded (tenants : List Uuid) (roles : List SubjectRole) :
    (WebhookDb.start tenants roles).Recorded where
  job := fun _ hj => (nomatch hj)
  event := fun _ hx => (nomatch hx)
  version := fun _ _ he => (nomatch he)

/-- A job that was there keeps its endpoint. -/
theorem JobsKept.endpoint {t : Table VerificationJob.id} (h : JobsKept t jobs)
    (hjobs : ∀ j ∈ t, s.endpoints.find? j.webhookId ≠ none) :
    ∀ j ∈ jobs, s.endpoints.find? j.webhookId ≠ none := by
  intro j' hj'
  obtain ⟨j, hj, hwebhook, -⟩ := h j' hj'
  rw [hwebhook]
  exact hjobs j hj

/-- An endpoint that was there is still there, with no smaller version. -/
theorem WebhookEffect.endpoint_le (h : WebhookEffect r s s') (he : s.endpoints.find? i = some e) :
    ∃ e', s'.endpoints.find? i = some e' ∧ e.version ≤ e'.version := by
  obtain ⟨e', he', rfl | hstep⟩ := h.endpoint he
  · exact ⟨e', he', le_refl _⟩
  · have hversion := hstep.version_eq
    exact ⟨e', he', by omega⟩

/-- Every job after a call has its endpoint. -/
theorem WebhookEffect.recorded_job (h : WebhookEffect r s s') (hs : s.Recorded) :
    ∀ j ∈ s'.jobs, s'.endpoints.find? j.webhookId ≠ none := by
  have hold : ∀ j ∈ s.jobs, s'.endpoints.find? j.webhookId ≠ none := by
    intro j hj
    obtain ⟨e, he⟩ := Option.ne_none_iff_exists'.mp (hs.job j hj)
    obtain ⟨e', he', -⟩ := h.endpoint_le he
    rw [he']
    exact Option.some_ne_none e'
  cases h with
  | kept hendpoints hevents hjobs => exact hjobs.endpoint hold
  | registered c hr t hendpoints hevent hevents hjobs =>
    intro j hj
    rcases (Table.mem_insert? hjobs).mp hj with rfl | hj
    · have hnew := Table.find?_insert?_self hendpoints rfl
      change s'.endpoints.find? c.row.id ≠ none
      rw [hnew]
      exact Option.some_ne_none _
    · exact hold j hj
  | changed x x' y hx hstep hendpoints hwebhook hversion hevents hjobs => exact hjobs.endpoint hold

/-- Every event after a call has its endpoint, at its version or a later one. -/
theorem WebhookEffect.recorded_event (h : WebhookEffect r s s') (hs : s.Recorded) :
    ∀ x ∈ s'.events, ∃ e, s'.endpoints.find? x.webhookId = some e ∧ x.version ≤ e.version := by
  -- Versions only grow, so that an event of before stays below that of its endpoint.
  have hold : ∀ x ∈ s.events, ∃ e, s'.endpoints.find? x.webhookId = some e ∧
      x.version ≤ e.version := by
    intro x hx
    obtain ⟨e, he, hle⟩ := hs.event x hx
    obtain ⟨e', he', hle'⟩ := h.endpoint_le he
    exact ⟨e', he', hle.trans hle'⟩
  cases h with
  | kept hendpoints hevents hjobs =>
    intro x hx
    rw [hevents] at hx
    exact hold x hx
  | registered c hr t hendpoints hevent hevents hjobs =>
    have hnew : s'.endpoints.find? c.webhookId = some c.row :=
      Table.find?_insert?_self hendpoints rfl
    intro x hx
    rcases (Table.mem_insert? hevents).mp hx with rfl | hx
    · exact ⟨c.row, hnew, le_refl _⟩
    rcases (Table.mem_insert? hevent).mp hx with rfl | hx
    · exact ⟨c.row, hnew, le_refl _⟩
    · exact hold x hx
  | changed x x' y hx hstep hendpoints hwebhook hversion hevents hjobs =>
    intro z hz
    rcases (Table.mem_insert? hevents).mp hz with rfl | hz
    -- The event of a change carries the version just written.
    · have hnew : s'.endpoints.find? x.id = some x' := by
        rw [hendpoints, Table.find?_replace_self hx hstep.id_eq]
      exact ⟨x', hwebhook ▸ hnew, hversion.le⟩
    · exact hold z hz

/-- The event of a change is the only one with its version, and the events of a registration have
the first version. -/
theorem WebhookEffect.recorded_version (h : WebhookEffect r s s') (hs : s.Recorded) :
    ∀ i e, s'.endpoints.find? i = some e → ∀ v, 1 < v → v ≤ e.version → s'.eventCount i v = 1 := by
  intro i e he v hpos hle
  cases h with
  | kept hendpoints hevents hjobs =>
    rw [hendpoints] at he
    have hcount := hs.version i e he v hpos hle
    unfold WebhookDb.eventCount at hcount ⊢
    rw [hevents, hcount]
  | registered c hr t hendpoints hevent hevents hjobs =>
    -- The events of a registration are of version 1.
    have hfirst : ∀ id action,
        ¬((c.event id action).webhookId = i ∧ (c.event id action).version = v) := by
      rintro id action ⟨-, hv⟩
      have hone : (c.event id action).version = 1 := rfl
      omega
    have hregistered : ({ s with events := t } : WebhookDb).eventCount i v = s.eventCount i v := by
      rw [eventCount_insert hevent, if_neg (hfirst _ _), add_zero]
    have hcount : s'.eventCount i v = ({ s with events := t } : WebhookDb).eventCount i v := by
      rw [eventCount_insert (s := { s with events := t }) hevents, if_neg (hfirst _ _), add_zero]
    rw [hcount, hregistered]
    rw [Table.find?_insert? hendpoints] at he
    split_ifs at he with hi
    · obtain rfl := Option.some.inj he
      have hone : c.row.version = 1 := rfl
      omega
    · exact hs.version i e he v hpos hle
  | changed x x' y hx hstep hendpoints hwebhook hversion hevents hjobs =>
    have hid : x'.id = x.id := hstep.id_eq
    have hnext := hstep.version_eq
    rw [eventCount_insert hevents, hwebhook, hversion]
    -- A change adds one event, for its own endpoint and the version just reached.
    by_cases hi : i = x.id
    · subst hi
      rw [hendpoints, Table.find?_replace_self hx hid] at he
      obtain rfl := Option.some.inj he
      by_cases hv : x'.version = v
      · -- No event was ahead of the endpoint.
        have hnone : s.eventCount x.id v = 0 := by
          unfold WebhookDb.eventCount
          rw [List.countP_eq_zero]
          intro z hz hmatch
          obtain ⟨hzid, hzv⟩ := of_decide_eq_true hmatch
          obtain ⟨x₂, hx₂, hbound⟩ := hs.event z hz
          rw [hzid, hx] at hx₂
          obtain rfl := Option.some.inj hx₂
          omega
        rw [hnone, if_pos ⟨rfl, hv⟩]
      · rw [if_neg fun hboth => hv hboth.2, hs.version x.id x hx v hpos (by omega)]
    · rw [if_neg fun hboth => hi hboth.1.symm]
      have hne : i ≠ x'.id := by rw [hid]; exact hi
      rw [hendpoints, Table.find?_replace_ne hne] at he
      exact hs.version i e he v hpos hle

/-- A call keeps the endpoints recorded. -/
theorem WebhookEffect.recorded (h : WebhookEffect r s s') (hs : s.Recorded) : s'.Recorded where
  job := h.recorded_job hs
  event := h.recorded_event hs
  version := h.recorded_version hs

/-- Every history leaves the endpoints recorded. -/
theorem run_endpoints_recorded (tenants : List Uuid) (roles : List SubjectRole)
    (cs : List WebhookCall) :
    (run WebhookCall.exec cs (WebhookDb.start tenants roles)).Recorded :=
  run_invariant (fun _ _ _ _ h hI => (WebhookCall.exec_effect h).recorded hI) cs
    (WebhookDb.start_recorded tenants roles)

/-! ## The challenge -/

/-- The challenge of an endpoint, in the endpoint while it is pending and in its jobs, is over at
`x`, and the endpoint was not verified later. -/
structure WebhookDb.Challenged (s : WebhookDb) (i : Uuid) (x : Instant) : Prop where
  endpoint : ∃ e, s.endpoints.find? i = some e ∧
    (e.status = .pendingVerification → e.challengeExpiresAt = some x) ∧
    ∀ t, e.verifiedAt = some t → t < x
  jobs : ∀ j ∈ s.jobs, j.webhookId = i → j.expiresAt = x

/-- A step of an endpoint keeps its challenge. -/
theorem EndpointRow.Step.challenged {x : Instant} (h : e.Step s.jobs e') (hs : s.Challenged e.id x)
    (he : s.endpoints.find? e.id = some e) :
    (e'.status = .pendingVerification → e'.challengeExpiresAt = some x) ∧
      ∀ t, e'.verifiedAt = some t → t < x := by
  obtain ⟨e₁, he₁, hexpiry, hverified⟩ := hs.endpoint
  rw [he] at he₁
  obtain rfl := Option.some.inj he₁
  cases h with
  | activate now hstatus htime =>
    refine ⟨fun hpending => (nomatch hpending), fun t ht => ?_⟩
    obtain rfl : now = t := Option.some.inj ht
    rcases htime with ⟨x', hx', hlt⟩ | ⟨j, hj, hwebhook, hlt⟩
    · rw [hexpiry hstatus] at hx'
      obtain rfl := Option.some.inj hx'
      exact hlt
    · rw [hs.jobs j hj hwebhook] at hlt
      exact hlt
  | rotate reference keyId now hstatus => exact ⟨hexpiry, hverified⟩
  | disable now hstatus => exact ⟨fun hpending => (nomatch hpending), hverified⟩

/-- A call keeps an endpoint that waits for its challenge in one of the states that it may be in. -/
theorem WebhookEffect.challenged {x : Instant} (h : WebhookEffect r s s') (hs : s.Challenged i x) :
    s'.Challenged i x := by
  obtain ⟨e, he, hexpiry, hverified⟩ := hs.endpoint
  -- The deadline stays as long as the endpoint waits, and an activation is before it.
  have hendpoint : ∃ e', s'.endpoints.find? i = some e' ∧
      (e'.status = .pendingVerification → e'.challengeExpiresAt = some x) ∧
      ∀ t, e'.verifiedAt = some t → t < x := by
    obtain ⟨e', he', rfl | hstep⟩ := h.endpoint he
    · exact ⟨e', he', hexpiry, hverified⟩
    · obtain rfl : e.id = i := Table.key_of_find? he
      exact ⟨e', he', hstep.challenged hs he⟩
  refine ⟨hendpoint, ?_⟩
  -- A job keeps the deadline it was made with.
  have hkept : JobsKept s.jobs s'.jobs → ∀ j ∈ s'.jobs, j.webhookId = i → j.expiresAt = x := by
    intro hjobs j' hj' hwebhook
    obtain ⟨j, hj, hsame, hexpires⟩ := hjobs j' hj'
    rw [hexpires]
    exact hs.jobs j hj (hsame.symm.trans hwebhook)
  cases h with
  | kept hendpoints hevents hjobs => exact hkept hjobs
  | registered c hr t hendpoints hevent hevents hjobs =>
    intro j hj hwebhook
    rcases (Table.mem_insert? hjobs).mp hj with rfl | hj
    · -- The identifier of a new endpoint was free.
      have hfree := (Table.insert?_eq_some.mp hendpoints).1
      have hsame : c.row.id = i := hwebhook
      rw [hsame, he] at hfree
      cases hfree
    · exact hs.jobs j hj hwebhook
  | changed y y' z hy hstep hendpoints hwebhook hversion hevents hjobs => exact hkept hjobs

/-- Every endpoint was registered by a call of the history, and was verified before the end of the
challenge that the call set. -/
theorem exists_registration (tenants : List Uuid) (roles : List SubjectRole)
    {cs : List WebhookCall}
    (he : (run WebhookCall.exec cs (.start tenants roles)).endpoints.find? i = some e) :
    ∃ pre c post, cs = pre ++ .register c :: post ∧ c.webhookId = i ∧
      (run WebhookCall.exec pre (.start tenants roles)).endpoints.find? i = none ∧
      (run WebhookCall.exec (pre ++ [.register c]) (.start tenants roles)).endpoints.find? i =
        some c.row ∧
      ∀ t, e.verifiedAt = some t → t < c.challengeExpiresAt := by
  have hempty : ¬(WebhookDb.start tenants roles).endpoints.find? i ≠ none := not_not.mpr rfl
  obtain ⟨pre, call, post, rfl, hbefore, hafter⟩ := run_crossing
    (Q := fun t : WebhookDb => t.endpoints.find? i ≠ none) hempty
    (by rw [he]; exact Option.some_ne_none e)
  have hrecorded := run_endpoints_recorded tenants roles pre
  have hnone := not_not.mp (hbefore pre (List.prefix_refl pre))
  rcases commit_cases call.exec (run WebhookCall.exec pre (.start tenants roles)) with
    hsame | ⟨u, hok⟩
  · rw [hsame] at hafter
    exact absurd hnone hafter
  obtain ⟨c, hc, hid, hrow, hjob⟩ := (WebhookCall.exec_effect hok).new_endpoint hnone hafter
  obtain rfl : call = .register c := by
    cases call with
    | register c' => rw [Option.some.inj hc]
    | _ => cases hc
  have hstep : run WebhookCall.exec (pre ++ [.register c]) (.start tenants roles) =
      commit (WebhookCall.register c).exec (run WebhookCall.exec pre (.start tenants roles)) := by
    rw [run_append, run_cons, run_nil]
  refine ⟨pre, c, post, rfl, hid, hnone, by rw [hstep, hrow], ?_⟩
  -- The endpoint is new, so no job was there for it.
  have hchallenged : (commit (WebhookCall.register c).exec
      (run WebhookCall.exec pre (.start tenants roles))).Challenged i c.challengeExpiresAt := by
    refine ⟨⟨c.row, hrow, fun _ => rfl, fun t ht => (nomatch ht)⟩, fun j hj hwebhook => ?_⟩
    rcases (Table.mem_insert? hjob).mp hj with rfl | hj
    · rfl
    · exact absurd (hwebhook ▸ hnone) (hrecorded.job j hj)
  have hfinal : (run WebhookCall.exec (pre ++ .register c :: post)
      (.start tenants roles)).Challenged i c.challengeExpiresAt := by
    rw [run_append, run_cons]
    exact run_invariant (I := fun t : WebhookDb => t.Challenged i c.challengeExpiresAt)
      (fun _ _ _ _ h hI => (WebhookCall.exec_effect h).challenged hI) post hchallenged
  obtain ⟨e₁, he₁, -, hverified⟩ := hfinal.endpoint
  rw [he] at he₁
  obtain rfl := Option.some.inj he₁
  exact hverified

/-! ## Activation -/

/-- The call activates the endpoint. -/
def Activates (c : WebhookCall) (s : WebhookDb) (i : Uuid) : Prop :=
  (∃ e, s.endpoints.find? i = some e ∧ e.status ≠ .active) ∧
    ∃ e, (commit c.exec s).endpoints.find? i = some e ∧ e.status = .active

/-- An endpoint that is not pending is not pending again. -/
theorem WebhookEffect.settled (h : WebhookEffect r s s')
    (hs : ∃ e, s.endpoints.find? i = some e ∧ e.status ≠ .pendingVerification) :
    ∃ e, s'.endpoints.find? i = some e ∧ e.status ≠ .pendingVerification := by
  obtain ⟨e, he, hstatus⟩ := hs
  obtain ⟨e', he', rfl | hstep⟩ := h.endpoint he
  · exact ⟨e', he', hstatus⟩
  · refine ⟨e', he', ?_⟩
    rcases hstep.status with hsame | ⟨hpending, -⟩ | ⟨-, hdisabled⟩ | ⟨hpending, -⟩
    · rw [hsame]
      exact hstatus
    · exact absurd hpending hstatus
    · rw [hdisabled]
      exact EndpointStatus.noConfusion
    · exact absurd hpending hstatus

/-- Only a pending endpoint is activated. -/
theorem Activates.pending {c : WebhookCall} (h : Activates c s i) :
    ∃ e, s.endpoints.find? i = some e ∧ e.status = .pendingVerification := by
  obtain ⟨⟨e, he, hstatus⟩, e', he', hactive⟩ := h
  rcases commit_cases c.exec s with hsame | ⟨u, hok⟩
  · rw [hsame, he] at he'
    exact absurd hactive (Option.some.inj he' ▸ hstatus)
  obtain ⟨e₁, he₁, hstep⟩ := (WebhookCall.exec_effect hok).endpoint he
  rw [he'] at he₁
  obtain rfl := Option.some.inj he₁
  refine ⟨e, he, ?_⟩
  rcases hstep with rfl | hstep
  · exact absurd hactive hstatus
  rcases hstep.status with hsame | ⟨hpending, -⟩ | ⟨hold, -⟩ | ⟨-, hdisabled⟩
  · exact absurd (hsame ▸ hactive) hstatus
  · exact hpending
  · exact absurd hold hstatus
  · rw [hdisabled] at hactive
    cases hactive

/-- Of two activations of an endpoint in a history, the second is not later than the first. -/
theorem activation_le {s₀ : WebhookDb} {p₁ p₂ : List WebhookCall} {c₁ c₂ : WebhookCall}
    (h₁ : Activates c₁ (run WebhookCall.exec p₁ s₀) i)
    (h₂ : Activates c₂ (run WebhookCall.exec p₂ s₀) i) : ¬(p₁ ++ [c₁]) <+: p₂ := by
  rintro ⟨post, rfl⟩
  have hafter : ∃ e, (commit c₁.exec (run WebhookCall.exec p₁ s₀)).endpoints.find? i = some e ∧
      e.status ≠ .pendingVerification := by
    obtain ⟨e, he, hactive⟩ := h₁.2
    exact ⟨e, he, by rw [hactive]; exact EndpointStatus.noConfusion⟩
  have hlater : ∃ e, (run WebhookCall.exec (p₁ ++ [c₁] ++ post) s₀).endpoints.find? i = some e ∧
      e.status ≠ .pendingVerification := by
    rw [List.append_assoc, run_append, List.singleton_append, run_cons]
    exact run_invariant (I := fun t : WebhookDb => ∃ e, t.endpoints.find? i = some e ∧
      e.status ≠ .pendingVerification)
      (fun _ _ _ _ h hI => (WebhookCall.exec_effect h).settled hI) post hafter
  obtain ⟨e, he, hpending⟩ := h₂.pending
  obtain ⟨e', he', hnot⟩ := hlater
  rw [he] at he'
  exact hnot (Option.some.inj he' ▸ hpending)

/-! ## Claims -/

/-- The number of due, unclaimed jobs whose endpoint is pending. -/
def JobClaim.duePending (p : JobClaim) (s : WebhookDb) : ℕ :=
  s.jobs.rows.countP fun j => p.Due j ∧ (s.pendingEndpoint? j).isSome

/-- A claim takes a job whose endpoint is not pending, and leaves a due, unclaimed job whose
endpoint is. -/
def JobClaim.Wastes (p : JobClaim) (s : WebhookDb) : Prop :=
  (∃ j ∈ p.candidates s, ¬(s.pendingEndpoint? j).isSome) ∧
    ∃ j ∈ s.jobs, p.Due j ∧ (s.pendingEndpoint? j).isSome ∧ j ∉ p.candidates s

/-- A claim that runs alone returns as many jobs as it can if and only if it wastes none of its
places. -/
theorem claim_length_iff {p : JobClaim} {claimed : List ClaimedVerification}
    (halone : p.locked = []) (h : controlledClaimWebhookVerificationV1 p s = .ok (claimed, s')) :
    claimed.length = min p.limit.toNat (p.duePending s) ↔ ¬p.Wastes s := by
  obtain ⟨rfl, -⟩ := claimVerification_ok h
  have hlength : ((p.candidates s).filterMap fun j =>
      (s.pendingEndpoint? j).map fun e => (j.claim p).claimed e).length =
      (p.candidates s).countP fun j => (s.pendingEndpoint? j).isSome := by
    rw [List.length_filterMap_eq_countP]
    simp only [Option.isSome_map]
  have hdue : p.duePending s = s.jobs.rows.countP fun j =>
      decide (p.Due j ∧ j.id ∉ p.locked) && (s.pendingEndpoint? j).isSome := by
    unfold JobClaim.duePending
    simp only [halone, List.not_mem_nil, not_false_iff, and_true, Bool.decide_and,
      Bool.decide_eq_true]
  rw [hlength, hdue]
  unfold JobClaim.candidates
  rw [Table.countP_batch_eq_min_iff]
  unfold JobClaim.Wastes JobClaim.candidates
  simp only [halone, List.not_mem_nil, not_false_iff, and_true, decide_eq_true_eq]

/-- A completion that does not hold the live claim of its job changes nothing. -/
theorem commit_complete_of_not_held {sess : Session} {f : JobFence} {p : VerificationCompletion}
    (h : ¬∃ j, s.jobs.find? f.job = some j ∧ j.HeldBy f p.selectAt) :
    commit (WebhookCall.complete sess f p).exec s = s := by
  have hnone : s.completing? sess f p.selectAt = none := by
    rcases hfound : s.completing? sess f p.selectAt with _ | ⟨j, e⟩
    · rfl
    · exact absurd ⟨j, WebhookDb.held?_eq_some.mp (completing?_eq_some hfound).1⟩ h
  rcases commit_cases (WebhookCall.complete sess f p).exec s with hsame | ⟨u, hok⟩
  · exact hsame
  obtain ⟨completed, hcomplete⟩ := Txn.discard_ok.mp hok
  simp only [controlledCompleteWebhookVerificationV1, Txn.raiseIf_bind_ok, Txn.get_bind_ok,
    hnone, Txn.pure_ok] at hcomplete
  exact hcomplete.2.2.symm

/-! ## Histories -/

/-- Over every history of the API and the workers:
* an endpoint stays as it is, or its version grows by one and its status stays or moves forward;
* every version above the first has exactly one event;
* an endpoint is activated at most once;
* it was registered in the history, and verified before the end of the challenge set there;
* a completion without the live claim of its job changes nothing;
* a claim that runs alone returns as many of the due, unclaimed jobs of pending endpoints as its
  limit allows if and only if it does not take a job of another endpoint in the place of one of
  them. -/
theorem webhook_verification_lifecycle (tenants : List Uuid) (roles : List SubjectRole)
    (cs : List WebhookCall) :
    (∀ pre c post, cs = pre ++ c :: post → ∀ i e,
      (run WebhookCall.exec pre (.start tenants roles)).endpoints.find? i = some e →
      ∃ e', (run WebhookCall.exec (pre ++ [c]) (.start tenants roles)).endpoints.find? i = some e' ∧
        (e' = e ∨ e'.version = e.version + 1 ∧
          (e'.status = e.status ∨ e.status.Forward e'.status))) ∧
    (∀ i e, (run WebhookCall.exec cs (.start tenants roles)).endpoints.find? i = some e →
      ∀ v, 1 < v → v ≤ e.version →
        (run WebhookCall.exec cs (.start tenants roles)).eventCount i v = 1) ∧
    (∀ p₁ c₁ q₁ p₂ c₂ q₂, cs = p₁ ++ c₁ :: q₁ → cs = p₂ ++ c₂ :: q₂ → ∀ i,
      Activates c₁ (run WebhookCall.exec p₁ (.start tenants roles)) i →
      Activates c₂ (run WebhookCall.exec p₂ (.start tenants roles)) i → p₁ = p₂) ∧
    (∀ i e, (run WebhookCall.exec cs (.start tenants roles)).endpoints.find? i = some e →
      ∃ pre c post, cs = pre ++ .register c :: post ∧ c.webhookId = i ∧
        (run WebhookCall.exec pre (.start tenants roles)).endpoints.find? i = none ∧
        (run WebhookCall.exec (pre ++ [.register c]) (.start tenants roles)).endpoints.find? i =
          some c.row ∧
        ∀ t, e.verifiedAt = some t → t < c.challengeExpiresAt) ∧
    (∀ sess f p, (¬∃ j, (run WebhookCall.exec cs (.start tenants roles)).jobs.find? f.job = some j ∧
        j.HeldBy f p.selectAt) →
      commit (WebhookCall.complete sess f p).exec (run WebhookCall.exec cs (.start tenants roles)) =
        run WebhookCall.exec cs (.start tenants roles)) ∧
    ∀ pre p post, cs = pre ++ .claim p :: post → p.locked = [] → ∀ claimed s',
      controlledClaimWebhookVerificationV1 p (run WebhookCall.exec pre (.start tenants roles)) =
        .ok (claimed, s') →
      (claimed.length =
          min p.limit.toNat (p.duePending (run WebhookCall.exec pre (.start tenants roles))) ↔
        ¬p.Wastes (run WebhookCall.exec pre (.start tenants roles))) := by
  refine ⟨?_, ?_, ?_, ?_, ?_, ?_⟩
  -- What one call does is read off its effect.
  · intro pre c post _ i e he
    rw [run_append, run_cons, run_nil]
    rcases commit_cases c.exec (run WebhookCall.exec pre (.start tenants roles)) with
      hsame | ⟨u, hok⟩
    · exact ⟨e, by rw [hsame, he], .inl rfl⟩
    · obtain ⟨e', he', hstep⟩ := (WebhookCall.exec_effect hok).endpoint he
      exact ⟨e', he', hstep.imp_right fun h => ⟨h.version_eq, h.status⟩⟩
  · exact (run_endpoints_recorded tenants roles cs).version
  -- An endpoint activated once never waits again, so that the two calls are one.
  · intro p₁ c₁ q₁ p₂ c₂ q₂ h₁ h₂ i ha₁ ha₂
    have hearlier : ∀ {p q : List WebhookCall} {c d q₁ q₂}, cs = p ++ c :: q₁ → cs = q ++ d :: q₂ →
        p.length < q.length → (p ++ [c]) <+: q := by
      intro p q c d q₁ q₂ hp hq hlt
      have hfirst : (p ++ [c]) <+: cs := ⟨q₁, by simp [hp]⟩
      have hsecond : q <+: cs := ⟨d :: q₂, hq.symm⟩
      refine List.prefix_of_prefix_length_le hfirst hsecond ?_
      rw [List.length_append, List.length_singleton]
      omega
    rcases lt_trichotomy p₁.length p₂.length with hlt | heq | hgt
    · exact absurd (hearlier h₁ h₂ hlt) (activation_le ha₁ ha₂)
    · exact (List.append_inj (h₁.symm.trans h₂) heq).1
    · exact absurd (hearlier h₂ h₁ hgt) (activation_le ha₂ ha₁)
  · intro i e he
    exact exists_registration tenants roles he
  · intro sess f p h
    exact commit_complete_of_not_held h
  · intro pre p post _ halone claimed s' h
    exact claim_length_iff halone h

namespace Sample

/-- The tenant of the endpoints. -/
def endpointTenant : Uuid := uuid 1

/-- The command of an operator. -/
def endpointKey (key : String) : WebhookKey where
  tenant := endpointTenant
  actor := "operator"
  correlation := uuid 2
  key := key
  fingerprint := List.replicate 32 0
  now := 1

/-- The registration of an endpoint. -/
def registerEndpoint (id : Uuid) (url key : String) : RegisterWebhookCommand where
  toWebhookKey := endpointKey key
  displayName := "endpoint"
  endpointUrl := url
  subscribedEvents := ["transfer.posted"]
  signingKeyReference := "keys/one"
  signingKeyId := "key-1"
  verificationChallenge := List.replicate 43 65
  challengeDigest := List.replicate 32 0
  challengeExpiresAt := 600000001
  webhookId := id
  verificationId := id
  registeredEventId := id
  scheduledEventId := ⟨id.toNat % 2 ^ 64 + 2 ^ 64, by omega⟩

/-- The registration of the first endpoint. -/
def registerFirst : RegisterWebhookCommand :=
  registerEndpoint (uuid 3) "https://one.example/" "register-webhook-1"

/-- The registration of the second endpoint. -/
def registerSecond : RegisterWebhookCommand :=
  registerEndpoint (uuid 4) "https://two.example/" "register-webhook-2"

/-- Two endpoints are registered, and the first is disabled before a worker looks at it. -/
def disabledFirst : List WebhookCall :=
  [.register registerFirst, .register registerSecond,
    .disable ⟨endpointKey "disable-webhook-1", uuid 3, 1, uuid 5⟩]

/-- The tables after that. -/
def endpointDb : WebhookDb :=
  run WebhookCall.exec disabledFirst
    (.start [endpointTenant] [⟨endpointTenant, "operator", .operator⟩])

/-- A claim of one job. -/
def claimOne : JobClaim where
  lease := 30000000
  limit := 1
  owner := "worker-1"
  selectAt := fun _ => 2
  claimAt := fun _ => 2
  updatedAt := fun _ => 2
  locked := []

end Sample

/-- The first job in the queue is the one of the disabled endpoint. -/
theorem Sample.candidates_claimOne :
    Sample.claimOne.candidates Sample.endpointDb = [Sample.registerFirst.job] := by
  have hdue : Sample.endpointDb.jobs.rows.filter (fun j => Sample.claimOne.Due j ∧
      j.id ∉ Sample.claimOne.locked) = [Sample.registerSecond.job, Sample.registerFirst.job] := by
    decide +kernel
  have horder : VerificationJob.before Sample.registerSecond.job Sample.registerFirst.job = false := by
    decide +kernel
  unfold JobClaim.candidates Table.batch
  rw [hdue, Table.mergeSort_pair, horder]
  rfl

/-- The job of the disabled endpoint takes the only place of the claim, and the job of the pending
one is not returned. -/
theorem leftover_job_claimed :
    (∃ s', controlledClaimWebhookVerificationV1 Sample.claimOne Sample.endpointDb = .ok ([], s')) ∧
      Sample.claimOne.locked = [] ∧
      min Sample.claimOne.limit.toNat (Sample.claimOne.duePending Sample.endpointDb) = 1 := by
  have hfacts : Sample.claimOne.Bounded ∧
      (∀ j ∈ [Sample.registerFirst.job], Bigint.Fits (j.claimGeneration + 1)) ∧
      Sample.endpointDb.pendingEndpoint? Sample.registerFirst.job = none ∧
      Sample.claimOne.duePending Sample.endpointDb = 1 := by
    decide +kernel
  obtain ⟨hbounded, hfits, hsettled, hdue⟩ := hfacts
  rw [← Sample.candidates_claimOne] at hfits
  obtain ⟨s', hclaim⟩ := exists_claimVerification hbounded hfits
  rw [Sample.candidates_claimOne, List.filterMap_cons, hsettled] at hclaim
  exact ⟨⟨s', hclaim⟩, rfl, by rw [hdue]; rfl⟩

end LedgerSync
