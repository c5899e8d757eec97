import LedgerSync.Lib.Numbered
import LedgerSync.WebhookDeliveries

/-!
# The attempts of a delivery are a chain

The attempts for one event and one endpoint are numbered from 1 on. A job that is not settled has
the next number, there is at most one, and the last attempt before it was retried or is the dead
attempt that the job replays (`DeliveryDb.Chained`). This is what every call keeps: a completion
appends the attempt of the job and either gives the job the next number or settles it; a replay is
only made of the last attempt of its chain, and of each attempt once, so it finds no other job.
-/

namespace LedgerSync

open Lib

/-! ## Chains -/

/-- The attempt is one of the event for the endpoint. -/
def DeliveryAttempt.Of (a : DeliveryAttempt) (event webhook : Uuid) : Prop :=
  a.outboxEventId = some event ∧ a.deliveryKind = .webhook ∧ a.endpointReference = webhook.text

/-- Whether an attempt is of an event and an endpoint can be decided. -/
instance DeliveryAttempt.decidableOf (a : DeliveryAttempt) (event webhook : Uuid) :
    Decidable (a.Of event webhook) :=
  inferInstanceAs (Decidable (_ ∧ _ ∧ _))

/-- The attempts of an event for an endpoint, in the order in which they were recorded. -/
def DeliveryDb.chain (s : DeliveryDb) (event webhook : Uuid) : List DeliveryAttempt :=
  (s.attempts.rows.filter (·.Of event webhook)).reverse

/-- The job is for the event and the endpoint, and is not settled. -/
def DeliveryJob.Opens (j : DeliveryJob) (event webhook : Uuid) : Prop :=
  j.outboxEventId = event ∧ j.webhookId = webhook ∧ j.status.Unsettled

/-- The status of an attempt after which there may be another one. -/
def DeliveryStatus.Repeatable (st : DeliveryStatus) : Prop := st = .retrying ∨ st = .dead

/-- The attempts of an event for an endpoint, with their job. -/
structure DeliveryDb.Chained (s : DeliveryDb) (event webhook : Uuid) : Prop where
  numbered : Numbered DeliveryAttempt.attemptNumber (s.chain event webhook)
  earlier : ∀ a ∈ (s.chain event webhook).dropLast, a.status.Repeatable
  single : ∀ j ∈ s.jobs, ∀ j' ∈ s.jobs, j.Opens event webhook → j'.Opens event webhook → j = j'
  next : ∀ j ∈ s.jobs, j.Opens event webhook → j.attemptNumber = (s.chain event webhook).length + 1
  last : ∀ j ∈ s.jobs, j.Opens event webhook → ∀ a, (s.chain event webhook).getLast? = some a →
    a.status = .retrying ∨ (a.status = .dead ∧ j.replayOfAttemptId = some a.id)

/-- Jobs and attempts have an event, of their tenant and their transfer. -/
structure DeliveryDb.Linked (s : DeliveryDb) : Prop where
  job : ∀ j ∈ s.jobs, ∃ e, s.events.find? j.outboxEventId = some e ∧ e.tenantId = j.tenantId ∧
    e.transferId = j.transferId
  attempt : ∀ a ∈ s.attempts, ∀ event, a.outboxEventId = some event →
    ∃ e, s.events.find? event = some e ∧ e.tenantId = a.tenantId ∧ e.transferId = a.transferId

variable {s s' : DeliveryDb} {event webhook : Uuid}

/-- The chain has the attempts of its event and endpoint. -/
theorem mem_chain {a : DeliveryAttempt} :
    a ∈ s.chain event webhook ↔ a ∈ s.attempts ∧ a.Of event webhook := by
  unfold DeliveryDb.chain
  rw [List.mem_reverse, List.mem_filter, decide_eq_true_eq, Table.mem_def]

/-- A new attempt is the last of its chain. -/
theorem chain_insert {a : DeliveryAttempt} (h : s.attempts.insert? a = some s'.attempts) :
    s'.chain event webhook =
      if a.Of event webhook then s.chain event webhook ++ [a] else s.chain event webhook := by
  unfold DeliveryDb.chain
  rw [(Table.insert?_eq_some.mp h).2, List.filter_cons]
  by_cases ha : a.Of event webhook
  · simp only [ha, decide_true, if_true, List.reverse_cons]
  · simp only [ha, decide_false, Bool.false_eq_true, if_false]

/-- Every attempt of a chain is the last or an earlier one. -/
theorem mem_dropLast_or {α : Type} {l : List α} {a : α} (h : a ∈ l) :
    a ∈ l.dropLast ∨ l.getLast? = some a := by
  have hne : l ≠ [] := List.ne_nil_of_mem h
  rw [← List.dropLast_append_getLast hne, List.mem_append, List.mem_singleton] at h
  rcases h with h | h
  · exact .inl h
  · exact .inr (by rw [List.getLast?_eq_some_getLast hne, h])

/-- Where there is a job, every attempt before it is repeatable. -/
theorem DeliveryDb.Chained.repeatable (h : s.Chained event webhook) {j : DeliveryJob}
    (hj : j ∈ s.jobs) (hopen : j.Opens event webhook) :
    ∀ a ∈ s.chain event webhook, a.status.Repeatable := by
  intro a ha
  rcases mem_dropLast_or ha with hearlier | hlast
  · exact h.earlier a hearlier
  · exact (h.last j hj hopen a hlast).imp_right And.left

/-! ## What a call does -/

/-- The job is the same but for its claim. -/
structure DeliveryJob.Same (j j' : DeliveryJob) : Prop where
  id : j'.id = j.id
  tenantId : j'.tenantId = j.tenantId
  transferId : j'.transferId = j.transferId
  outboxEventId : j'.outboxEventId = j.outboxEventId
  webhookId : j'.webhookId = j.webhookId
  attemptNumber : j'.attemptNumber = j.attemptNumber
  status : j'.status = j.status
  replayOfAttemptId : j'.replayOfAttemptId = j.replayOfAttemptId

/-- A job is the same as itself. -/
theorem DeliveryJob.Same.refl (j : DeliveryJob) : j.Same j := ⟨rfl, rfl, rfl, rfl, rfl, rfl, rfl, rfl⟩

/-- A job that is open after a call was open before it. -/
theorem DeliveryJob.Same.opens {j j' : DeliveryJob} (h : j.Same j') (hopen : j'.Opens event webhook) :
    j.Opens event webhook :=
  ⟨h.outboxEventId ▸ hopen.1, h.webhookId ▸ hopen.2.1, h.status ▸ hopen.2.2⟩

/-- Every event stays, with its tenant and its transfer. -/
def EventsKept (t t' : Table PostedEvent.id) : Prop :=
  ∀ i e, t.find? i = some e →
    ∃ e', t'.find? i = some e' ∧ e'.tenantId = e.tenantId ∧ e'.transferId = e.transferId

/-- The events are kept when nothing happens. -/
theorem EventsKept.refl (t : Table PostedEvent.id) : EventsKept t t :=
  fun _ e h => ⟨e, h, rfl, rfl⟩

/-- What makes a replay of an attempt possible: the last attempt of its chain is dead, no job
replays it yet, and there is an approval by another actor that is younger than a day. -/
structure DeliveryRecovery.Admitted (p : DeliveryRecovery) (s : DeliveryDb) (a : DeliveryAttempt)
    (e : PostedEvent) (w : EndpointRow) (approval : DeliveryReplayAction) : Prop where
  attempt : s.attempts.find? p.attempt = some a
  tenant : a.tenantId = p.tenant
  dead : a.status = .dead
  newest : ¬s.Superseded a
  kind : a.deliveryKind = .webhook
  event : a.outboxEventId = some e.id
  source : s.events.find? e.id = some e ∧ e.tenantId = a.tenantId ∧ e.transferId = a.transferId
  endpoint : w.id.text = a.endpointReference
  fresh : ¬∃ x ∈ s.jobs.rows, x.replayOfAttemptId = some p.attempt
  once : ¬∃ r ∈ s.replays.rows, r.attemptId = p.attempt ∧ r.action = .executed
  named : approval ∈ s.replays ∧ approval.action = .approved ∧ approval.attemptId = p.attempt
  live : approval.createdAt ≤ p.time ∧ p.time < approval.createdAt + day
  independent : approval.actorSubjectId ≠ p.actor

/-- The row of an executed replay. -/
def DeliveryRecovery.execution (p : DeliveryRecovery) (approval : DeliveryReplayAction) :
    DeliveryReplayAction :=
  ⟨p.actionId, p.tenant, p.attempt, .executed, p.actor, approval.reasonCode, p.correlation, p.key,
    some ⟨approval.id, approval.actorSubjectId, p.jobId, approval.reasonCode⟩, p.time⟩

/-- What a call does to the events, the jobs, the attempts and the replays. -/
inductive DeliveryEffect (s s' : DeliveryDb) : Prop
  | kept (hevents : EventsKept s.events s'.events)
      (hjobs : ∀ j' ∈ s'.jobs, ∃ j ∈ s.jobs, j.Same j')
      (hattempts : s'.attempts = s.attempts) (hreplays : s'.replays = s.replays)
  | posted (p : EmittedTransfer) (es : List EndpointRow) (hdistinct : (es.map EndpointRow.id).Nodup)
      (hevents : s.events.insert? p.row = some s'.events)
      (hjobs : s.jobs.insertAll? (es.map p.job) = some s'.jobs)
      (hattempts : s'.attempts = s.attempts) (hreplays : s'.replays = s.replays)
  | completed (j : DeliveryJob) (p : DeliveryCompletion) (hj : j ∈ s.jobs)
      (hstatus : j.status.Unsettled) (hnumber : p.attempt = j.attemptNumber)
      (hevents : s'.events = s.events) (hjobs : s'.jobs = s.jobs.replace (j.complete p))
      (hattempts : s.attempts.insert? (j.attempt p) = some s'.attempts)
      (hreplays : s'.replays = s.replays)
  | approved (x : DeliveryReplayAction) (hx : x.action = .approved)
      (hevents : s'.events = s.events) (hjobs : s'.jobs = s.jobs)
      (hattempts : s'.attempts = s.attempts) (hreplays : s.replays.insert? x = some s'.replays)
  | replayed (p : DeliveryRecovery) (a : DeliveryAttempt) (e : PostedEvent) (w : EndpointRow)
      (approval : DeliveryReplayAction) (hadmitted : p.Admitted s a e w approval)
      (hevents : s'.events = s.events) (hjobs : s.jobs.insert? (p.job a e w) = some s'.jobs)
      (hattempts : s'.attempts = s.attempts)
      (hreplays : s.replays.insert? (p.execution approval) = some s'.replays)

/-- Doing nothing is an effect. -/
theorem DeliveryEffect.refl (s : DeliveryDb) : DeliveryEffect s s :=
  .kept (.refl _) (fun j hj => ⟨j, hj, .refl j⟩) rfl rfl

/-- The endpoints that a transfer is delivered to are distinct. -/
theorem nodup_subscribers (s : DeliveryDb) (tenant : Uuid) :
    ((s.subscribers tenant).map EndpointRow.id).Nodup :=
  s.endpoints.nodup.sublist (List.filter_sublist.map _)

/-- An emission adds its event and the jobs of its endpoints. -/
theorem emitTransfer_effect {p : EmittedTransfer} {u : Unit} (h : emitTransfer p s = .ok (u, s')) :
    DeliveryEffect s s' := by
  simp only [emitTransfer, Txn.get_bind_ok, Txn.orRaise_bind_ok, Txn.raiseIf_bind_ok,
    Txn.set_ok] at h
  obtain ⟨events, hevents, -, jobs, hjobs, rfl⟩ := h
  exact .posted p _ (nodup_subscribers s p.tenant) hevents hjobs rfl rfl

/-- A claim changes only the leases of the jobs. -/
theorem claimDelivery_effect {p : DeliveryClaim} {r : List ClaimedDelivery}
    (h : controlledClaimWebhookDeliveryV1 p s = .ok (r, s')) : DeliveryEffect s s' := by
  simp only [controlledClaimWebhookDeliveryV1, Txn.raiseIf_bind_ok, Txn.get_bind_ok,
    Txn.set_bind_ok, Txn.pure_ok] at h
  obtain ⟨-, -, -, rfl⟩ := h
  refine .kept (.refl _) (fun j' hj' => ?_) rfl rfl
  obtain ⟨j, hj, rfl⟩ := List.mem_map.mp hj'
  refine ⟨j, hj, ?_⟩
  split_ifs
  · exact ⟨rfl, rfl, rfl, rfl, rfl, rfl, rfl, rfl⟩
  · exact .refl j

/-- The job that is found under a fence. -/
theorem DeliveryDb.held?_eq_some {f : JobFence} {now : Instant} {j : DeliveryJob} :
    s.held? f now = some j ↔ s.jobs.find? f.job = some j ∧ j.HeldBy f now := by
  unfold DeliveryDb.held?
  rw [Option.filter_eq_some_iff, decide_eq_true_eq]

/-- A renewal changes only the lease of its job. -/
theorem renewDeliveryClaim_effect {sess : Session} {f : JobFence} {lease : ℤ} {clock : LeaseClock}
    {r : Bool} (h : renewDeliveryClaim sess f lease clock s = .ok (r, s')) :
    DeliveryEffect s s' := by
  simp only [renewDeliveryClaim, Txn.raiseIf_bind_ok, Txn.get_bind_ok] at h
  obtain ⟨-, hrenew⟩ := h
  rcases hfound : s.renewing? sess f clock with _ | j
  · rw [hfound] at hrenew
    obtain ⟨-, rfl⟩ := Txn.pure_ok.mp hrenew
    exact .refl s
  · obtain ⟨-, -, hheld⟩ := Option.bind_eq_some_iff.mp hfound
    have hmem := Table.mem_of_find? (DeliveryDb.held?_eq_some.mp hheld).1
    rw [hfound] at hrenew
    simp only [Txn.set_bind_ok, Txn.pure_ok] at hrenew
    obtain ⟨-, rfl⟩ := hrenew
    refine .kept (.refl _) (fun j' hj' => ?_) rfl rfl
    rcases Table.mem_replace hj' with rfl | ⟨hold, -⟩
    · exact ⟨j, hmem, rfl, rfl, rfl, rfl, rfl, rfl, rfl, rfl⟩
    · exact ⟨j', hold, .refl j'⟩

/-- An attempt that is inserted is a new row, and nothing else changes. -/
theorem insertAttempt_ok {a : DeliveryAttempt} {u : Unit} (h : insertAttempt a s = .ok (u, s')) :
    ∃ t, s.attempts.insert? a = some t ∧ s' = { s with attempts := t } := by
  simp only [insertAttempt, Txn.get_bind_ok, Txn.raiseIf_bind_ok, Txn.orRaise_bind_ok,
    Txn.set_ok] at h
  obtain ⟨-, t, ht, rfl⟩ := h
  exact ⟨t, ht, rfl⟩

/-- A completion adds the next attempt of its job, or does nothing. -/
theorem completeDelivery_effect {sess : Session} {f : JobFence} {p : DeliveryCompletion} {r : Bool}
    (h : controlledCompleteDeliveryV1 sess f p s = .ok (r, s')) : DeliveryEffect s s' := by
  simp only [controlledCompleteDeliveryV1, Txn.raiseIf_bind_ok, Txn.get_bind_ok] at h
  obtain ⟨-, hcomplete⟩ := h
  rcases hfound : s.completing? sess f p with _ | j
  · rw [hfound] at hcomplete
    obtain ⟨-, rfl⟩ := Txn.pure_ok.mp hcomplete
    exact .refl s
  obtain ⟨hheld, hscope⟩ := Option.filter_eq_some_iff.mp hfound
  obtain ⟨-, -, hnumber⟩ := of_decide_eq_true hscope
  obtain ⟨hj, -, -, -, hstatus⟩ := DeliveryDb.held?_eq_some.mp hheld
  rw [hfound] at hcomplete
  obtain ⟨_, s₁, hattempt, hrest⟩ := Txn.bind_ok.mp hcomplete
  obtain ⟨t, ht, rfl⟩ := insertAttempt_ok hattempt
  simp only [Txn.raiseIf_bind_ok, Txn.get_bind_ok, Txn.set_bind_ok, Txn.pure_ok] at hrest
  obtain ⟨-, -, -, rfl⟩ := hrest
  exact .completed j p (Table.mem_of_find? hj) hstatus hnumber rfl rfl ht rfl

/-- A replay action that is inserted is a new row with a new correlation, the only execution of its
attempt. -/
theorem insertDeliveryReplay_ok {x : DeliveryReplayAction} {u : Unit}
    (h : insertDeliveryReplay x s = .ok (u, s')) :
    (¬∃ r ∈ s.replays.rows, r.attemptId = x.attemptId ∧ r.action = x.action ∧
        (r.correlationId = x.correlationId ∨ x.action = .executed)) ∧
      ∃ t, s.replays.insert? x = some t ∧ s' = { s with replays := t } := by
  simp only [insertDeliveryReplay, Txn.get_bind_ok, Txn.raiseIf_bind_ok, Txn.orRaise_bind_ok,
    Txn.set_ok] at h
  obtain ⟨honce, t, ht, rfl⟩ := h
  exact ⟨honce, t, ht, rfl⟩

/-- The checks of a recovery change nothing. -/
theorem beginDeliveryRecovery_ok {sess : Session} {p : DeliveryRecovery} {u : Unit}
    (h : beginDeliveryRecovery sess p s = .ok (u, s')) : s' = s := by
  simp only [beginDeliveryRecovery, Txn.get_bind_ok, Txn.raiseIf_bind_ok, Txn.raiseIf_ok] at h
  exact h.2.2.symm

/-- An approval adds its replay action, or does nothing. -/
theorem approveDeliveryRecovery_effect {sess : Session} {p : DeliveryRecovery} {r : Uuid × Bool}
    (h : approveDeliveryRecovery sess p s = .ok (r, s')) : DeliveryEffect s s' := by
  obtain ⟨_, s₁, hbegin, happrove⟩ := Txn.bind_ok.mp h
  obtain rfl := beginDeliveryRecovery_ok hbegin
  simp only [Txn.raiseIf_bind_ok, Txn.get_bind_ok] at happrove
  obtain ⟨-, -, hrest⟩ := happrove
  rcases hfound : s₁.approvedBy? p with _ | x
  · rw [hfound] at hrest
    obtain ⟨_, s₂, hinsert, hpure⟩ := Txn.bind_ok.mp hrest
    obtain ⟨-, rfl⟩ := Txn.pure_ok.mp hpure
    obtain ⟨-, t, ht, rfl⟩ := insertDeliveryReplay_ok hinsert
    exact .approved _ rfl rfl rfl rfl ht
  · rw [hfound] at hrest
    simp only [Txn.raiseIf_bind_ok, Txn.pure_ok] at hrest
    obtain ⟨-, -, rfl⟩ := hrest
    exact .refl _

/-- The event and the endpoint of an attempt. -/
theorem source?_eq_some {a : DeliveryAttempt} {e : PostedEvent} {w : EndpointRow}
    (h : s.source? a = some (e, w)) :
    a.outboxEventId = some e.id ∧
      (s.events.find? e.id = some e ∧ e.tenantId = a.tenantId ∧ e.transferId = a.transferId) ∧
      w.id.text = a.endpointReference := by
  obtain ⟨x, hx, hmap⟩ := Option.bind_eq_some_iff.mp h
  obtain ⟨y, hy, heq⟩ := Option.map_eq_some_iff.mp hmap
  obtain ⟨rfl, rfl⟩ := Prod.mk.inj heq
  obtain ⟨hevent, hmatch⟩ := Option.filter_eq_some_iff.mp hx
  obtain ⟨htenant, htransfer, -⟩ := of_decide_eq_true hmatch
  obtain ⟨i, hi, hfind⟩ := Option.bind_eq_some_iff.mp hevent
  have hid : x.id = i := Table.key_of_find? hfind
  have hendpoint := List.find?_some hy
  exact ⟨by rw [hi, hid], ⟨by rw [hid, hfind], htenant, htransfer⟩, (of_decide_eq_true hendpoint).2⟩

/-- The live approval that a caller names. -/
theorem liveApproval?_eq_some {p : DeliveryRecovery} {x : DeliveryReplayAction}
    (h : s.liveApproval? p = some x) :
    (x ∈ s.replays ∧ x.action = .approved ∧ x.attemptId = p.attempt) ∧
      x.createdAt ≤ p.time ∧ p.time < x.createdAt + day := by
  obtain ⟨hnamed, hlive⟩ := Option.filter_eq_some_iff.mp h
  obtain ⟨hbind, hmatch⟩ := Option.filter_eq_some_iff.mp hnamed
  obtain ⟨i, -, hfind⟩ := Option.bind_eq_some_iff.mp hbind
  obtain ⟨-, hattempt, haction⟩ := of_decide_eq_true hmatch
  exact ⟨⟨Table.mem_of_find? hfind, haction, hattempt⟩, of_decide_eq_true hlive⟩

/-- A job of a replay that is inserted is a new row, the only one of its attempt. -/
theorem insertReplayJob_ok {j : DeliveryJob} {u : Unit} (h : insertReplayJob j s = .ok (u, s')) :
    (¬∃ x ∈ s.jobs.rows, x.replayOfAttemptId ≠ none ∧ x.replayOfAttemptId = j.replayOfAttemptId) ∧
      ∃ t, s.jobs.insert? j = some t ∧ s' = { s with jobs := t } := by
  simp only [insertReplayJob, Txn.get_bind_ok, Txn.raiseIf_bind_ok, Txn.orRaise_bind_ok,
    Txn.set_ok] at h
  obtain ⟨-, hfresh, t, ht, rfl⟩ := h
  exact ⟨hfresh, t, ht, rfl⟩

/-- An execution adds a job for the attempt that it replays, or does nothing. -/
theorem executeReplay_effect {p : DeliveryRecovery} {r : Option Uuid × Bool}
    (h : executeReplay p s = .ok (r, s')) : DeliveryEffect s s' := by
  simp only [executeReplay, Txn.get_bind_ok, Txn.orRaise_bind_ok, Txn.raiseIf_bind_ok] at h
  obtain ⟨approval, hlive, hindependent, a, hdead, hsource, ⟨e, w⟩, hfound, hrest⟩ := h
  obtain ⟨hattempt, hstate⟩ := Option.filter_eq_some_iff.mp hdead
  obtain ⟨htenant, hstatus⟩ := of_decide_eq_true hstate
  obtain ⟨hevent, hposted, hendpoint⟩ := source?_eq_some hfound
  obtain ⟨happroval, hyoung⟩ := liveApproval?_eq_some hlive
  simp only [not_or, not_not] at hsource
  obtain ⟨hnewest, hkind, -⟩ := hsource
  obtain ⟨_, s₁, hjob, hreplay⟩ := Txn.bind_ok.mp hrest
  obtain ⟨hfresh, t, ht, rfl⟩ := insertReplayJob_ok hjob
  obtain ⟨_, s₂, hinsert, hpure⟩ := Txn.bind_ok.mp hreplay
  obtain ⟨-, rfl⟩ := Txn.pure_ok.mp hpure
  obtain ⟨honce, t', ht', rfl⟩ := insertDeliveryReplay_ok hinsert
  -- What the checks found out is the admission.
  refine .replayed p a e w approval
    { attempt := hattempt
      tenant := htenant
      dead := hstatus
      newest := hnewest
      kind := hkind
      event := hevent
      source := hposted
      endpoint := hendpoint
      fresh := ?_
      once := ?_
      named := happroval
      live := hyoung
      independent := hindependent } rfl ht rfl ht'
  · rintro ⟨x, hx, hreplays⟩
    exact hfresh ⟨x, hx, by rw [hreplays]; exact Option.some_ne_none _, hreplays⟩
  · rintro ⟨x, hx, hsame, haction⟩
    exact honce ⟨x, hx, hsame, haction, .inr rfl⟩

/-- A recovery is such an execution, or does nothing. -/
theorem executeDeliveryRecovery_effect {sess : Session} {p : DeliveryRecovery}
    {r : Option Uuid × Bool} (h : executeDeliveryRecovery sess p s = .ok (r, s')) :
    DeliveryEffect s s' := by
  obtain ⟨_, s₁, hbegin, hexecute⟩ := Txn.bind_ok.mp h
  obtain rfl := beginDeliveryRecovery_ok hbegin
  rw [Txn.get_bind] at hexecute
  rcases hfound : s₁.executed? p with _ | x
  · rw [hfound] at hexecute
    exact executeReplay_effect hexecute
  · rw [hfound] at hexecute
    simp only [Txn.raiseIf_bind_ok, Txn.pure_ok] at hexecute
    obtain ⟨-, -, rfl⟩ := hexecute
    exact .refl _

/-- Every call has an effect of these. -/
theorem DeliveryCall.exec_effect {c : DeliveryCall} {u : Unit} (h : c.exec s = .ok (u, s')) :
    DeliveryEffect s s' := by
  -- Each call has the effect of its procedure; the last three change nothing of the chains.
  cases c with
  | post p => exact emitTransfer_effect h
  | claim p =>
    obtain ⟨r, hr⟩ := Txn.discard_ok.mp h
    exact claimDelivery_effect hr
  | renew sess f lease clock =>
    obtain ⟨r, hr⟩ := Txn.discard_ok.mp h
    exact renewDeliveryClaim_effect hr
  | complete sess f p =>
    obtain ⟨r, hr⟩ := Txn.discard_ok.mp h
    exact completeDelivery_effect hr
  | approve sess p =>
    obtain ⟨r, hr⟩ := Txn.discard_ok.mp h
    exact approveDeliveryRecovery_effect hr
  | execute sess p =>
    obtain ⟨r, hr⟩ := Txn.discard_ok.mp h
    exact executeDeliveryRecovery_effect hr
  | roles l =>
    simp only [DeliveryCall.exec, Txn.get_bind_ok, Txn.set_ok] at h
    subst h
    exact .kept (.refl _) (fun j hj => ⟨j, hj, .refl j⟩) rfl rfl
  | endpoints t =>
    simp only [DeliveryCall.exec, Txn.get_bind_ok, Txn.set_ok] at h
    subst h
    exact .kept (.refl _) (fun j hj => ⟨j, hj, .refl j⟩) rfl rfl
  | publication published dead =>
    simp only [DeliveryCall.exec, setPublication, Txn.get_bind_ok, Txn.set_ok] at h
    subst h
    refine .kept (fun i e he => ?_) (fun j hj => ⟨j, hj, .refl j⟩) rfl rfl
    refine ⟨{ e with publishedAt := published e.id, deadAt := dead e.id }, ?_, rfl, rfl⟩
    rw [Table.find?_mapRows, he]
    rfl

/-! ## Events, jobs and attempts -/

/-- A call keeps the events. -/
theorem DeliveryEffect.events (h : DeliveryEffect s s') : EventsKept s.events s'.events := by
  cases h with
  | kept hevents hjobs hattempts hreplays => exact hevents
  | posted p es hdistinct hevents hjobs hattempts hreplays =>
    exact fun i e he => ⟨e, Table.find?_insert?_of_some hevents he, rfl, rfl⟩
  | completed j p hj hstatus hnumber hevents hjobs hattempts hreplays => rw [hevents]; exact .refl _
  | approved x hx hevents hjobs hattempts hreplays => rw [hevents]; exact .refl _
  | replayed p a e w approval hadmitted hevents hjobs hattempts hreplays =>
    rw [hevents]
    exact .refl _

/-- Every job after a call has its event. -/
theorem DeliveryEffect.linked_job (h : DeliveryEffect s s') (hs : s.Linked) :
    ∀ j ∈ s'.jobs, ∃ e, s'.events.find? j.outboxEventId = some e ∧ e.tenantId = j.tenantId ∧
      e.transferId = j.transferId := by
  -- The events of the old jobs are kept.
  have hold : ∀ j ∈ s.jobs, ∃ e, s'.events.find? j.outboxEventId = some e ∧
      e.tenantId = j.tenantId ∧ e.transferId = j.transferId := by
    intro j hj
    obtain ⟨e, he, htenant, htransfer⟩ := hs.job j hj
    obtain ⟨e', he', htenant', htransfer'⟩ := h.events _ e he
    exact ⟨e', he', htenant'.trans htenant, htransfer'.trans htransfer⟩
  cases h with
  | kept hevents hjobs hattempts hreplays =>
    intro j' hj'
    obtain ⟨j, hj, hsame⟩ := hjobs j' hj'
    rw [hsame.outboxEventId, hsame.tenantId, hsame.transferId]
    exact hold j hj
  | posted p es hdistinct hevents hjobs hattempts hreplays =>
    -- The jobs of a posted transfer are of the event that it stores.
    intro j hj
    rcases (Table.mem_insertAll? hjobs).mp hj with hnew | hj
    · obtain ⟨w, -, rfl⟩ := List.mem_map.mp hnew
      exact ⟨p.row, Table.find?_insert?_self hevents rfl, rfl, rfl⟩
    · exact hold j hj
  | completed j p hj hstatus hnumber hevents hjobs hattempts hreplays =>
    intro j' hj'
    rw [hjobs] at hj'
    rcases Table.mem_replace hj' with rfl | ⟨hmem, -⟩
    · exact hold j hj
    · exact hold j' hmem
  | approved x hx hevents hjobs hattempts hreplays =>
    intro j hj
    rw [hjobs] at hj
    exact hold j hj
  | replayed p a e w approval hadmitted hevents hjobs hattempts hreplays =>
    -- A job for a replay is of the event of the attempt that it replays.
    intro j hj
    rcases (Table.mem_insert? hjobs).mp hj with rfl | hj
    · obtain ⟨he, htenant, htransfer⟩ := hadmitted.source
      exact ⟨e, by rw [hevents]; exact he, htenant.trans hadmitted.tenant, htransfer⟩
    · exact hold j hj

/-- Every attempt after a call has the event that it names. -/
theorem DeliveryEffect.linked_attempt (h : DeliveryEffect s s') (hs : s.Linked) :
    ∀ a ∈ s'.attempts, ∀ event, a.outboxEventId = some event →
      ∃ e, s'.events.find? event = some e ∧ e.tenantId = a.tenantId ∧
        e.transferId = a.transferId := by
  -- The events of the old attempts are kept.
  have hold : ∀ a ∈ s.attempts, ∀ event, a.outboxEventId = some event →
      ∃ e, s'.events.find? event = some e ∧ e.tenantId = a.tenantId ∧
        e.transferId = a.transferId := by
    intro a ha event hevent
    obtain ⟨e, he, htenant, htransfer⟩ := hs.attempt a ha event hevent
    obtain ⟨e', he', htenant', htransfer'⟩ := h.events _ e he
    exact ⟨e', he', htenant'.trans htenant, htransfer'.trans htransfer⟩
  cases h with
  | kept hevents hjobs hattempts hreplays => rw [hattempts]; exact hold
  | posted p es hdistinct hevents hjobs hattempts hreplays => rw [hattempts]; exact hold
  | completed j p hj hstatus hnumber hevents hjobs hattempts hreplays =>
    intro a ha event hevent
    -- The new attempt is of the event of its job.
    rcases (Table.mem_insert? hattempts).mp ha with rfl | ha
    · obtain rfl : j.outboxEventId = event := Option.some.inj hevent
      rw [hevents]
      exact hs.job j hj
    · exact hold a ha event hevent
  | approved x hx hevents hjobs hattempts hreplays => rw [hattempts]; exact hold
  | replayed p a e w approval hadmitted hevents hjobs hattempts hreplays =>
    rw [hattempts]
    exact hold

/-- A call keeps jobs and attempts linked to their events. -/
theorem DeliveryEffect.linked (h : DeliveryEffect s s') (hs : s.Linked) : s'.Linked :=
  ⟨h.linked_job hs, h.linked_attempt hs⟩

/-! ## Every call keeps the chains -/

/-- A chain is kept when its attempts are, and every job that is open for it was open before. -/
theorem DeliveryDb.Chained.keep (hs : s.Chained event webhook)
    (hchain : s'.chain event webhook = s.chain event webhook)
    (hjobs : ∀ j' ∈ s'.jobs, j'.Opens event webhook → ∃ j ∈ s.jobs, j.Same j') :
    s'.Chained event webhook where
  numbered := by rw [hchain]; exact hs.numbered
  earlier := by rw [hchain]; exact hs.earlier
  single := by
    -- Two open jobs would have been open before.
    intro j₁' h₁' j₂' h₂' hopen₁ hopen₂
    obtain ⟨j₁, h₁, hsame₁⟩ := hjobs j₁' h₁' hopen₁
    obtain ⟨j₂, h₂, hsame₂⟩ := hjobs j₂' h₂' hopen₂
    have heq := hs.single j₁ h₁ j₂ h₂ (hsame₁.opens hopen₁) (hsame₂.opens hopen₂)
    refine Table.eq_of_key h₁' h₂' ?_
    rw [hsame₁.id, hsame₂.id, heq]
  next := by
    intro j' hj' hopen
    obtain ⟨j, hj, hsame⟩ := hjobs j' hj' hopen
    rw [hchain, hsame.attemptNumber]
    exact hs.next j hj (hsame.opens hopen)
  last := by
    intro j' hj' hopen
    obtain ⟨j, hj, hsame⟩ := hjobs j' hj' hopen
    rw [hchain, hsame.replayOfAttemptId]
    exact hs.last j hj (hsame.opens hopen)

/-- The jobs of a new event start its chains. -/
theorem DeliveryDb.Linked.chained_posted (hs : s.Linked) {p : EmittedTransfer}
    {es : List EndpointRow} (hdistinct : (es.map EndpointRow.id).Nodup)
    (hevents : s.events.insert? p.row = some s'.events)
    (hjobs : s.jobs.insertAll? (es.map p.job) = some s'.jobs)
    (hattempts : s'.attempts = s.attempts) : s'.Chained p.event webhook := by
  have hfree : s.events.find? p.event = none := (Table.insert?_eq_some.mp hevents).1
  -- Neither an attempt nor a job refers to an event that was not there.
  have hempty : s'.chain p.event webhook = [] := by
    rw [List.eq_nil_iff_forall_not_mem]
    intro a ha
    obtain ⟨hmem, hof, -⟩ := mem_chain.mp ha
    rw [hattempts] at hmem
    obtain ⟨e, he, -⟩ := hs.attempt a hmem p.event hof
    rw [hfree] at he
    cases he
  have hnew : ∀ j ∈ s'.jobs, j.Opens p.event webhook → ∃ w ∈ es, j = p.job w ∧ w.id = webhook := by
    rintro j hj ⟨hevent, hwebhook, -⟩
    rcases (Table.mem_insertAll? hjobs).mp hj with hnew | hold
    · obtain ⟨w, hw, rfl⟩ := List.mem_map.mp hnew
      exact ⟨w, hw, rfl, hwebhook⟩
    · obtain ⟨e, he, -⟩ := hs.job j hold
      rw [hevent, hfree] at he
      cases he
  refine ⟨by rw [hempty]; exact numbered_nil, ?_, ?_, ?_, ?_⟩
  · rw [hempty]
    intro a ha
    cases ha
  · intro j₁ h₁ j₂ h₂ hopen₁ hopen₂
    obtain ⟨w₁, hw₁, rfl, hid₁⟩ := hnew j₁ h₁ hopen₁
    obtain ⟨w₂, hw₂, rfl, hid₂⟩ := hnew j₂ h₂ hopen₂
    rw [List.inj_on_of_nodup_map hdistinct hw₁ hw₂ (hid₁.trans hid₂.symm)]
  · intro j hj hopen
    obtain ⟨w, -, rfl, -⟩ := hnew j hj hopen
    rw [hempty]
    rfl
  · intro j _ _ a ha
    rw [hempty] at ha
    cases ha

/-- The attempt of a job is one of its chain. -/
theorem DeliveryJob.attempt_of {j : DeliveryJob} {p : DeliveryCompletion} :
    (j.attempt p).Of event webhook ↔ j.outboxEventId = event ∧ j.webhookId = webhook := by
  constructor
  · rintro ⟨hevent, -, hwebhook⟩
    exact ⟨Option.some.inj hevent, Uuid.text_inj.mp hwebhook⟩
  · rintro ⟨rfl, rfl⟩
    exact ⟨rfl, rfl, rfl⟩

/-- A completion appends the attempt of its job, and gives the job the next number or settles it. -/
theorem DeliveryDb.Chained.completed {j : DeliveryJob} {p : DeliveryCompletion}
    (hs : s.Chained j.outboxEventId j.webhookId) (hj : j ∈ s.jobs) (hstatus : j.status.Unsettled)
    (hnumber : p.attempt = j.attemptNumber) (hjobs : s'.jobs = s.jobs.replace (j.complete p))
    (hattempts : s.attempts.insert? (j.attempt p) = some s'.attempts) :
    s'.Chained j.outboxEventId j.webhookId := by
  have hopen : j.Opens j.outboxEventId j.webhookId := ⟨rfl, rfl, hstatus⟩
  have hnext := hs.next j hj hopen
  have hchain : s'.chain j.outboxEventId j.webhookId =
      s.chain j.outboxEventId j.webhookId ++ [j.attempt p] := by
    rw [chain_insert hattempts, if_pos (DeliveryJob.attempt_of.mpr ⟨rfl, rfl⟩)]
  -- The completed job is the only one that can still be open.
  have honly : ∀ x ∈ s'.jobs, x.Opens j.outboxEventId j.webhookId → x = j.complete p := by
    intro x hx hopenx
    rw [hjobs] at hx
    rcases Table.mem_replace hx with rfl | ⟨hold, hne⟩
    · rfl
    · exact absurd (congrArg DeliveryJob.id (hs.single x hold j hj hopenx hopen)) hne
  have hretry : (j.complete p).Opens j.outboxEventId j.webhookId → p.status = .retrying := by
    rintro ⟨-, -, hunsettled⟩
    cases houtcome : p.status with
    | retrying => rfl
    | delivered => simp [DeliveryJob.complete, houtcome, DeliveryOutcome.status,
        DeliveryStatus.Unsettled] at hunsettled
    | dead => simp [DeliveryJob.complete, houtcome, DeliveryOutcome.status,
        DeliveryStatus.Unsettled] at hunsettled
  refine ⟨?_, ?_, ?_, ?_, ?_⟩
  · rw [hchain]
    exact hs.numbered.append (hnumber.trans hnext)
  · rw [hchain, List.dropLast_concat]
    exact hs.repeatable hj hopen
  · intro x hx y hy hopenx hopeny
    rw [honly x hx hopenx, honly y hy hopeny]
  · intro x hx hopenx
    obtain rfl := honly x hx hopenx
    have hnumber' : (j.complete p).attemptNumber = j.attemptNumber + 1 := if_pos (hretry hopenx)
    rw [hnumber', hchain, List.length_append, List.length_singleton, hnext]
    push_cast
    ring
  · intro x hx hopenx a ha
    obtain rfl := honly x hx hopenx
    rw [hchain, List.getLast?_concat] at ha
    obtain rfl := Option.some.inj ha
    have hattempt : (j.attempt p).status = p.status.status := rfl
    rw [hattempt, hretry hopenx]
    exact .inl rfl

/-- The attempt of an admitted replay is the last of its chain. -/
theorem DeliveryRecovery.Admitted.last {p : DeliveryRecovery} {a : DeliveryAttempt} {e : PostedEvent}
    {w : EndpointRow} {approval : DeliveryReplayAction} (h : p.Admitted s a e w approval)
    (hlinked : s.Linked) (hs : s.Chained e.id w.id) :
    (s.chain e.id w.id).getLast? = some a ∧ a.attemptNumber = (s.chain e.id w.id).length := by
  have hof : a.Of e.id w.id := ⟨h.event, h.kind, h.endpoint.symm⟩
  refine hs.numbered.getLast?_of_max (mem_chain.mpr ⟨Table.mem_of_find? h.attempt, hof⟩) ?_
  intro b hb
  obtain ⟨hmem, hevent, hkind, hreference⟩ := mem_chain.mp hb
  -- The attempts of one event have its tenant and its transfer.
  obtain ⟨e', he', htenant, htransfer⟩ := hlinked.attempt b hmem e.id hevent
  rw [h.source.1] at he'
  obtain rfl := Option.some.inj he'
  by_contra hlt
  exact h.newest ⟨b, hmem, htenant.symm.trans h.source.2.1, htransfer.symm.trans h.source.2.2,
    hkind.trans h.kind.symm, hreference.trans h.endpoint, not_le.mp hlt⟩

/-- A replay is the only open job of its chain. -/
theorem DeliveryDb.Chained.replayed {p : DeliveryRecovery} {a : DeliveryAttempt} {e : PostedEvent}
    {w : EndpointRow} {approval : DeliveryReplayAction} (hs : s.Chained e.id w.id)
    (hlinked : s.Linked) (hadmitted : p.Admitted s a e w approval)
    (hjobs : s.jobs.insert? (p.job a e w) = some s'.jobs) (hattempts : s'.attempts = s.attempts) :
    s'.Chained e.id w.id := by
  obtain ⟨hlast, hnumber⟩ := hadmitted.last hlinked hs
  have hid : a.id = p.attempt := Table.key_of_find? hadmitted.attempt
  have hchain : s'.chain e.id w.id = s.chain e.id w.id := by
    unfold DeliveryDb.chain
    rw [hattempts]
  have honly : ∀ x ∈ s'.jobs, x.Opens e.id w.id → x = p.job a e w := by
    intro x hx hopen
    rcases (Table.mem_insert? hjobs).mp hx with rfl | hold
    · rfl
    · -- A job that was open before would be a replay of the same dead attempt.
      rcases hs.last x hold hopen a hlast with hretrying | ⟨-, hreplays⟩
      · rw [hadmitted.dead] at hretrying
        cases hretrying
      · exact absurd ⟨x, hold, hid ▸ hreplays⟩ hadmitted.fresh
  refine ⟨by rw [hchain]; exact hs.numbered, by rw [hchain]; exact hs.earlier, ?_, ?_, ?_⟩
  -- So no other job is open, and the new one has the next number behind a dead attempt.
  · intro x hx y hy hopenx hopeny
    rw [honly x hx hopenx, honly y hy hopeny]
  · intro x hx hopen
    obtain rfl := honly x hx hopen
    have hjob : (p.job a e w).attemptNumber = a.attemptNumber + 1 := rfl
    rw [hchain, hjob, hnumber]
  · intro x hx hopen b hb
    obtain rfl := honly x hx hopen
    rw [hchain, hlast] at hb
    obtain rfl := Option.some.inj hb
    exact .inr ⟨hadmitted.dead, congrArg some hid.symm⟩

/-- A call keeps every chain numbered without gaps and at most one of its jobs open. -/
theorem DeliveryEffect.chained (h : DeliveryEffect s s') (hlinked : s.Linked)
    (hs : ∀ event webhook, s.Chained event webhook) (event webhook : Uuid) :
    s'.Chained event webhook := by
  have hsame : s'.attempts = s.attempts → s'.chain event webhook = s.chain event webhook := by
    intro hattempts
    unfold DeliveryDb.chain
    rw [hattempts]
  cases h with
  | kept hevents hjobs hattempts hreplays =>
    exact (hs event webhook).keep (hsame hattempts) fun j hj _ => hjobs j hj
  | posted p es hdistinct hevents hjobs hattempts hreplays =>
    -- Only the chains of the new event change.
    by_cases hevent : event = p.event
    · subst hevent
      exact hlinked.chained_posted hdistinct hevents hjobs hattempts
    · refine (hs event webhook).keep (hsame hattempts) fun j hj hopen => ?_
      rcases (Table.mem_insertAll? hjobs).mp hj with hnew | hold
      · obtain ⟨w, -, rfl⟩ := List.mem_map.mp hnew
        exact absurd hopen.1.symm hevent
      · exact ⟨j, hold, .refl j⟩
  | completed j p hj hstatus hnumber hevents hjobs hattempts hreplays =>
    -- Only the chain of the job that is completed changes.
    by_cases hpair : j.outboxEventId = event ∧ j.webhookId = webhook
    · obtain ⟨rfl, rfl⟩ := hpair
      exact (hs _ _).completed hj hstatus hnumber hjobs hattempts
    · have hchain : s'.chain event webhook = s.chain event webhook := by
        rw [chain_insert hattempts, if_neg fun hof => hpair (DeliveryJob.attempt_of.mp hof)]
      refine (hs event webhook).keep hchain fun x hx hopen => ?_
      rw [hjobs] at hx
      rcases Table.mem_replace hx with rfl | ⟨hold, -⟩
      · exact absurd ⟨hopen.1, hopen.2.1⟩ hpair
      · exact ⟨x, hold, .refl x⟩
  | approved x hx hevents hjobs hattempts hreplays =>
    exact (hs event webhook).keep (hsame hattempts) fun j hj _ => ⟨j, hjobs ▸ hj, .refl j⟩
  | replayed p a e w approval hadmitted hevents hjobs hattempts hreplays =>
    -- Only the chain of the attempt that is replayed changes.
    by_cases hpair : e.id = event ∧ w.id = webhook
    · obtain ⟨rfl, rfl⟩ := hpair
      exact (hs _ _).replayed hlinked hadmitted hjobs hattempts
    · refine (hs event webhook).keep (hsame hattempts) fun x hx hopen => ?_
      rcases (Table.mem_insert? hjobs).mp hx with rfl | hold
      · exact absurd ⟨hopen.1, hopen.2.1⟩ hpair
      · exact ⟨x, hold, .refl x⟩

/-! ## Replays -/

/-- Every executed replay is of a dead attempt and has an approval by another actor that is younger
than a day; an attempt is replayed at most once, by one execution and one job. -/
structure DeliveryDb.Replayed (s : DeliveryDb) : Prop where
  approved : ∀ x ∈ s.replays, x.action = .executed → ∃ y ∈ s.replays, y.action = .approved ∧
    y.attemptId = x.attemptId ∧ y.actorSubjectId ≠ x.actorSubjectId ∧
    y.createdAt ≤ x.createdAt ∧ x.createdAt < y.createdAt + day
  dead : ∀ x ∈ s.replays, x.action = .executed →
    ∃ a, s.attempts.find? x.attemptId = some a ∧ a.status = .dead
  once : ∀ x ∈ s.replays, ∀ y ∈ s.replays, x.action = .executed → y.action = .executed →
    x.attemptId = y.attemptId → x = y
  job : ∀ j ∈ s.jobs, ∀ j' ∈ s.jobs, ∀ i, j.replayOfAttemptId = some i →
    j'.replayOfAttemptId = some i → j = j'

/-- No attempt is changed. -/
theorem DeliveryEffect.attempts (h : DeliveryEffect s s') {i : Uuid} {a : DeliveryAttempt}
    (ha : s.attempts.find? i = some a) : s'.attempts.find? i = some a := by
  cases h with
  | kept hevents hjobs hattempts hreplays => rw [hattempts, ha]
  | posted p es hdistinct hevents hjobs hattempts hreplays => rw [hattempts, ha]
  | completed j p hj hstatus hnumber hevents hjobs hattempts hreplays =>
    exact Table.find?_insert?_of_some hattempts ha
  | approved x hx hevents hjobs hattempts hreplays => rw [hattempts, ha]
  | replayed p a e w approval hadmitted hevents hjobs hattempts hreplays => rw [hattempts, ha]

/-- An executed replay is an old one, or the one of an admitted request. -/
theorem DeliveryEffect.executed (h : DeliveryEffect s s') {x : DeliveryReplayAction}
    (hx : x ∈ s'.replays) (haction : x.action = .executed) :
    x ∈ s.replays ∨ ∃ (p : DeliveryRecovery) (a : DeliveryAttempt) (e : PostedEvent)
      (w : EndpointRow) (approval : DeliveryReplayAction),
      p.Admitted s a e w approval ∧ x = p.execution approval := by
  cases h with
  | kept hevents hjobs hattempts hreplays => exact .inl (hreplays ▸ hx)
  | posted p es hdistinct hevents hjobs hattempts hreplays => exact .inl (hreplays ▸ hx)
  | completed j p hj hstatus hnumber hevents hjobs hattempts hreplays => exact .inl (hreplays ▸ hx)
  | approved y hy hevents hjobs hattempts hreplays =>
    rcases (Table.mem_insert? hreplays).mp hx with rfl | hold
    · rw [hy] at haction
      cases haction
    · exact .inl hold
  | replayed p a e w approval hadmitted hevents hjobs hattempts hreplays =>
    rcases (Table.mem_insert? hreplays).mp hx with rfl | hold
    · exact .inr ⟨p, a, e, w, approval, hadmitted, rfl⟩
    · exact .inl hold

/-- No replay action is changed. -/
theorem DeliveryEffect.mem_replays (h : DeliveryEffect s s') {x : DeliveryReplayAction}
    (hx : x ∈ s.replays) : x ∈ s'.replays := by
  cases h with
  | kept hevents hjobs hattempts hreplays => rw [hreplays]; exact hx
  | posted p es hdistinct hevents hjobs hattempts hreplays => rw [hreplays]; exact hx
  | completed j p hj hstatus hnumber hevents hjobs hattempts hreplays => rw [hreplays]; exact hx
  | approved y hy hevents hjobs hattempts hreplays => exact (Table.mem_insert? hreplays).mpr (.inr hx)
  | replayed p a e w approval hadmitted hevents hjobs hattempts hreplays =>
    exact (Table.mem_insert? hreplays).mpr (.inr hx)

/-- A job with a replayed attempt is an old one, or the one of an admitted request. -/
theorem DeliveryEffect.replay_job (h : DeliveryEffect s s') {j : DeliveryJob} {i : Uuid}
    (hj : j ∈ s'.jobs) (hreplay : j.replayOfAttemptId = some i) :
    (∃ x ∈ s.jobs, x.id = j.id ∧ x.replayOfAttemptId = some i) ∨
      (s.jobs.insert? j = some s'.jobs ∧ ¬∃ x ∈ s.jobs.rows, x.replayOfAttemptId = some i) := by
  cases h with
  | kept hevents hjobs hattempts hreplays =>
    -- Only a replay makes a job that replays an attempt.
    obtain ⟨x, hx, hsame⟩ := hjobs j hj
    exact .inl ⟨x, hx, hsame.id.symm, hsame.replayOfAttemptId ▸ hreplay⟩
  | posted p es hdistinct hevents hjobs hattempts hreplays =>
    rcases (Table.mem_insertAll? hjobs).mp hj with hnew | hold
    · obtain ⟨w, -, rfl⟩ := List.mem_map.mp hnew
      cases hreplay
    · exact .inl ⟨j, hold, rfl, hreplay⟩
  | completed x p hx hstatus hnumber hevents hjobs hattempts hreplays =>
    rw [hjobs] at hj
    rcases Table.mem_replace hj with rfl | ⟨hold, -⟩
    · exact .inl ⟨x, hx, rfl, hreplay⟩
    · exact .inl ⟨j, hold, rfl, hreplay⟩
  | approved x hx hevents hjobs hattempts hreplays => exact .inl ⟨j, hjobs ▸ hj, rfl, hreplay⟩
  | replayed p a e w approval hadmitted hevents hjobs hattempts hreplays =>
    rcases (Table.mem_insert? hjobs).mp hj with rfl | hold
    · obtain rfl : p.attempt = i := Option.some.inj hreplay
      exact .inr ⟨hjobs, hadmitted.fresh⟩
    · exact .inl ⟨j, hold, rfl, hreplay⟩

/-- After a call an attempt has at most one job that replays it. -/
theorem DeliveryEffect.replayed_job (h : DeliveryEffect s s') (hs : s.Replayed) :
    ∀ j ∈ s'.jobs, ∀ j' ∈ s'.jobs, ∀ i, j.replayOfAttemptId = some i →
      j'.replayOfAttemptId = some i → j = j' := by
  intro j hj j' hj' i hreplay hreplay'
  rcases h.replay_job hj hreplay with ⟨x, hx, hid, hxi⟩ | ⟨hinsert, hfresh⟩
  · rcases h.replay_job hj' hreplay' with ⟨y, hy, hid', hyi⟩ | ⟨-, hfresh'⟩
    · have hxy := hs.job x hx y hy i hxi hyi
      exact Table.eq_of_key hj hj' (by rw [← hid, ← hid', hxy])
    · exact absurd ⟨x, hx, hxi⟩ hfresh'
  · rcases h.replay_job hj' hreplay' with ⟨y, hy, -, hyi⟩ | ⟨hinsert', -⟩
    · exact absurd ⟨y, hy, hyi⟩ hfresh
    · have hrows := (Table.insert?_eq_some.mp hinsert).2
      rw [(Table.insert?_eq_some.mp hinsert').2] at hrows
      exact (List.cons.inj hrows).1.symm

/-- After a call an attempt has at most one executed replay. -/
theorem DeliveryEffect.replayed_once (h : DeliveryEffect s s') (hs : s.Replayed) :
    ∀ x ∈ s'.replays, ∀ y ∈ s'.replays, x.action = .executed → y.action = .executed →
      x.attemptId = y.attemptId → x = y := by
  cases h with
  | kept hevents hjobs hattempts hreplays => rw [hreplays]; exact hs.once
  | posted p es hdistinct hevents hjobs hattempts hreplays => rw [hreplays]; exact hs.once
  | completed j p hj hstatus hnumber hevents hjobs hattempts hreplays => rw [hreplays]; exact hs.once
  | approved z hz hevents hjobs hattempts hreplays =>
    -- An approval is no execution.
    have hold : ∀ x ∈ s'.replays, x.action = .executed → x ∈ s.replays := by
      intro x hx haction
      rcases (Table.mem_insert? hreplays).mp hx with rfl | hold
      · rw [hz] at haction
        cases haction
      · exact hold
    intro x hx y hy hxa hya
    exact hs.once x (hold x hx hxa) y (hold y hy hya) hxa hya
  | replayed p a e w approval hadmitted hevents hjobs hattempts hreplays =>
    -- Two executions of one attempt cannot both be there, as the second was refused.
    intro x hx y hy hxa hya hsame
    rcases (Table.mem_insert? hreplays).mp hx with rfl | hx
    · rcases (Table.mem_insert? hreplays).mp hy with rfl | hy
      · rfl
      · exact absurd ⟨y, hy, hsame.symm, hya⟩ hadmitted.once
    · rcases (Table.mem_insert? hreplays).mp hy with rfl | hy
      · exact absurd ⟨x, hx, hsame, hxa⟩ hadmitted.once
      · exact hs.once x hx y hy hxa hya hsame

/-- A call keeps replays single. -/
theorem DeliveryEffect.keeps_replayed (h : DeliveryEffect s s') (hs : s.Replayed) : s'.Replayed where
  approved := by
    intro x hx haction
    rcases h.executed hx haction with hold | ⟨p, a, e, w, approval, hadmitted, rfl⟩
    · obtain ⟨y, hy, happroval⟩ := hs.approved x hold haction
      exact ⟨y, h.mem_replays hy, happroval⟩
    · obtain ⟨hmem, happroved, hattempt⟩ := hadmitted.named
      exact ⟨approval, h.mem_replays hmem, happroved, hattempt, hadmitted.independent,
        hadmitted.live⟩
  dead := by
    intro x hx haction
    rcases h.executed hx haction with hold | ⟨p, a, e, w, approval, hadmitted, rfl⟩
    · obtain ⟨a, ha, hdead⟩ := hs.dead x hold haction
      exact ⟨a, h.attempts ha, hdead⟩
    · exact ⟨a, h.attempts hadmitted.attempt, hadmitted.dead⟩
  once := h.replayed_once hs
  job := h.replayed_job hs

/-! ## Histories -/

/-- What every call keeps. -/
structure DeliveryDb.Sound (s : DeliveryDb) : Prop where
  linked : s.Linked
  chained : ∀ event webhook, s.Chained event webhook
  replayed : s.Replayed

/-- The first database is sound. -/
theorem DeliveryDb.start_sound (roles : List SubjectRole) (endpoints : Table EndpointRow.id) :
    (DeliveryDb.start roles endpoints).Sound where
  linked := ⟨fun _ hj => (nomatch hj), fun _ ha => (nomatch ha)⟩
  chained := fun _ _ => ⟨numbered_nil, fun _ ha => (nomatch ha), fun _ hj => (nomatch hj),
    fun _ hj => (nomatch hj), fun _ hj => (nomatch hj)⟩
  replayed := ⟨fun _ hx => (nomatch hx), fun _ hx => (nomatch hx), fun _ hx => (nomatch hx),
    fun _ hj => (nomatch hj)⟩

/-- Every history of deliveries leaves a sound database. -/
theorem run_deliveries_sound (roles : List SubjectRole) (endpoints : Table EndpointRow.id)
    (cs : List DeliveryCall) : (run DeliveryCall.exec cs (.start roles endpoints)).Sound := by
  refine run_invariant (fun c s u s' h hs => ?_) cs (DeliveryDb.start_sound roles endpoints)
  have heffect := DeliveryCall.exec_effect h
  exact ⟨heffect.linked hs.linked, heffect.chained hs.linked hs.chained,
    heffect.keeps_replayed hs.replayed⟩

/-- A completion that does not hold the live claim of its job changes nothing. -/
theorem commit_completeDelivery_of_not_held {sess : Session} {f : JobFence} {p : DeliveryCompletion}
    (h : ¬∃ j, s.jobs.find? f.job = some j ∧ j.HeldBy f p.selectAt) :
    commit (DeliveryCall.complete sess f p).exec s = s := by
  have hnone : s.completing? sess f p = none := by
    rcases hfound : s.completing? sess f p with _ | j
    · rfl
    · exact absurd ⟨j, DeliveryDb.held?_eq_some.mp (Option.filter_eq_some_iff.mp hfound).1⟩ h
  rcases commit_cases (DeliveryCall.complete sess f p).exec s with hsame | ⟨u, hok⟩
  · exact hsame
  obtain ⟨completed, hcomplete⟩ := Txn.discard_ok.mp hok
  simp only [controlledCompleteDeliveryV1, Txn.raiseIf_bind_ok, Txn.get_bind_ok, hnone,
    Txn.pure_ok] at hcomplete
  exact hcomplete.2.2.symm

/-- A renewal that does not hold the live claim of its job changes nothing. -/
theorem commit_renewDelivery_of_not_held {sess : Session} {f : JobFence} {lease : ℤ}
    {clock : LeaseClock}
    (h : ¬∃ j, s.jobs.find? f.job = some j ∧ j.HeldBy f clock.check) :
    commit (DeliveryCall.renew sess f lease clock).exec s = s := by
  have hnone : s.renewing? sess f clock = none := by
    rcases hfound : s.renewing? sess f clock with _ | j
    · rfl
    · obtain ⟨-, -, hheld⟩ := Option.bind_eq_some_iff.mp hfound
      exact absurd ⟨j, DeliveryDb.held?_eq_some.mp hheld⟩ h
  rcases commit_cases (DeliveryCall.renew sess f lease clock).exec s with hsame | ⟨u, hok⟩
  · exact hsame
  obtain ⟨renewed, hrenew⟩ := Txn.discard_ok.mp hok
  simp only [renewDeliveryClaim, Txn.raiseIf_bind_ok, Txn.get_bind_ok, hnone, Txn.pure_ok] at hrenew
  exact hrenew.2.2.symm

/-- A delivered attempt is the last of its chain. -/
theorem DeliveryDb.Chained.delivered (h : s.Chained event webhook) {a : DeliveryAttempt}
    (ha : a ∈ s.chain event webhook) (hdelivered : a.status = .delivered) :
    (s.chain event webhook).getLast? = some a := by
  rcases mem_dropLast_or ha with hearlier | hlast
  · rcases h.earlier a hearlier with hstatus | hstatus
    · rw [hdelivered] at hstatus
      cases hstatus
    · rw [hdelivered] at hstatus
      cases hstatus
  · exact hlast

/-- Over every history of transfers, claims, renewals, completions, approvals and replays, whatever
happens to the endpoints and to the publication of the events:
* the attempts of an event for an endpoint are numbered from 1 on in the order of their recording;
* at most one of its jobs is pending or retrying, and it has the next number;
* every attempt but the last is retrying or dead, and a delivered attempt is the last one;
* a completion or a renewal without the live claim of its job changes nothing;
* an executed replay is of a dead attempt and has an approval by another actor that is younger than
  a day, and each attempt is replayed at most once. -/
theorem delivery_evidence_chain (roles : List SubjectRole) (endpoints : Table EndpointRow.id)
    (cs : List DeliveryCall) :
    (∀ event webhook,
      ((run DeliveryCall.exec cs (.start roles endpoints)).chain event webhook).map
          DeliveryAttempt.attemptNumber =
        (List.range ((run DeliveryCall.exec cs (.start roles endpoints)).chain event
          webhook).length).map (fun k : ℕ => (k : ℤ) + 1) ∧
      (∀ j ∈ (run DeliveryCall.exec cs (.start roles endpoints)).jobs, j.Opens event webhook →
        j.attemptNumber =
            ((run DeliveryCall.exec cs (.start roles endpoints)).chain event webhook).length + 1 ∧
          ∀ j' ∈ (run DeliveryCall.exec cs (.start roles endpoints)).jobs,
            j'.Opens event webhook → j' = j) ∧
      (∀ a ∈ ((run DeliveryCall.exec cs (.start roles endpoints)).chain event webhook).dropLast,
        a.status = .retrying ∨ a.status = .dead) ∧
      ∀ a ∈ (run DeliveryCall.exec cs (.start roles endpoints)).chain event webhook,
        a.status = .delivered →
          ((run DeliveryCall.exec cs (.start roles endpoints)).chain event webhook).getLast? =
            some a) ∧
    (∀ sess f p, (¬∃ j, (run DeliveryCall.exec cs (.start roles endpoints)).jobs.find? f.job =
        some j ∧ j.HeldBy f p.selectAt) →
      commit (DeliveryCall.complete sess f p).exec
        (run DeliveryCall.exec cs (.start roles endpoints)) =
          run DeliveryCall.exec cs (.start roles endpoints)) ∧
    (∀ sess f lease clock, (¬∃ j, (run DeliveryCall.exec cs (.start roles endpoints)).jobs.find?
        f.job = some j ∧ j.HeldBy f clock.check) →
      commit (DeliveryCall.renew sess f lease clock).exec
        (run DeliveryCall.exec cs (.start roles endpoints)) =
          run DeliveryCall.exec cs (.start roles endpoints)) ∧
    (∀ x ∈ (run DeliveryCall.exec cs (.start roles endpoints)).replays, x.action = .executed →
      (∃ a, (run DeliveryCall.exec cs (.start roles endpoints)).attempts.find? x.attemptId =
        some a ∧ a.status = .dead) ∧
      (∃ y ∈ (run DeliveryCall.exec cs (.start roles endpoints)).replays, y.action = .approved ∧
        y.attemptId = x.attemptId ∧ y.actorSubjectId ≠ x.actorSubjectId ∧
        y.createdAt ≤ x.createdAt ∧ x.createdAt < y.createdAt + day) ∧
      ∀ y ∈ (run DeliveryCall.exec cs (.start roles endpoints)).replays, y.action = .executed →
        y.attemptId = x.attemptId → y = x) ∧
    ∀ j ∈ (run DeliveryCall.exec cs (.start roles endpoints)).jobs,
      ∀ j' ∈ (run DeliveryCall.exec cs (.start roles endpoints)).jobs, ∀ i,
        j.replayOfAttemptId = some i → j'.replayOfAttemptId = some i → j = j' := by
  have hsound := run_deliveries_sound roles endpoints cs
  refine ⟨fun event webhook => ?_, ?_, ?_, ?_, hsound.replayed.job⟩
  · have hchain := hsound.chained event webhook
    refine ⟨hchain.numbered, ?_, hchain.earlier, fun a ha => hchain.delivered ha⟩
    intro j hj hopen
    exact ⟨hchain.next j hj hopen, fun j' hj' hopen' => hchain.single j' hj' j hj hopen' hopen⟩
  · intro sess f p h
    exact commit_completeDelivery_of_not_held h
  · intro sess f lease clock h
    exact commit_renewDelivery_of_not_held h
  · intro x hx haction
    refine ⟨hsound.replayed.dead x hx haction, hsound.replayed.approved x hx haction, ?_⟩
    intro y hy hyaction hsame
    exact hsound.replayed.once y hy x hx hyaction haction hsame

end LedgerSync
