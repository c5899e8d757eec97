import LedgerSync.Lib.Batch
import LedgerSync.EventViews

/-!
# Retention of published events

Maintenance deletes published events in batches, oldest first, once they are older than a window
and no other table refers to them, and rate limit windows that are over. A dry run counts what could
be deleted. The conditions are written twice in the procedure, once for the count and once for the
deletion; here both use `RetentionDb.Eligible`.

The publication attempts are among the tables that keep an event. Every claim leaves an attempt, and
attempts are never deleted, so an event that workers published is never deleted: what retention
deletes was published before there were attempts (`retention_effective`).

`webhook_delivery_jobs`, `delivery_attempts`, `api_rate_limit_windows` and `idempotency_requests`
are written by other components; the first two are kept as the events that they refer to. The audit
event of a run is left out. A window is an interval in microseconds.
-/

namespace LedgerSync

open Lib

/-! ## Tables -/

/-- A row of `api_rate_limit_windows`, as far as retention reads it. -/
structure RateWindow where
  tenantId : Uuid
  principalHash : Bytes
  routeKey : String
  windowStartedAt : Instant
deriving DecidableEq

/-- The primary key of `api_rate_limit_windows`. -/
def RateWindow.key (w : RateWindow) : Uuid × Bytes × String × Instant :=
  (w.tenantId, w.principalHash, w.routeKey, w.windowStartedAt)

/-- A row of `idempotency_requests`, as far as retention reads it. -/
structure RetainedRequest where
  tenantId : Uuid
  state : RequestState
  expiresAt : Instant

/-- A row of `retention_runs`. -/
structure RetentionRun where
  id : Uuid
  tenantId : Uuid
  mode : String
  publishedOutboxCount : ℕ
  retainedIdempotencyCount : ℕ
  expiredRateWindowCount : ℕ
  correlationId : Uuid
  applicationVersion : String
  startedAt : Instant
  completedAt : Instant
deriving DecidableEq

/-- The queue with the tables that refer to its events, and the other tables that retention uses. -/
structure RetentionDb where
  queue : QueueDb
  jobEvents : List Uuid
  deliveryEvents : List (Option Uuid)
  rates : Table RateWindow.key
  requests : List RetainedRequest
  runs : Table RetentionRun.id

/-- A procedure of maintenance. -/
abbrev RetentionProc (α : Type) : Type := Txn RetentionDb PgError α

/-! ## The procedure -/

/-- The arguments of `controlled_run_retention_v1`, with the identifier that it generates and the
rows that other transactions hold locked. -/
structure RetentionPolicy where
  tenant : Uuid
  apply : Bool
  batch : ℤ
  outboxAge : ℤ
  rateAge : ℤ
  correlation : Uuid
  application : String
  now : Instant
  runId : Uuid
  lockedEvents : List Uuid
  lockedRates : List (Uuid × Bytes × String × Instant)

namespace RetentionPolicy

/-- The input check. -/
def Valid (p : RetentionPolicy) : Prop :=
  1 ≤ p.batch ∧ p.batch ≤ 10000 ∧ 1 ≤ p.application.utf8ByteSize ∧
    p.application.utf8ByteSize ≤ 256 ∧ 86400000000 ≤ p.outboxAge ∧ 3600000000 ≤ p.rateAge

/-- Whether a policy is valid can be decided. -/
instance decidableValid (p : RetentionPolicy) : Decidable p.Valid :=
  inferInstanceAs (Decidable (_ ∧ _ ∧ _ ∧ _ ∧ _ ∧ _))

/-- The rate limit window is over. -/
def Expired (p : RetentionPolicy) (w : RateWindow) : Prop :=
  w.tenantId = p.tenant ∧ w.windowStartedAt < p.now - p.rateAge

/-- Whether a rate window has expired can be decided. -/
instance decidableExpired (p : RetentionPolicy) (w : RateWindow) : Decidable (p.Expired w) :=
  inferInstanceAs (Decidable (_ ∧ _))

end RetentionPolicy

namespace RetentionDb

/-- No other table refers to the event. -/
structure Unreferenced (s : RetentionDb) (e : QueuedEvent) : Prop where
  delivery : some e.id ∉ s.deliveryEvents
  job : e.id ∉ s.jobEvents
  replay : ∀ a ∈ s.queue.replays.rows, a.eventId ≠ e.id
  attempt : ∀ a ∈ s.queue.attempts.rows, a.eventId ≠ e.id
  receipt : ∀ r ∈ s.queue.receipts.rows, r.eventId ≠ e.id

/-- The checks of the statement are those of an event that nothing refers to. -/
theorem unreferenced_iff (s : RetentionDb) (e : QueuedEvent) :
    some e.id ∉ s.deliveryEvents ∧ e.id ∉ s.jobEvents ∧
      (∀ a ∈ s.queue.replays.rows, a.eventId ≠ e.id) ∧
      (∀ a ∈ s.queue.attempts.rows, a.eventId ≠ e.id) ∧
      (∀ r ∈ s.queue.receipts.rows, r.eventId ≠ e.id) ↔ s.Unreferenced e :=
  ⟨fun ⟨h₁, h₂, h₃, h₄, h₅⟩ => ⟨h₁, h₂, h₃, h₄, h₅⟩,
    fun h => ⟨h.delivery, h.job, h.replay, h.attempt, h.receipt⟩⟩

/-- Whether anything refers to an event can be decided. -/
instance decidableUnreferenced (s : RetentionDb) (e : QueuedEvent) : Decidable (s.Unreferenced e) :=
  decidable_of_iff _ (s.unreferenced_iff e)

/-- The event was published before the window, is not dead, and no other table refers to it. -/
def Eligible (s : RetentionDb) (p : RetentionPolicy) (e : QueuedEvent) : Prop :=
  e.tenantId = p.tenant ∧ (∃ t, e.publishedAt = some t ∧ t < p.now - p.outboxAge) ∧
    e.deadAt = none ∧ s.Unreferenced e

/-- Whether an event may be deleted can be decided. -/
instance decidableEligible (s : RetentionDb) (p : RetentionPolicy) (e : QueuedEvent) :
    Decidable (s.Eligible p e) :=
  inferInstanceAs (Decidable (_ ∧ (∃ t, _ = some t ∧ _) ∧ _ ∧ _))

/-- `ORDER BY o.published_at,o.id`, for published events. -/
def publishedBefore (x y : QueuedEvent) : Bool :=
  x.publishedAt.getD 0 < y.publishedAt.getD 0 ∨
    (x.publishedAt.getD 0 = y.publishedAt.getD 0 ∧ x.id.toNat ≤ y.id.toNat)

/-- The events that a call deletes. -/
def doomed (s : RetentionDb) (p : RetentionPolicy) : List QueuedEvent :=
  s.queue.events.batch (fun e => s.Eligible p e ∧ e.id ∉ p.lockedEvents) publishedBefore p.batch.toNat

/-- The rate limit windows that a call deletes. -/
def doomedRates (s : RetentionDb) (p : RetentionPolicy) : List RateWindow :=
  s.rates.batch (fun w => p.Expired w ∧ w.key ∉ p.lockedRates)
    (fun x y => x.windowStartedAt ≤ y.windowStartedAt) p.batch.toNat

/-- How many events a dry run counts. -/
def eligibleCount (s : RetentionDb) (p : RetentionPolicy) : ℕ :=
  s.queue.events.rows.countP fun e => s.Eligible p e

/-- How many outcomes are kept although they expired. -/
def retainedCount (s : RetentionDb) (p : RetentionPolicy) : ℕ :=
  s.requests.countP fun r => r.tenantId = p.tenant ∧ r.state = .completed ∧ r.expiresAt < p.now

end RetentionDb

/-- The row of a run. -/
def RetentionPolicy.row (p : RetentionPolicy) (outbox retained rates : ℕ) : RetentionRun where
  id := p.runId
  tenantId := p.tenant
  mode := if p.apply then "apply" else "dry_run"
  publishedOutboxCount := outbox
  retainedIdempotencyCount := retained
  expiredRateWindowCount := rates
  correlationId := p.correlation
  applicationVersion := p.application
  startedAt := p.now
  completedAt := p.now

/-- The tables without the rows that a call deletes. -/
def RetentionDb.applied (s : RetentionDb) (p : RetentionPolicy) : RetentionDb :=
  { s with
    queue := { s.queue with events := s.queue.events.delete fun e => e ∈ s.doomed p }
    rates := s.rates.delete fun w => w ∈ s.doomedRates p }

/-- The run that a call stores. -/
def RetentionDb.report (s : RetentionDb) (p : RetentionPolicy) : RetentionRun :=
  if p.apply then p.row (s.doomed p).length (s.retainedCount p) (s.doomedRates p).length
  else p.row (s.eligibleCount p) (s.retainedCount p) (s.rates.rows.countP fun w => p.Expired w)

/-- `controlled_run_retention_v1`: the run that it stored. -/
def controlledRunRetentionV1 (sess : Session) (p : RetentionPolicy) : RetentionProc RetentionRun := do
  Txn.raiseIf (¬sess.Allows p.tenant ∨ sess.actorId ≠ "system:retention")
    ⟨"42501", "", "retention scope denied"⟩
  Txn.raiseIf (¬p.Valid) ⟨"22023", "", "invalid retention policy"⟩
  let s ← Txn.get
  let report := s.report p
  let runs ← Txn.orRaise (s.runs.insert? report) (uniqueViolation "retention_runs_pkey")
  Txn.set { (if p.apply then s.applied p else s) with runs := runs }
  pure report

/-! ## Histories -/

/-- The calls of the queue and of maintenance, and what other components write. -/
inductive MaintenanceCall where
  | queue (c : QueueCall)
  | retention (sess : Session) (p : RetentionPolicy)
  | others (jobEvents : List Uuid) (deliveryEvents : List (Option Uuid))
    (rates : Table RateWindow.key) (requests : List RetainedRequest)

/-- A call of the queue. -/
def onQueue {α : Type} (x : QueueProc α) : RetentionProc α :=
  x.zoom RetentionDb.queue fun s t => { s with queue := t }

/-- A call as a transaction. -/
def MaintenanceCall.exec : MaintenanceCall → RetentionProc Unit
  | .queue c => do
    let _ ← onQueue c.exec
    pure ()
  | .retention sess p => do
    let _ ← controlledRunRetentionV1 sess p
    pure ()
  | .others jobEvents deliveryEvents rates requests => do
    let s ← Txn.get
    Txn.set { s with
      jobEvents := jobEvents
      deliveryEvents := deliveryEvents
      rates := rates
      requests := requests }

/-- How many events a list of calls deletes, one transaction after the other. -/
def deletedBy (sess : Session) : List RetentionPolicy → RetentionDb → ℕ
  | [], _ => 0
  | p :: ps, s => match controlledRunRetentionV1 sess p s with
    | .ok (r, s') => r.publishedOutboxCount + deletedBy sess ps s'
    | .error _ => deletedBy sess ps s

/-- The state after a list of calls of maintenance. -/
def afterRetention (sess : Session) (ps : List RetentionPolicy) (s : RetentionDb) : RetentionDb :=
  run (controlledRunRetentionV1 sess) ps s

/-! ## One call -/

section Steps

variable {sess : Session} {p : RetentionPolicy} {s s' : RetentionDb} {r : RetentionRun}

/-- A call of the queue returns on the whole when it returns on the queue. -/
theorem onQueue_ok {α : Type} {x : QueueProc α} {a : α} :
    onQueue x s = .ok (a, s') ↔ ∃ t, x s.queue = .ok (a, t) ∧ s' = { s with queue := t } :=
  Txn.zoom_ok

/-- A retention run returns when the system may run it, its policy is valid and its record is new.
-/
theorem controlledRunRetentionV1_ok :
    controlledRunRetentionV1 sess p s = .ok (r, s') ↔
      (sess.Allows p.tenant ∧ sess.actorId = "system:retention") ∧ p.Valid ∧ r = s.report p ∧
      ∃ runs, s.runs.insert? (s.report p) = some runs ∧
        s' = { (if p.apply then s.applied p else s) with runs := runs } := by
  simp only [controlledRunRetentionV1, Txn.raiseIf_bind_ok, Txn.get_bind_ok, Txn.orRaise_bind_ok,
    Txn.set_bind_ok, Txn.pure_ok, not_or, not_not]
  constructor
  · rintro ⟨hscope, hvalid, runs, hruns, rfl, rfl⟩
    exact ⟨hscope, hvalid, rfl, runs, hruns, rfl⟩
  · rintro ⟨hscope, hvalid, rfl, runs, hruns, rfl⟩
    exact ⟨hscope, hvalid, runs, hruns, rfl, rfl⟩

/-- The record of a run has the identifier of its policy. -/
theorem RetentionDb.report_id : (s.report p).id = p.runId := by
  unfold RetentionDb.report
  split_ifs <;> rfl

/-- An application reports how many events it deletes. -/
theorem RetentionDb.report_apply (happly : p.apply = true) :
    (s.report p).publishedOutboxCount = (s.doomed p).length := by
  unfold RetentionDb.report
  rw [if_pos happly]
  rfl

/-- What is to be deleted is stored and may be deleted. -/
theorem RetentionDb.mem_doomed {e : QueuedEvent} (h : e ∈ s.doomed p) :
    e ∈ s.queue.events ∧ s.Eligible p e := by
  obtain ⟨hmem, htest⟩ := Table.mem_of_mem_batch h
  exact ⟨hmem, (of_decide_eq_true htest).1⟩

/-- An event that a call deleted was eligible. -/
theorem eligible_of_deleted (h : controlledRunRetentionV1 sess p s = .ok (r, s')) {e : QueuedEvent}
    (he : e ∈ s.queue.events) (hgone : e ∉ s'.queue.events) :
    p.apply = true ∧ s.Eligible p e := by
  obtain ⟨-, -, -, runs, -, rfl⟩ := controlledRunRetentionV1_ok.mp h
  by_cases happly : p.apply = true
  · refine ⟨happly, ?_⟩
    by_contra hkept
    refine hgone ?_
    rw [if_pos happly]
    refine Table.mem_delete.mpr ⟨he, ?_⟩
    exact decide_eq_false fun hdoomed => hkept (RetentionDb.mem_doomed hdoomed).2
  · rw [if_neg happly] at hgone
    exact absurd he hgone

/-- The call applies the policy of a dry run: it deletes what the dry run counts. -/
structure RetentionPolicy.Applies (q p : RetentionPolicy) : Prop where
  apply : q.apply = true
  tenant : q.tenant = p.tenant
  outboxAge : q.outboxAge = p.outboxAge
  now : q.now = p.now

variable {q : RetentionPolicy}

/-- A policy that applies the other has the same events to delete. -/
theorem RetentionPolicy.Applies.eligible (h : q.Applies p) (e : QueuedEvent) :
    s.Eligible q e ↔ s.Eligible p e := by
  unfold RetentionDb.Eligible
  rw [h.tenant, h.outboxAge, h.now]

/-- Eligibility reads the tables that refer to events, which maintenance leaves as they are. -/
theorem RetentionDb.eligible_congr {t : RetentionDb}
    (hqueue : t.queue = { s.queue with events := t.queue.events })
    (hjobs : t.jobEvents = s.jobEvents) (hdeliveries : t.deliveryEvents = s.deliveryEvents)
    (e : QueuedEvent) : t.Eligible p e ↔ s.Eligible p e := by
  unfold RetentionDb.Eligible
  rw [← RetentionDb.unreferenced_iff, ← RetentionDb.unreferenced_iff, hqueue, hjobs, hdeliveries]

/-- After a run the same of the events that are left may be deleted. -/
theorem RetentionDb.eligible_applied {runs : Table RetentionRun.id} (e : QueuedEvent) :
    ({ s.applied q with runs := runs } : RetentionDb).Eligible p e ↔ s.Eligible p e :=
  RetentionDb.eligible_congr (s := s) (t := { s.applied q with runs := runs }) rfl rfl rfl e

/-- The record of a run does not count. -/
theorem RetentionDb.eligibleCount_runs {runs : Table RetentionRun.id} :
    ({ s with runs := runs } : RetentionDb).eligibleCount p = s.eligibleCount p := by
  have hsame := fun e => RetentionDb.eligible_congr (s := s) (p := p)
    (t := { s with runs := runs }) rfl rfl rfl e
  unfold RetentionDb.eligibleCount
  simp only [hsame]

/-- An application deletes what the dry run counts no more afterwards. -/
theorem RetentionPolicy.Applies.count (h : q.Applies p)
    (hq : controlledRunRetentionV1 sess q s = .ok (r, s')) :
    r.publishedOutboxCount + s'.eligibleCount p = s.eligibleCount p := by
  obtain ⟨-, -, rfl, runs, -, rfl⟩ := controlledRunRetentionV1_ok.mp hq
  have htest : ∀ e, decide (s.Eligible q e ∧ e.id ∉ q.lockedEvents) = true →
      decide (s.Eligible p e) = true := by
    intro e he
    exact decide_eq_true ((h.eligible e).mp (of_decide_eq_true he).1)
  rw [if_pos h.apply, RetentionDb.report_apply h.apply, add_comm]
  have hcount : ({ s.applied q with runs := runs } : RetentionDb).eligibleCount p =
      (s.applied q).queue.events.rows.countP fun e => s.Eligible p e := by
    unfold RetentionDb.eligibleCount
    simp only [RetentionDb.eligible_applied]
  rw [hcount]
  exact Table.countP_delete_batch htest

/-- What is eligible stays so, as long as it is there. -/
theorem eligible_afterRetention {ps : List RetentionPolicy} {e : QueuedEvent}
    (hps : ∀ q ∈ ps, q.Applies p) (h : s.Eligible p e) :
    (afterRetention sess ps s).Eligible p e := by
  induction ps generalizing s with
  | nil => exact h
  | cons q ps ih =>
    unfold afterRetention
    rw [run_cons]
    refine ih (fun x hx => hps x (List.mem_cons_of_mem _ hx)) ?_
    rcases hq : controlledRunRetentionV1 sess q s with err | ⟨r, s'⟩
    · rw [commit_of_error hq]
      exact h
    · rw [commit_of_ok hq]
      obtain ⟨-, -, -, runs, -, rfl⟩ := controlledRunRetentionV1_ok.mp hq
      rw [if_pos (hps q List.mem_cons_self).apply]
      exact (RetentionDb.eligible_applied e).mpr h

/-- What repeated applications deleted, and what they left, is what the dry run counted. -/
theorem deletedBy_add_eligibleCount {ps : List RetentionPolicy} (hps : ∀ q ∈ ps, q.Applies p) :
    deletedBy sess ps s + (afterRetention sess ps s).eligibleCount p = s.eligibleCount p := by
  induction ps generalizing s with
  | nil => exact Nat.zero_add _
  | cons q ps ih =>
    have hrest := fun t => ih (s := t) fun x hx => hps x (List.mem_cons_of_mem _ hx)
    unfold deletedBy afterRetention
    rw [run_cons]
    rcases hq : controlledRunRetentionV1 sess q s with e | ⟨r, s'⟩
    · rw [commit_of_error hq]
      exact hrest s
    · rw [commit_of_ok hq]
      have hone := (hps q List.mem_cons_self).count hq
      have hmany := hrest s'
      unfold afterRetention at hmany
      dsimp only
      omega

/-- The applications return, and take something as long as there is something to take. -/
theorem eligibleCount_afterRetention {ps : List RetentionPolicy} (hps : ∀ q ∈ ps, q.Applies p)
    (hscope : sess.Allows p.tenant) (hactor : sess.actorId = "system:retention")
    (hvalid : ∀ q ∈ ps, q.Valid) (hfree : ∀ q ∈ ps, q.lockedEvents = [])
    (hids : (ps.map RetentionPolicy.runId).Nodup)
    (hfresh : ∀ q ∈ ps, s.runs.find? q.runId = none) :
    (afterRetention sess ps s).eligibleCount p ≤ s.eligibleCount p - ps.length := by
  -- The induction is on the policies; each application deletes one event at least, if there is one.
  induction ps generalizing s with
  | nil => exact le_refl _
  | cons q ps ih =>
    have hq := hps q List.mem_cons_self
    -- The run id is new, so that the report can be stored.
    obtain ⟨runs, hruns⟩ : ∃ runs, s.runs.insert? (s.report q) = some runs := by
      refine Table.exists_insert? ?_
      rw [RetentionDb.report_id]
      exact hfresh q List.mem_cons_self
    have hreturns : controlledRunRetentionV1 sess q s =
        .ok (s.report q, { s.applied q with runs := runs }) := by
      refine controlledRunRetentionV1_ok.mpr ⟨⟨hq.tenant ▸ hscope, hactor⟩,
        hvalid q List.mem_cons_self, rfl, runs, hruns, ?_⟩
      rw [if_pos hq.apply]
    have hone := hq.count hreturns
    -- The batch takes as many of the eligible events as it may.
    have htakes : min 1 (s.eligibleCount p) ≤ (s.report q).publishedOutboxCount := by
      have hbatch : 1 ≤ q.batch.toNat := by
        have := (hvalid q List.mem_cons_self).1
        omega
      have hcount : s.queue.events.rows.countP
          (fun e => decide (s.Eligible q e ∧ e.id ∉ q.lockedEvents)) = s.eligibleCount p := by
        unfold RetentionDb.eligibleCount
        rw [hfree q List.mem_cons_self]
        simp only [List.not_mem_nil, not_false_eq_true, and_true, hq.eligible]
      rw [RetentionDb.report_apply hq.apply, RetentionDb.doomed, Table.length_batch, hcount]
      omega
    have hrest := ih (s := { s.applied q with runs := runs })
      (fun x hx => hps x (List.mem_cons_of_mem _ hx))
      (fun x hx => hvalid x (List.mem_cons_of_mem _ hx))
      (fun x hx => hfree x (List.mem_cons_of_mem _ hx)) (List.nodup_cons.mp hids).2 ?_
    · unfold afterRetention at hrest ⊢
      rw [run_cons, commit_of_ok hreturns, List.length_cons]
      omega
    -- The later run ids are still new.
    · intro x hx
      have hother : x.runId ≠ (s.report q).id := by
        rw [RetentionDb.report_id]
        intro hsame
        exact (List.nodup_cons.mp hids).1 (hsame ▸ List.mem_map_of_mem hx)
      rw [Table.find?_insert?_ne hruns hother]
      exact hfresh x (List.mem_cons_of_mem _ hx)

end Steps

/-! ## Every history -/

section Histories

variable {s s' : RetentionDb} {e : QueuedEvent}

/-- A published event was published before the call, or the call published it and its attempt. -/
theorem QueueCall.exec_published {c : QueueCall} {s s' : QueueDb} {e' : QueuedEvent}
    {r : List StampedEvent} (h : c.exec s = .ok (r, s')) (he' : e' ∈ s'.events)
    (hpublished : e'.publishedAt ≠ none) :
    e' ∈ s.events ∨ ∃ a ∈ s'.attempts, a.eventId = e'.id := by
  by_cases hcall : ∃ sess f p clock, c = .complete sess f p clock
  · obtain ⟨sess, f, p, clock, rfl⟩ := hcall
    obtain ⟨r', s₁, hcomplete, hpure⟩ := Txn.bind_ok.mp h
    obtain ⟨-, rfl⟩ := Txn.pure_ok.mp hpure
    rcases complete_event hcomplete he' with hold | ⟨e, -, -, a, ha, hevent, -⟩
    · exact .inl hold
    · exact .inr ⟨a, ha, hevent⟩
  · push Not at hcall
    have hfind := Table.find?_eq_some.mpr ⟨he', rfl⟩
    have hstep := (QueueCall.exec_step h).1
    rcases hold : s.events.find? e'.id with _ | e
    · obtain ⟨app, n, stamped, -, rfl⟩ := hstep.new _ _ hold hfind
      exact absurd rfl hpublished
    · obtain ⟨x, hx, hxstep⟩ := hstep.step _ e hold
      obtain rfl := Option.some.inj (hx.symm.trans hfind)
      refine .inl ?_
      -- Only a completion publishes, so the event was published before.
      cases hxstep with
      | same => exact Table.mem_of_find? hold
      | claimed _ candidate => exact absurd candidate.1 hpublished
      | renewed _ held => exact absurd held.2.2.2.1 hpublished
      | completed call => exact absurd call (hcall _ _ _ _)
      | reopened _ dead => exact absurd dead.2.2 hpublished

/-- What a call of any component leaves of the events and of the attempts. -/
theorem MaintenanceCall.exec_published {c : MaintenanceCall} {u : Unit}
    (h : c.exec s = .ok (u, s')) (he : e ∈ s'.queue.events) (hpublished : e.publishedAt ≠ none) :
    e ∈ s.queue.events ∨ ∃ a ∈ s'.queue.attempts, a.eventId = e.id := by
  -- Only the queue publishes events, and only with an attempt.
  cases c with
  | queue c =>
    obtain ⟨r, s₁, hc, hpure⟩ := Txn.bind_ok.mp h
    obtain ⟨-, rfl⟩ := Txn.pure_ok.mp hpure
    obtain ⟨t, ht, rfl⟩ := onQueue_ok.mp hc
    exact QueueCall.exec_published ht he hpublished
  -- Retention deletes rows and adds none.
  | retention sess p =>
    obtain ⟨r, s₁, hc, hpure⟩ := Txn.bind_ok.mp h
    obtain ⟨-, rfl⟩ := Txn.pure_ok.mp hpure
    obtain ⟨-, -, -, runs, -, rfl⟩ := controlledRunRetentionV1_ok.mp hc
    refine .inl ?_
    split_ifs at he
    · exact (Table.mem_delete.mp he).1
    · exact he
  | others jobEvents deliveryEvents rates requests =>
    simp only [MaintenanceCall.exec, Txn.get_bind_ok, Txn.set_ok] at h
    subst h
    exact .inl he

/-- The event is there, and a publication attempt refers to it. -/
def RetentionDb.Holds (s : RetentionDb) (e : QueuedEvent) : Prop :=
  e ∈ s.queue.events ∧ ∃ a ∈ s.queue.attempts, a.eventId = e.id

/-- No call deletes an attempt, or a published event that has one. -/
theorem MaintenanceCall.exec_holds {c : MaintenanceCall} {u : Unit} (h : c.exec s = .ok (u, s'))
    (hpublished : e.publishedAt ≠ none) (he : s.Holds e) : s'.Holds e := by
  obtain ⟨hmem, a, ha, hevent⟩ := he
  cases c with
  | queue c =>
    obtain ⟨r, s₁, hc, hpure⟩ := Txn.bind_ok.mp h
    obtain ⟨-, rfl⟩ := Txn.pure_ok.mp hpure
    obtain ⟨t, ht, rfl⟩ := onQueue_ok.mp hc
    obtain ⟨hevents, hattempts⟩ := QueueCall.exec_step ht
    obtain ⟨e', he', hstep⟩ := hevents.step _ e (Table.find?_eq_some.mpr ⟨hmem, rfl⟩)
    obtain ⟨now, hnow⟩ := Option.ne_none_iff_exists'.mp hpublished
    rw [hstep.published hnow] at he'
    obtain ⟨a', ha', -⟩ := hattempts.kept _ a (Table.find?_eq_some.mpr ⟨ha, rfl⟩)
    have hkey : a'.key = a.key := Table.key_of_find? ha'
    exact ⟨Table.mem_of_find? he', a', Table.mem_of_find? ha',
      (congrArg Prod.fst hkey).trans hevent⟩
  | retention sess p =>
    obtain ⟨r, s₁, hc, hpure⟩ := Txn.bind_ok.mp h
    obtain ⟨-, rfl⟩ := Txn.pure_ok.mp hpure
    -- An event with an attempt is referenced, hence not eligible.
    have hkept : e ∈ s₁.queue.events := by
      by_contra hgone
      obtain ⟨-, -, -, -, hunreferenced⟩ := eligible_of_deleted hc hmem hgone
      exact hunreferenced.attempt a ha hevent
    obtain ⟨-, -, -, runs, -, rfl⟩ := controlledRunRetentionV1_ok.mp hc
    refine ⟨hkept, a, ?_, hevent⟩
    split_ifs
    · exact ha
    · exact ha
  | others jobEvents deliveryEvents rates requests =>
    simp only [MaintenanceCall.exec, Txn.get_bind_ok, Txn.set_ok] at h
    subst h
    exact ⟨hmem, a, ha, hevent⟩

/-- A published event stays as it is in every history, or is deleted. -/
theorem run_holds (cs : List MaintenanceCall) (hpublished : e.publishedAt ≠ none)
    (he : s.Holds e) : (run MaintenanceCall.exec cs s).Holds e :=
  run_invariant (I := fun t : RetentionDb => t.Holds e)
    (fun _ _ _ _ h hI => MaintenanceCall.exec_holds h hpublished hI) cs he

/-- A published event was published before the history, or it has an attempt. -/
theorem run_published (s₀ : RetentionDb) (cs : List MaintenanceCall) (e : QueuedEvent)
    (he : e ∈ (run MaintenanceCall.exec cs s₀).queue.events) (hpublished : e.publishedAt ≠ none) :
    e ∈ s₀.queue.events ∨ (run MaintenanceCall.exec cs s₀).Holds e := by
  refine run_invariant (I := fun t : RetentionDb => ∀ e ∈ t.queue.events, e.publishedAt ≠ none →
    e ∈ s₀.queue.events ∨ t.Holds e) (fun c t u t' h hI x hx hxpublished => ?_) cs
    (fun x hx _ => .inl hx) e he hpublished
  rcases MaintenanceCall.exec_published h hx hxpublished with hold | hattempt
  · rcases hI x hold hxpublished with hstart | hholds
    · exact .inl hstart
    · exact .inr (MaintenanceCall.exec_holds h hxpublished hholds)
  · exact .inr ⟨hx, hattempt⟩

end Histories

/-- After every history: an application deletes only events that were published before the window,
are not dead, and to which no other table refers; what applications of one policy delete and leave
adds up to what a dry run counted, and as many applications as it counted, with nothing locked,
leave nothing; so every such event is deleted after so many applications. An event that workers
published during the history has a publication attempt, and is never deleted. -/
theorem retention_effective (s₀ : RetentionDb) (cs : List MaintenanceCall) :
    (∀ sess p r s', controlledRunRetentionV1 sess p (run MaintenanceCall.exec cs s₀) = .ok (r, s') →
      ∀ e ∈ (run MaintenanceCall.exec cs s₀).queue.events, e ∉ s'.queue.events →
        p.apply = true ∧ (run MaintenanceCall.exec cs s₀).Eligible p e) ∧
    (∀ sess p r s', p.apply = false →
      controlledRunRetentionV1 sess p (run MaintenanceCall.exec cs s₀) = .ok (r, s') →
      ∀ ps : List RetentionPolicy, (∀ q ∈ ps, q.Applies p) →
        deletedBy sess ps s' + (afterRetention sess ps s').eligibleCount p =
          r.publishedOutboxCount ∧
        ((∀ q ∈ ps, q.Valid ∧ q.lockedEvents = [] ∧ s'.runs.find? q.runId = none) →
          (ps.map RetentionPolicy.runId).Nodup → r.publishedOutboxCount ≤ ps.length →
          deletedBy sess ps s' = r.publishedOutboxCount)) ∧
    (∀ (sess : Session) (p : RetentionPolicy), sess.Allows p.tenant →
      sess.actorId = "system:retention" →
      ∀ e ∈ (run MaintenanceCall.exec cs s₀).queue.events,
      (run MaintenanceCall.exec cs s₀).Eligible p e → ∀ ps : List RetentionPolicy,
      (∀ q ∈ ps, q.Applies p ∧ q.Valid ∧ q.lockedEvents = [] ∧
        (run MaintenanceCall.exec cs s₀).runs.find? q.runId = none) →
      (ps.map RetentionPolicy.runId).Nodup →
      (run MaintenanceCall.exec cs s₀).eligibleCount p ≤ ps.length →
      e ∉ (afterRetention sess ps (run MaintenanceCall.exec cs s₀)).queue.events) ∧
    (∀ e ∈ (run MaintenanceCall.exec cs s₀).queue.events, e.publishedAt ≠ none →
      e ∉ s₀.queue.events →
      (∃ a ∈ (run MaintenanceCall.exec cs s₀).queue.attempts, a.eventId = e.id) ∧
      ∀ later, e ∈ (run MaintenanceCall.exec (cs ++ later) s₀).queue.events) := by
  refine ⟨?_, ?_, ?_, ?_⟩
  · intro sess p r s' h e he hgone
    exact eligible_of_deleted h he hgone
  · intro sess p r s' hdry h ps hps
    obtain ⟨hscope, -, hreport, runs, -, hs'⟩ := controlledRunRetentionV1_ok.mp h
    -- A dry run writes the table of the runs only.
    have hcount : s'.eligibleCount p = r.publishedOutboxCount := by
      rw [hs', hreport, RetentionDb.report, hdry]
      exact RetentionDb.eligibleCount_runs
    have htotal : deletedBy sess ps s' + (afterRetention sess ps s').eligibleCount p =
        s'.eligibleCount p := deletedBy_add_eligibleCount hps
    refine ⟨htotal.trans hcount, fun hready hids henough => ?_⟩
    have hleft := eligibleCount_afterRetention hps hscope.1 hscope.2
      (fun q hq => (hready q hq).1) (fun q hq => (hready q hq).2.1) hids
      (fun q hq => (hready q hq).2.2)
    omega
  · intro sess p hscope hactor e he heligible ps hps hids henough hleft
    have hnone := eligibleCount_afterRetention (fun q hq => (hps q hq).1) hscope hactor
      (fun q hq => (hps q hq).2.1) (fun q hq => (hps q hq).2.2.1) hids
      (fun q hq => (hps q hq).2.2.2)
    have hzero : (afterRetention sess ps (run MaintenanceCall.exec cs s₀)).eligibleCount p = 0 := by
      omega
    have hstill : (afterRetention sess ps (run MaintenanceCall.exec cs s₀)).Eligible p e :=
      eligible_afterRetention (fun q hq => (hps q hq).1) heligible
    exact List.countP_eq_zero.mp hzero e hleft (decide_eq_true hstill)
  · intro e he hpublished hnew
    rcases run_published s₀ cs e he hpublished with hold | hholds
    · exact absurd hold hnew
    · refine ⟨hholds.2, fun later => ?_⟩
      rw [run_append]
      exact (run_holds later hpublished hholds).1

namespace Sample

/-- A day in microseconds. -/
def dayLong : ℤ := 86400000000

/-- The session of a worker. -/
def workerSession : Session := ⟨(uuid 1).text, "first", false⟩

/-- The session of maintenance. -/
def retentionSession : Session := ⟨(uuid 1).text, "system:retention", false⟩

/-- Tables without rows. -/
def retentionDb : RetentionDb := ⟨queue, [], [], .empty, [], .empty⟩

/-- An event is inserted, and a worker claims and publishes it. -/
def publication : List MaintenanceCall :=
  [.queue (.insert "ledgersync/api/1" ⟨uuid 7, uuid 1, none, 0⟩),
    .queue (.claim ⟨10, "first", 1000, fun _ => 1, fun _ => 1, fun _ => 1, []⟩),
    .queue (.complete workerSession ⟨uuid 7, "first", 1⟩ ⟨2, .published, ""⟩ ⟨2, 2, 2, 2⟩)]

/-- The tables after the publication. -/
def publishedDb : RetentionDb := run MaintenanceCall.exec publication retentionDb

/-- The published event. -/
def publishedEvent : QueuedEvent :=
  { claimedEvent with publishedAt := some 2, claimOwner := none, claimedUntil := none }

/-- An application with a window of one day, thirty days later. -/
def retentionPolicy : RetentionPolicy where
  tenant := uuid 1
  apply := true
  batch := 500
  outboxAge := dayLong
  rateAge := dayLong
  correlation := uuid 9
  application := "1.0"
  now := 30 * dayLong
  runId := uuid 20
  lockedEvents := []
  lockedRates := []

/-- An event that was published before there were publication attempts. -/
def legacyDb : RetentionDb :=
  { retentionDb with queue := { queue with events := ⟨[publishedEvent], by decide⟩ } }

end Sample

/-- A worker claims and publishes an event. Thirty days later it is older than a window of one day,
and no webhook job, delivery attempt, replay action or message receipt refers to it, and no number
of applications deletes it. -/
theorem published_event_never_deleted :
    Sample.publishedEvent ∈ Sample.publishedDb.queue.events ∧
    (∃ t, Sample.publishedEvent.publishedAt = some t ∧
      t < Sample.retentionPolicy.now - Sample.retentionPolicy.outboxAge) ∧
    Sample.publishedDb.jobEvents = [] ∧
    Sample.publishedDb.deliveryEvents = [] ∧
    Sample.publishedDb.queue.replays.rows = [] ∧
    Sample.publishedDb.queue.receipts.rows = [] ∧
    (∃ r s',
      controlledRunRetentionV1 Sample.retentionSession Sample.retentionPolicy Sample.publishedDb =
      .ok (r, s')) ∧
    ∀ applications, Sample.publishedEvent ∈
      (run MaintenanceCall.exec applications Sample.publishedDb).queue.events := by
  -- The event is published and old, and only its attempt refers to it.
  have hrun : Sample.publishedDb.queue.events.rows =
      [Sample.publishedEvent] ∧
    Sample.publishedDb.queue.attempts.rows.any
      (fun a => a.eventId = Sample.publishedEvent.id) = true ∧
    Sample.publishedDb.jobEvents = [] ∧
    Sample.publishedDb.deliveryEvents = [] ∧
    Sample.publishedDb.queue.replays.rows = [] ∧
    Sample.publishedDb.queue.receipts.rows = [] ∧
    Sample.publishedDb.runs.rows = [] ∧
    Sample.retentionSession.Allows Sample.retentionPolicy.tenant ∧ Sample.retentionPolicy.Valid := by
    decide +kernel
  obtain ⟨hevents, hattempts, hjobs, hdeliveries, hreplays, hreceipts, hruns, hscope, hvalid⟩ := hrun
  have hmem : Sample.publishedEvent ∈ Sample.publishedDb.queue.events := by
    rw [Table.mem_def, hevents]
    exact List.mem_singleton_self _
  obtain ⟨a, ha, hevent⟩ := List.any_eq_true.mp hattempts
  refine ⟨hmem, ⟨2, rfl, by decide⟩, hjobs, hdeliveries, hreplays, hreceipts, ?_,
    fun applications => ?_⟩
  · obtain ⟨runs, hinsert⟩ : ∃ runs, Sample.publishedDb.runs.insert?
        (Sample.publishedDb.report Sample.retentionPolicy) = some runs := by
      refine Table.exists_insert? (Table.find?_eq_none.mpr fun r hr => ?_)
      rw [Table.mem_def, hruns] at hr
      cases hr
    exact ⟨_, _, controlledRunRetentionV1_ok.mpr ⟨⟨hscope, rfl⟩, hvalid, rfl, runs, hinsert, rfl⟩⟩
  -- The attempt stays with the event through every later run.
  · exact (run_holds applications (by simp [Sample.publishedEvent])
      ⟨hmem, a, ha, of_decide_eq_true hevent⟩).1

/-- An event without publication attempts is deleted by one application. -/
theorem legacy_event_deleted :
    Sample.publishedEvent ∈ Sample.legacyDb.queue.events ∧
    Sample.publishedEvent ∉ (afterRetention Sample.retentionSession [Sample.retentionPolicy]
      Sample.legacyDb).queue.events := by
  have hfacts : Sample.legacyDb.Eligible Sample.retentionPolicy Sample.publishedEvent ∧
      Sample.legacyDb.eligibleCount Sample.retentionPolicy = 1 ∧
      Sample.retentionSession.Allows Sample.retentionPolicy.tenant ∧ Sample.retentionPolicy.Valid := by
    decide +kernel
  obtain ⟨heligible, hcount, hscope, hvalid⟩ := hfacts
  have hmem : Sample.publishedEvent ∈ Sample.legacyDb.queue.events := List.mem_singleton_self _
  obtain ⟨-, -, hdeleted, -⟩ := retention_effective Sample.legacyDb []
  refine ⟨hmem, hdeleted Sample.retentionSession Sample.retentionPolicy hscope rfl _ hmem heligible
    [Sample.retentionPolicy] (fun q hq => ?_) (List.nodup_singleton _) (le_of_eq hcount)⟩
  rw [List.mem_singleton.mp hq]
  exact ⟨⟨rfl, rfl, rfl, rfl⟩, hvalid, rfl, rfl⟩

end LedgerSync
