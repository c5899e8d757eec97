import LedgerSync.Statements

/-!
# Leadership of the reconciliation scheduler

Any number of scheduler instances compete for the lease of a tenant. A lease has an owner and a
generation, and lapses by itself when its time is over; the instance that held it may not know. The
five procedures read the clock by themselves, so every call carries its clock readings, and nothing
is assumed of their order.

What each call can do to the lease of a tenant is said once (`LeaseStep`), and what it can do to a
job (`JobStep`). From these it follows for every history that a generation belongs to one owner,
that a live lease is lost to nobody, that whatever is claimed or completed is so under the live
lease, and that a job is completed at most once (`scheduler_leadership`).
-/

namespace LedgerSync

open Lib

/-! ## Tables -/

/-- A row of `reconciliation_scheduler_leases`. -/
structure SchedulerLease where
  tenantId : Uuid
  ownerId : String
  generation : ℤ
  expiresAt : Instant
  updatedAt : Instant
deriving DecidableEq

/-- `reconciliation_scheduled_jobs.state`. -/
inductive JobState where
  | pending
  | running
  | completed
deriving DecidableEq

/-- `reconciliation_runs.status`, which is also the outcome of a job. -/
inductive RunStatus where
  | matched
  | mismatch
  | failed
deriving DecidableEq

/-- A row of `reconciliation_scheduled_jobs`. -/
structure ScheduledJob where
  id : Uuid
  tenantId : Uuid
  scheduledFor : Instant
  ownerId : Option String
  generation : Option ℤ
  state : JobState
  runId : Option Uuid
  outcome : Option RunStatus
  startedAt : Option Instant
  completedAt : Option Instant
deriving DecidableEq

/-- A row of `reconciliation_runs`, as the scheduler reads it. -/
structure ReconciliationRun where
  id : Uuid
  tenantId : Uuid
  status : RunStatus
deriving DecidableEq

/-- The tables of the scheduler. -/
structure SchedulerDb where
  /-- `reconciliation_scheduler_tenants`: the workloads and their tenants. -/
  tenants : List (String × Uuid)
  leases : Table SchedulerLease.tenantId
  jobs : Table ScheduledJob.id
  runs : Table ReconciliationRun.id

/-- A procedure of the scheduler. -/
abbrev SchedulerProc (α : Type) : Type := Txn SchedulerDb PgError α

/-! ## The procedures -/

/-- `scheduler_tenant_allowed`: the session user may schedule the tenant. -/
def SchedulerDb.Allowed (s : SchedulerDb) (user : String) (tenant : Uuid) : Prop :=
  (user, tenant) ∈ s.tenants

/-- Whether a user may lead a tenant can be decided. -/
instance (s : SchedulerDb) (user : String) (tenant : Uuid) : Decidable (s.Allowed user tenant) :=
  inferInstanceAs (Decidable (_ ∈ _))

/-- `make_interval(secs => p_duration_ms / 1000)`. -/
def milliseconds (n : ℤ) : ℤ := n * 1000

/-- The arguments of `acquire_reconciliation_scheduler`, with its clock reading. -/
structure AcquireRequest where
  user : String
  tenant : Uuid
  owner : String
  durationMs : ℤ
  now : Instant

/-- `acquire_reconciliation_scheduler`: the generation of the lease, unless somebody else has it. -/
def acquireReconciliationScheduler (p : AcquireRequest) : SchedulerProc (Option ℤ) := do
  let s ← Txn.get
  Txn.raiseIf (¬s.Allowed p.user p.tenant) ⟨"42501", "", "scheduler tenant denied"⟩
  Txn.raiseIf (p.owner.toList.length < 1 ∨ 128 < p.owner.toList.length ∨ p.durationMs < 100 ∨
      60000 < p.durationMs) ⟨"P0001", "", "invalid scheduler lease"⟩
  let expires := p.now + milliseconds p.durationMs
  match s.leases.find? p.tenant with
  | none => do
    let t ← Txn.orRaise (s.leases.insert? ⟨p.tenant, p.owner, 1, expires, p.now⟩)
      (uniqueViolation "reconciliation_scheduler_leases_pkey")
    Txn.set { s with leases := t }
    pure (some 1)
  | some l =>
    if l.expiresAt ≤ p.now ∨ l.ownerId = p.owner then do
      let generation := if l.expiresAt ≤ p.now then l.generation + 1 else l.generation
      Txn.raiseIf (¬Bigint.Fits generation) outOfRange
      Txn.set { s with leases := s.leases.replace ⟨p.tenant, p.owner, generation, expires, p.now⟩ }
      pure (some generation)
    else pure none

/-- The fence that a caller presents. -/
structure Fence where
  user : String
  tenant : Uuid
  owner : String
  generation : ℤ

/-- The fence is that of the lease. -/
def SchedulerLease.HeldBy (l : SchedulerLease) (f : Fence) : Prop :=
  l.tenantId = f.tenant ∧ l.ownerId = f.owner ∧ l.generation = f.generation

/-- Whether a lease is held under a fence can be decided. -/
instance SchedulerLease.decidableHeldBy (l : SchedulerLease) (f : Fence) : Decidable (l.HeldBy f) :=
  inferInstanceAs (Decidable (_ ∧ _ ∧ _))

/-- The fence is that of the lease of its tenant, which has not lapsed at `now`. -/
def SchedulerDb.Live (s : SchedulerDb) (f : Fence) (now : Instant) : Prop :=
  ∃ l, s.leases.find? f.tenant = some l ∧ l.HeldBy f ∧ now < l.expiresAt

/-- Whether a fence is live can be decided. -/
instance (s : SchedulerDb) (f : Fence) (now : Instant) : Decidable (s.Live f now) :=
  inferInstanceAs (Decidable (∃ l, _ = some l ∧ _))

/-- The clock readings of a renewal: of its condition, and of the two columns that it sets. -/
structure RenewClock where
  check : Instant
  expires : Instant
  updated : Instant

/-- `renew_reconciliation_scheduler`: whether the lease was renewed. -/
def renewReconciliationScheduler (f : Fence) (durationMs : ℤ) (clock : RenewClock) :
    SchedulerProc Bool := do
  let s ← Txn.get
  Txn.raiseIf (¬s.Allowed f.user f.tenant ∨ durationMs < 100 ∨ 60000 < durationMs)
    ⟨"42501", "", "scheduler renewal denied"⟩
  if s.Live f clock.check then do
    Txn.set { s with leases := s.leases.update f.tenant fun l =>
      { l with
        expiresAt := clock.expires + milliseconds durationMs
        updatedAt := clock.updated } }
    pure true
  else pure false

/-- `release_reconciliation_scheduler`. -/
def releaseReconciliationScheduler (f : Fence) (expires updated : Instant) :
    SchedulerProc Unit := do
  let s ← Txn.get
  Txn.raiseIf (¬s.Allowed f.user f.tenant) ⟨"42501", "", "scheduler tenant denied"⟩
  match (s.leases.find? f.tenant).filter (·.HeldBy f) with
  | none => pure ()
  | some l =>
    Txn.set { s with leases := s.leases.replace { l with expiresAt := expires, updatedAt := updated } }

/-- The start of 1970. -/
def epoch : Instant := 62135596800000000

/-- The start of the interval that an instant lies in. -/
def intervalStart (seconds : ℤ) (now : Instant) : Instant :=
  epoch + (now - epoch) / (seconds * 1000000) * (seconds * 1000000)

/-- The arguments of `claim_reconciliation_schedule` besides the fence, with its clock readings, the
identifier that it draws, and the jobs that other transactions hold locked. -/
structure ScheduleClaim where
  intervalSeconds : ℤ
  check : Instant
  scheduled : Instant
  started : Instant
  created : Uuid
  locked : List Uuid

/-- `INSERT … ON CONFLICT (tenant_id, scheduled_for) DO NOTHING`. -/
def scheduleJob (tenant : Uuid) (scheduledFor : Instant) (created : Uuid) :
    SchedulerProc Unit := do
  let s ← Txn.get
  if ∃ j ∈ s.jobs.rows, j.tenantId = tenant ∧ j.scheduledFor = scheduledFor then pure ()
  else do
    let t ← Txn.orRaise (s.jobs.insert?
      ⟨created, tenant, scheduledFor, none, none, .pending, none, none, none, none⟩)
      (uniqueViolation "reconciliation_scheduled_jobs_pkey")
    Txn.set { s with jobs := t }

/-- The job may be claimed: it waits, or it runs under another generation. -/
def ScheduledJob.Claimable (j : ScheduledJob) (f : Fence) (locked : List Uuid) : Prop :=
  j.tenantId = f.tenant ∧ (j.state = .pending ∨
    (j.state = .running ∧ ∃ g, j.generation = some g ∧ g ≠ f.generation)) ∧ j.id ∉ locked

/-- Whether a job can be claimed can be decided. -/
instance (j : ScheduledJob) (f : Fence) (locked : List Uuid) : Decidable (j.Claimable f locked) :=
  inferInstanceAs (Decidable (_ ∧ (_ ∨ (_ ∧ ∃ g, _ = some g ∧ _)) ∧ _))

/-- The earliest job that may be claimed. -/
def SchedulerDb.nextJob (s : SchedulerDb) (f : Fence) (locked : List Uuid) : Option ScheduledJob :=
  ((s.jobs.rows.filter (·.Claimable f locked)).mergeSort
    fun x y => x.scheduledFor ≤ y.scheduledFor).head?

/-- A job that runs under a fence. -/
def ScheduledJob.start (j : ScheduledJob) (f : Fence) (now : Instant) : ScheduledJob :=
  { j with
    ownerId := some f.owner
    generation := some f.generation
    state := .running
    startedAt := some now }

/-- `claim_reconciliation_schedule`: the claimed job, if there is one to claim. -/
def claimReconciliationSchedule (f : Fence) (p : ScheduleClaim) : SchedulerProc (Option Uuid) := do
  let s ← Txn.get
  Txn.raiseIf (¬s.Allowed f.user f.tenant ∨ p.intervalSeconds < 15 ∨ 86400 < p.intervalSeconds)
    ⟨"42501", "", "scheduler tenant or interval denied"⟩
  Txn.raiseIf (¬s.Live f p.check) ⟨"55000", "", "stale scheduler fence"⟩
  scheduleJob f.tenant (intervalStart p.intervalSeconds p.scheduled) p.created
  let s ← Txn.get
  match s.nextJob f p.locked with
  | none => pure none
  | some j => do
    Txn.set { s with jobs := s.jobs.replace (j.start f p.started) }
    pure (some j.id)

/-- The arguments of `complete_reconciliation_schedule` besides the fence, with its clock
readings. -/
structure ScheduleCompletion where
  job : Uuid
  run : Uuid
  outcome : RunStatus
  check : Instant
  completed : Instant

/-- The job runs under a fence. -/
def ScheduledJob.RunsUnder (j : ScheduledJob) (f : Fence) : Prop :=
  j.tenantId = f.tenant ∧ j.ownerId = some f.owner ∧ j.generation = some f.generation ∧
    j.state = .running

/-- Whether a job runs under a fence can be decided. -/
instance (j : ScheduledJob) (f : Fence) : Decidable (j.RunsUnder f) :=
  inferInstanceAs (Decidable (_ ∧ _ ∧ _ ∧ _))

/-- A completed job. -/
def ScheduledJob.complete (j : ScheduledJob) (p : ScheduleCompletion) : ScheduledJob :=
  { j with
    state := .completed
    runId := some p.run
    outcome := some p.outcome
    completedAt := some p.completed }

/-- `complete_reconciliation_schedule`. -/
def completeReconciliationSchedule (f : Fence) (p : ScheduleCompletion) : SchedulerProc Unit := do
  let s ← Txn.get
  Txn.raiseIf (¬s.Allowed f.user f.tenant) ⟨"42501", "", "scheduler tenant denied"⟩
  Txn.raiseIf (¬s.Live f p.check) ⟨"55000", "", "stale scheduler fence"⟩
  Txn.raiseIf (¬∃ r, s.runs.find? p.run = some r ∧ r.tenantId = f.tenant ∧ r.status = p.outcome)
    ⟨"P0001", "", "scheduled result unavailable"⟩
  let j ← Txn.orRaise ((s.jobs.find? p.job).filter (·.RunsUnder f))
    ⟨"55000", "", "stale scheduled job"⟩
  Txn.set { s with jobs := s.jobs.replace (j.complete p) }

/-! ## Histories -/

/-- The calls of the schedulers, and what happens outside of them: a reconciliation stores its
result, and operators grant tenants to workloads. -/
inductive SchedulerCall where
  | acquire (p : AcquireRequest)
  | renew (f : Fence) (durationMs : ℤ) (clock : RenewClock)
  | release (f : Fence) (expires updated : Instant)
  | claim (f : Fence) (p : ScheduleClaim)
  | complete (f : Fence) (p : ScheduleCompletion)
  | reconcile (r : ReconciliationRun)
  | grant (tenants : List (String × Uuid))

/-- A call as a transaction. -/
def SchedulerCall.exec : SchedulerCall → SchedulerProc Unit
  | .acquire p => Txn.discard (acquireReconciliationScheduler p)
  | .renew f durationMs clock => Txn.discard (renewReconciliationScheduler f durationMs clock)
  | .release f expires updated => releaseReconciliationScheduler f expires updated
  | .claim f p => Txn.discard (claimReconciliationSchedule f p)
  | .complete f p => completeReconciliationSchedule f p
  | .reconcile r => do
    let s ← Txn.get
    let t ← Txn.orRaise (s.runs.insert? r) (uniqueViolation "reconciliation_runs_pkey")
    Txn.set { s with runs := t }
  | .grant tenants => do
    let s ← Txn.get
    Txn.set { s with tenants := tenants }

/-! ## What a call can do -/

/-- What a call leaves of a lease: its owner and generation, unless it acquired a lease that had
lapsed. -/
def SchedulerLease.Follows (c : SchedulerCall) (l' l : SchedulerLease) : Prop :=
  (l'.ownerId = l.ownerId ∧ l'.generation = l.generation) ∨
    ∃ p, c = .acquire p ∧ p.tenant = l.tenantId ∧ l.expiresAt ≤ p.now ∧ l'.ownerId = p.owner ∧
      l'.generation = l.generation + 1

/-- What a call leaves of a job: everything, or, where the job is not completed, its place in the
schedule. -/
def ScheduledJob.Follows (j' j : ScheduledJob) : Prop :=
  j' = j ∨ j.state ≠ .completed

section Steps

variable {c : SchedulerCall} {s s' : SchedulerDb} {u : Unit}

/-- Every lease is followed by a lease. -/
def LeaseStep (c : SchedulerCall) (t t' : Table SchedulerLease.tenantId) : Prop :=
  ∀ i l, t.find? i = some l → ∃ l', t'.find? i = some l' ∧ l'.Follows c l

/-- Leases that stay are a step. -/
theorem LeaseStep.of_eq {t t' : Table SchedulerLease.tenantId} (h : t' = t) : LeaseStep c t t' := by
  intro i l hl
  rw [h]
  exact ⟨l, hl, .inl ⟨rfl, rfl⟩⟩

/-- A lease that is replaced by one that follows it is a step. -/
theorem LeaseStep.replace {t : Table SchedulerLease.tenantId} {l₀ l' : SchedulerLease}
    (hfind : t.find? l'.tenantId = some l₀) (hfollows : l'.Follows c l₀) :
    LeaseStep c t (t.replace l') := by
  intro i l hl
  rw [Table.find?_replace]
  split_ifs with hi
  · subst hi
    obtain rfl := Option.some.inj (hl.symm.trans hfind)
    exact ⟨l', by rw [hl]; rfl, hfollows⟩
  · exact ⟨l, hl, .inl ⟨rfl, rfl⟩⟩

/-- Acquiring a lease is a step of the leases and leaves the jobs. -/
theorem acquireReconciliationScheduler_ok {p : AcquireRequest} {r : Option ℤ}
    (h : acquireReconciliationScheduler p s = .ok (r, s')) :
    LeaseStep (.acquire p) s.leases s'.leases ∧ s'.jobs = s.jobs := by
  simp only [acquireReconciliationScheduler, Txn.get_bind_ok, Txn.raiseIf_bind_ok] at h
  obtain ⟨-, -, h⟩ := h
  -- The tenant has no lease yet, or it has one.
  rcases hfind : s.leases.find? p.tenant with _ | l
  · simp only [hfind, Txn.orRaise_bind_ok, Txn.set_bind_ok, Txn.pure_ok] at h
    obtain ⟨t, ht, -, rfl⟩ := h
    refine ⟨fun i l hl => ?_, rfl⟩
    exact ⟨l, Table.find?_insert?_of_some ht hl, .inl ⟨rfl, rfl⟩⟩
  · have hkey : l.tenantId = p.tenant := Table.key_of_find? hfind
    simp only [hfind] at h
    -- It is renewed by its owner, taken over once it has lapsed, or kept by another.
    split_ifs at h with hopen hlapsed
    · simp only [Txn.raiseIf_bind_ok, Txn.set_bind_ok, Txn.pure_ok] at h
      obtain ⟨-, -, rfl⟩ := h
      refine ⟨LeaseStep.replace hfind (.inr ⟨p, rfl, hkey.symm, hlapsed, rfl, rfl⟩), rfl⟩
    · simp only [Txn.raiseIf_bind_ok, Txn.set_bind_ok, Txn.pure_ok] at h
      obtain ⟨-, -, rfl⟩ := h
      refine ⟨LeaseStep.replace hfind (.inl ⟨(hopen.resolve_left hlapsed).symm, rfl⟩), rfl⟩
    · rw [Txn.pure_ok] at h
      obtain ⟨-, rfl⟩ := h
      exact ⟨.of_eq rfl, rfl⟩

/-- Renewing a lease is a step of the leases and leaves the jobs. -/
theorem renewReconciliationScheduler_ok {f : Fence} {durationMs : ℤ} {clock : RenewClock} {r : Bool}
    (h : renewReconciliationScheduler f durationMs clock s = .ok (r, s')) :
    LeaseStep (.renew f durationMs clock) s.leases s'.leases ∧ s'.jobs = s.jobs := by
  simp only [renewReconciliationScheduler, Txn.get_bind_ok, Txn.raiseIf_bind_ok] at h
  obtain ⟨-, h⟩ := h
  split_ifs at h with hlive
  · simp only [Txn.set_bind_ok, Txn.pure_ok] at h
    obtain ⟨-, rfl⟩ := h
    refine ⟨fun i l hl => ?_, rfl⟩
    by_cases hi : i = f.tenant
    · subst hi
      refine ⟨{ l with
        expiresAt := clock.expires + milliseconds durationMs
        updatedAt := clock.updated }, ?_, .inl ⟨rfl, rfl⟩⟩
      rw [Table.find?_update_self, hl, Option.map_some]
    · exact ⟨l, by rw [Table.find?_update_ne hi, hl], .inl ⟨rfl, rfl⟩⟩
  · rw [Txn.pure_ok] at h
    obtain ⟨-, rfl⟩ := h
    exact ⟨.of_eq rfl, rfl⟩

/-- Releasing a lease is a step of the leases and leaves the jobs. -/
theorem releaseReconciliationScheduler_ok {f : Fence} {expires updated : Instant}
    (h : releaseReconciliationScheduler f expires updated s = .ok (u, s')) :
    LeaseStep (.release f expires updated) s.leases s'.leases ∧ s'.jobs = s.jobs := by
  simp only [releaseReconciliationScheduler, Txn.get_bind_ok, Txn.raiseIf_bind_ok] at h
  obtain ⟨-, h⟩ := h
  rcases hfind : (s.leases.find? f.tenant).filter (·.HeldBy f) with _ | l
  · simp only [hfind, Txn.pure_ok] at h
    obtain ⟨-, rfl⟩ := h
    exact ⟨.of_eq rfl, rfl⟩
  · simp only [hfind, Txn.set_ok] at h
    subst h
    have hl := (Option.filter_eq_some_iff.mp hfind).1
    have hkey : s.leases.find? l.tenantId = some l := (Table.key_of_find? hl).symm ▸ hl
    exact ⟨LeaseStep.replace hkey (.inl ⟨rfl, rfl⟩), rfl⟩

/-- A claim is made under the live lease. It adds a job perhaps, and starts one that is not
completed. -/
theorem claimReconciliationSchedule_ok {f : Fence} {p : ScheduleClaim} {r : Option Uuid}
    (h : claimReconciliationSchedule f p s = .ok (r, s')) :
    s.Live f p.check ∧ s'.leases = s.leases ∧
      ∀ i j, s.jobs.find? i = some j → ∃ j', s'.jobs.find? i = some j' ∧ j'.Follows j := by
  simp only [claimReconciliationSchedule, Txn.get_bind_ok, Txn.raiseIf_bind_ok, not_not] at h
  obtain ⟨-, hlive, h⟩ := h
  obtain ⟨_, s₁, hschedule, h⟩ := Txn.bind_ok.mp h
  -- The new job is another one than those that are there.
  have hnew : s₁.leases = s.leases ∧ ∀ i j, s.jobs.find? i = some j → s₁.jobs.find? i = some j := by
    simp only [scheduleJob, Txn.get_bind_ok] at hschedule
    split_ifs at hschedule
    · obtain ⟨-, rfl⟩ := Txn.pure_ok.mp hschedule
      exact ⟨rfl, fun _ _ hj => hj⟩
    · simp only [Txn.orRaise_bind_ok, Txn.set_ok] at hschedule
      obtain ⟨t, ht, rfl⟩ := hschedule
      exact ⟨rfl, fun _ _ hj => Table.find?_insert?_of_some ht hj⟩
  rw [Txn.get_bind_ok] at h
  rcases hnext : s₁.nextJob f p.locked with _ | k
  · simp only [hnext, Txn.pure_ok] at h
    obtain ⟨-, rfl⟩ := h
    exact ⟨hlive, hnew.1, fun i j hj => ⟨j, hnew.2 i j hj, .inl rfl⟩⟩
  · simp only [hnext, Txn.set_bind_ok, Txn.pure_ok] at h
    obtain ⟨-, rfl⟩ := h
    have hmem : k ∈ s₁.jobs.rows.filter (·.Claimable f p.locked) :=
      List.mem_mergeSort.mp (List.mem_of_head? hnext)
    obtain ⟨hk, hclaimable⟩ := List.mem_filter.mp hmem
    have hopen : k.state ≠ .completed := by
      rcases (of_decide_eq_true hclaimable).2.1 with hstate | ⟨hstate, -⟩ <;> simp [hstate]
    refine ⟨hlive, hnew.1, fun i j hj => ?_⟩
    have hj₁ := hnew.2 i j hj
    rw [Table.find?_replace]
    split_ifs with hi
    · have hsame : s₁.jobs.find? i = some k :=
        Table.find?_eq_some.mpr ⟨hk, hi.symm⟩
      obtain rfl := Option.some.inj (hj₁.symm.trans hsame)
      exact ⟨j.start f p.started, by rw [hj₁]; rfl, .inr hopen⟩
    · exact ⟨j, hj₁, .inl rfl⟩

/-- A completion is made under the live lease, of a job that runs under it. -/
theorem completeReconciliationSchedule_ok {f : Fence} {p : ScheduleCompletion}
    (h : completeReconciliationSchedule f p s = .ok (u, s')) :
    s.Live f p.check ∧ ∃ j, s.jobs.find? p.job = some j ∧ j.RunsUnder f ∧
      s' = { s with jobs := s.jobs.replace (j.complete p) } := by
  simp only [completeReconciliationSchedule, Txn.get_bind_ok, Txn.raiseIf_bind_ok,
    Txn.orRaise_bind_ok, Txn.set_ok, Option.filter_eq_some_iff, decide_eq_true_eq, not_not] at h
  obtain ⟨-, hlive, -, j, ⟨hfind, hruns⟩, rfl⟩ := h
  exact ⟨hlive, j, hfind, hruns, rfl⟩

/-- What a returning call did to the leases and the jobs. -/
theorem SchedulerCall.exec_ok (h : c.exec s = .ok (u, s')) :
    LeaseStep c s.leases s'.leases ∧
      ∀ i j, s.jobs.find? i = some j → ∃ j', s'.jobs.find? i = some j' ∧ j'.Follows j := by
  -- Most calls leave the jobs alone.
  have hkeep : s'.jobs = s.jobs →
      ∀ i j, s.jobs.find? i = some j → ∃ j', s'.jobs.find? i = some j' ∧ j'.Follows j := by
    intro hjobs i j hj
    rw [hjobs]
    exact ⟨j, hj, .inl rfl⟩
  cases c with
  | acquire p =>
    obtain ⟨r, h⟩ := Txn.discard_ok.mp h
    obtain ⟨hleases, hjobs⟩ := acquireReconciliationScheduler_ok h
    exact ⟨hleases, hkeep hjobs⟩
  | renew f durationMs clock =>
    obtain ⟨r, h⟩ := Txn.discard_ok.mp h
    obtain ⟨hleases, hjobs⟩ := renewReconciliationScheduler_ok h
    exact ⟨hleases, hkeep hjobs⟩
  | release f expires updated =>
    obtain ⟨hleases, hjobs⟩ := releaseReconciliationScheduler_ok h
    exact ⟨hleases, hkeep hjobs⟩
  | claim f p =>
    obtain ⟨r, h⟩ := Txn.discard_ok.mp h
    obtain ⟨-, hleases, hjobs⟩ := claimReconciliationSchedule_ok h
    exact ⟨.of_eq hleases, hjobs⟩
  | complete f p =>
    obtain ⟨-, j, hj, hruns, rfl⟩ := completeReconciliationSchedule_ok h
    have hkey : j.id = p.job := Table.key_of_find? hj
    -- The job that completes was not completed before, and the others stay.
    refine ⟨.of_eq rfl, fun i k hk => ?_⟩
    rw [Table.find?_replace]
    split_ifs with hi
    · rw [hi, show (j.complete p).id = p.job from hkey] at hk
      obtain rfl := Option.some.inj (hj.symm.trans hk)
      refine ⟨j.complete p, ?_, .inr (by simp [hruns.2.2.2])⟩
      rw [hi, show (j.complete p).id = p.job from hkey, hj]
      rfl
    · exact ⟨k, hk, .inl rfl⟩
  | reconcile r =>
    simp only [SchedulerCall.exec, Txn.get_bind_ok, Txn.orRaise_bind_ok, Txn.set_ok] at h
    obtain ⟨t, -, rfl⟩ := h
    exact ⟨.of_eq rfl, hkeep rfl⟩
  | grant tenants =>
    simp only [SchedulerCall.exec, Txn.get_bind_ok, Txn.set_ok] at h
    subst h
    exact ⟨.of_eq rfl, hkeep rfl⟩

/-- A lease that was there is there after the call, with what the call leaves of it. -/
theorem SchedulerCall.commit_lease (c : SchedulerCall) {i : Uuid} {l : SchedulerLease}
    (hl : s.leases.find? i = some l) :
    ∃ l', (commit c.exec s).leases.find? i = some l' ∧ l'.Follows c l := by
  rcases commit_cases c.exec s with h | ⟨u, h⟩
  · rw [h]
    exact ⟨l, hl, .inl ⟨rfl, rfl⟩⟩
  · exact (SchedulerCall.exec_ok h).1 i l hl

end Steps

/-! ## Every history -/

section Histories

variable {s : SchedulerDb}

/-- A lease follows another over any number of calls: the generation never falls, and it grows when
the owner changes. -/
def SchedulerLease.Since (l' l : SchedulerLease) : Prop :=
  l.generation ≤ l'.generation ∧ (l'.ownerId ≠ l.ownerId → l.generation < l'.generation)

/-- A lease that follows one since the first is one since the first. -/
theorem SchedulerLease.Follows.since {c : SchedulerCall} {l₀ l l' : SchedulerLease}
    (h : l'.Follows c l) (hl : l.Since l₀) : l'.Since l₀ := by
  obtain ⟨hle, hlt⟩ := hl
  rcases h with ⟨howner, hgen⟩ | ⟨p, -, -, -, -, hgen⟩
  · unfold SchedulerLease.Since
    rw [howner, hgen]
    exact ⟨hle, hlt⟩
  · constructor
    · omega
    · intro
      omega

/-- Every history takes a lease to one since it: the generation never falls, and it grows when the
owner changes. -/
theorem run_lease (cs : List SchedulerCall) {i : Uuid} {l : SchedulerLease}
    (hl : s.leases.find? i = some l) :
    ∃ l', (run SchedulerCall.exec cs s).leases.find? i = some l' ∧ l'.Since l := by
  refine run_invariant (I := fun t : SchedulerDb => ∃ l', t.leases.find? i = some l' ∧ l'.Since l)
    (fun c t u t' h => ?_) cs ⟨l, hl, le_refl _, fun hne => absurd rfl hne⟩
  rintro ⟨l₁, hl₁, hsince⟩
  obtain ⟨l₂, hl₂, hfollows⟩ := (SchedulerCall.exec_ok h).1 i l₁ hl₁
  exact ⟨l₂, hl₂, hfollows.since hsince⟩

/-- A completed job stays as it is. -/
theorem run_completed (cs : List SchedulerCall) {i : Uuid} {j : ScheduledJob}
    (hj : s.jobs.find? i = some j) (hcompleted : j.state = .completed) :
    (run SchedulerCall.exec cs s).jobs.find? i = some j := by
  refine run_invariant (I := fun t : SchedulerDb => t.jobs.find? i = some j)
    (fun c t u t' h hI => ?_) cs hj
  obtain ⟨j', hj', rfl | hopen⟩ := (SchedulerCall.exec_ok h).2 i j hI
  · exact hj'
  · exact absurd hcompleted hopen

/-- No later completion of a completed job returns. -/
theorem completed_once {f f' : Fence} {p p' : ScheduleCompletion} {u u' : Unit}
    {s' t : SchedulerDb} (h : completeReconciliationSchedule f p s = .ok (u, s'))
    (later : List SchedulerCall) (hjob : p'.job = p.job)
    (h' : completeReconciliationSchedule f' p' (run SchedulerCall.exec later s') = .ok (u', t)) :
    False := by
  obtain ⟨-, j, hj, -, rfl⟩ := completeReconciliationSchedule_ok h
  have hkey : j.id = p.job := Table.key_of_find? hj
  have hdone := run_completed later
    (s := { s with jobs := s.jobs.replace (j.complete p) }) (i := p.job) (j := j.complete p)
    (Table.find?_replace_self hj hkey) rfl
  obtain ⟨-, k, hk, hruns, -⟩ := completeReconciliationSchedule_ok h'
  rw [hjob] at hk
  obtain rfl := Option.some.inj (hdone.symm.trans hk)
  cases hruns.2.2.2

end Histories

/-- After every history of calls by any number of instances with any clock readings: at every
instant at most one owner and generation has a live lease of a tenant; the generation of a tenant
never falls and grows whenever the owner changes; no call takes a lease from its owner and
generation before it has lapsed; a claim or a completion that returns was made under the live lease
of its moment; and no job is completed twice. -/
theorem scheduler_leadership (s : SchedulerDb) (cs : List SchedulerCall) :
    (∀ f f' now, (run SchedulerCall.exec cs s).Live f now →
      (run SchedulerCall.exec cs s).Live f' now → f.tenant = f'.tenant →
      f.owner = f'.owner ∧ f.generation = f'.generation) ∧
    (∀ tenant l later, (run SchedulerCall.exec cs s).leases.find? tenant = some l →
      ∃ l', (run SchedulerCall.exec (cs ++ later) s).leases.find? tenant = some l' ∧
        l.generation ≤ l'.generation ∧ (l'.ownerId ≠ l.ownerId → l.generation < l'.generation)) ∧
    (∀ tenant l c, (run SchedulerCall.exec cs s).leases.find? tenant = some l →
      ∃ l', (run SchedulerCall.exec (cs ++ [c]) s).leases.find? tenant = some l' ∧
        l'.Follows c l) ∧
    (∀ f p r t, claimReconciliationSchedule f p (run SchedulerCall.exec cs s) = .ok (r, t) →
      (run SchedulerCall.exec cs s).Live f p.check) ∧
    ∀ f p t, completeReconciliationSchedule f p (run SchedulerCall.exec cs s) = .ok ((), t) →
      (run SchedulerCall.exec cs s).Live f p.check ∧
      ∀ later f' p' t', p'.job = p.job →
        completeReconciliationSchedule f' p' (run SchedulerCall.exec later t) ≠ .ok ((), t') := by
  refine ⟨?_, ?_, ?_, ?_, ?_⟩
  · rintro f f' now ⟨l, hl, ⟨-, howner, hgen⟩, -⟩ ⟨l', hl', ⟨-, howner', hgen'⟩, -⟩ htenant
    rw [htenant] at hl
    obtain rfl := Option.some.inj (hl.symm.trans hl')
    exact ⟨howner.symm.trans howner', hgen.symm.trans hgen'⟩
  · intro tenant l later hl
    rw [run_append]
    exact run_lease later hl
  · intro tenant l c hl
    rw [run_append]
    exact c.commit_lease hl
  · intro f p r t h
    exact (claimReconciliationSchedule_ok h).1
  · intro f p t h
    refine ⟨(completeReconciliationSchedule_ok h).1, fun later f' p' t' hjob h' => ?_⟩
    exact completed_once h later hjob h'

end LedgerSync
