import LedgerSync.CommandSequence
import LedgerSync.Lib.FixedWindow
import LedgerSync.Retention
import LedgerSync.System

/-!
# Rate limits

Every request of a principal is counted in `api_rate_limit_windows`, in a row for the tenant, the
digest of the principal, the route and the window of time, and answered with 429 once the count is
over a limit. A write passes three such checks before it is served: the requests of the tenant in a
second, those in a minute, and those of the principal in a minute. The replicas of the API share the
table, so the checks of different requests interleave in any order, while maintenance deletes
windows that are over.

Every answer is the one that counting all requests gives (`consumption_exact`), so of the requests
that pass a check within one length of its window, no more than twice the limit do
(`admitted_within_limit`).
-/

namespace LedgerSync

open Lib

/-! ## The table -/

/-- A row of `api_rate_limit_windows`. -/
structure RateLimitWindow extends RateWindow where
  requestCount : ℕ
  /-- `CHECK (request_count > 0)`. -/
  requestCount_pos : 0 < requestCount
  /-- The column is an `INTEGER`. -/
  requestCount_lt : requestCount < 2 ^ 31
deriving DecidableEq

/-- The type of the primary key of `api_rate_limit_windows`. -/
abbrev RateKey : Type := Uuid × Bytes × String × Instant

/-- The primary key of `api_rate_limit_windows`. -/
def RateLimitWindow.key (w : RateLimitWindow) : RateKey := w.toRateWindow.key

/-- The window with a count, if the column can hold it. -/
def RateWindow.counted? (w : RateWindow) (count : ℕ) : Option RateLimitWindow :=
  if h : 0 < count ∧ count < 2 ^ 31 then some ⟨w, count, h.1, h.2⟩ else none

/-- The tenants, and the windows. -/
structure RateDb where
  tenants : List Uuid
  windows : Table RateLimitWindow.key

/-- The count of a window. -/
def RateDb.count (s : RateDb) (k : RateKey) : ℕ :=
  (s.windows.find? k).elim 0 RateLimitWindow.requestCount

/-- `INSERT … ON CONFLICT … DO UPDATE SET request_count=…`, of a row that was computed before. -/
def RateDb.put (s : RateDb) (row : RateLimitWindow) : RateDb :=
  { s with windows := (s.windows.insert? row).getD (s.windows.replace row) }

/-- The statement of `Consume`: the count of the window with one request more. -/
def countRequest (w : RateWindow) : Txn RateDb PgError ℕ := do
  let s ← Txn.get
  let row ← Txn.orRaise (w.counted? (s.count w.key + 1)) ⟨"22003", "", "integer out of range"⟩
  Txn.raiseIf (s.windows.find? w.key = none ∧ w.tenantId ∉ s.tenants)
    ⟨"23503", "api_rate_limit_windows_tenant_id_fkey",
      "insert or update on table \"api_rate_limit_windows\" violates foreign key constraint " ++
        "\"api_rate_limit_windows_tenant_id_fkey\""⟩
  Txn.set (s.put row)
  pure row.requestCount

/-! ## Counting a request -/

/-- What can go wrong with a transaction other than its statements: an error before the first one,
or an error of the commit, which may have been stored nevertheless. -/
inductive TransactionFault where
  | before (e : CommandError)
  | commit (e : DriverError) (stored : Bool)

/-- `WithTenantTransaction`, up to the commit. -/
def scopedTransaction {σ α : Type} (scope : TenantScope) (body : Txn σ PgError α) :
    Txn σ CommandError α := fun s =>
  match scope.canonical with
  | none => .error (.sentinel .invalidTenantScope)
  | some _ => match body s with
    | .error e => .error (.driver (.postgres "ERROR" e))
    | .ok r => .ok r

/-- `WithTenantTransaction`: what it returns, and the store that it leaves. -/
def withTenantTransaction {σ α : Type} (scope : TenantScope) (fault : Option TransactionFault)
    (body : Txn σ PgError α) (s : σ) : Except CommandError α × σ :=
  match fault, scopedTransaction scope body s with
  | some (.before e), _ =>
    (.error (if scope.canonical = none then .sentinel .invalidTenantScope else e), s)
  | _, .error e => (.error e, s)
  | none, .ok (a, s') => (.ok a, s')
  | some (.commit e stored), .ok (_, s') =>
    (.error (.wrapped "commit tenant transaction" (.driver e)), if stored then s' else s)

/-- The arguments of `Consume`. The window is a number of nanoseconds. -/
structure RateRequest where
  tenantId : String
  principalId : String
  route : String
  limit : ℤ
  window : ℤ
deriving DecidableEq

/-- `RateLimitDecision`. -/
structure RateLimitDecision where
  allowed : Bool
  retryAfter : ℤ
deriving DecidableEq

namespace RateRequest

/-- `windowSeconds`. -/
def seconds (r : RateRequest) : ℤ := r.window.tdiv second

/-- The start of the window that the clock is in. -/
def started (r : RateRequest) (now : Time) : Time := timeUnix (windowStart r.seconds now.unix)

/-- The window that the request is counted in. -/
def rateWindow (d : Digest) (r : RateRequest) (tenant : Uuid) (now : Time) : RateWindow where
  tenantId := tenant
  principalHash := d.sha256 r.principalId
  routeKey := r.route
  windowStartedAt := r.started now / 1000

/-- The transaction of `Consume`. -/
def transaction (d : Digest) (r : RateRequest) (now : Time) : Txn RateDb PgError ℕ := do
  let tenant ← Txn.orRaise (Uuid.ofText? r.tenantId)
    ⟨"22P02", "", "invalid input syntax for type uuid"⟩
  countRequest (r.rateWindow d tenant now)

/-- The decision on a request that was counted. -/
def decision (r : RateRequest) (now : Time) (count : ℕ) : RateLimitDecision :=
  if (count : ℤ) ≤ r.limit then ⟨true, 0⟩
  else ⟨false, max second (r.started now + r.window - now)⟩

/-- The dimensions that `Consume` refuses. -/
def Malformed (r : RateRequest) : Prop :=
  r.tenantId = "" ∨ r.principalId = "" ∨ r.route = "" ∨ r.limit < 1 ∨ r.window < second

/-- Whether a request is malformed can be decided. -/
instance Malformed.decidable (r : RateRequest) : Decidable r.Malformed :=
  inferInstanceAs (Decidable (_ ∨ _))

/-- The scope of the transaction. -/
def scope (r : RateRequest) : TenantScope := ⟨r.tenantId, r.principalId⟩

/-- What a request is counted as: its key without the window. -/
def counter? (d : Digest) (r : RateRequest) : Option (Uuid × Bytes × String) :=
  (Uuid.ofText? r.tenantId).map fun tenant => (tenant, d.sha256 r.principalId, r.route)

/-- `Consume`. -/
def consume (d : Digest) (r : RateRequest) (now : Time) (fault : Option TransactionFault)
    (s : RateDb) : Except CommandError RateLimitDecision × RateDb :=
  if r.Malformed then (.error (.plain "valid rate limit dimensions are required"), s)
  else match withTenantTransaction r.scope fault (r.transaction d now) s with
    | (.error e, s') => (.error (.wrapped "consume rate limit" e), s')
    | (.ok count, s') => (.ok (r.decision now count), s')

end RateRequest

/-! ## The checks of a handler -/

/-- A call of `enforceRateLimitWindow`: what it consumes, and whether an error denies a request. -/
structure Check where
  request : RateRequest
  failClosed : Bool
deriving DecidableEq

/-- What a request that fails a check is answered with: the error, or 429 with `Retry-After`. -/
inductive Refusal where
  | failed (e : CommandError)
  | rateLimited (retrySeconds : ℤ)
deriving DecidableEq

/-- `d.Round(time.Second)`, of a duration that is not negative. -/
def roundSecond (d : ℤ) : ℤ :=
  let r := d % second
  if r + r < second then d - r else d + (second - r)

/-- The header `Retry-After`. -/
def RateLimitDecision.retrySeconds (decision : RateLimitDecision) : ℤ :=
  max 1 (roundSecond decision.retryAfter / second)

/-- `enforceRateLimitWindow`, on what `Consume` returned. -/
def Check.refusal? (c : Check) : Except CommandError RateLimitDecision → Option Refusal
  | .error e => if c.failClosed then some (.failed e) else none
  | .ok decision => if decision.allowed then none else some (.rateLimited decision.retrySeconds)

/-- `tenantCapacityPrincipal`. -/
def tenantCapacityPrincipal : String := "ledgersync:tenant-capacity"

/-- What a handler enforces before it serves a request of a principal: the capacity of the tenant,
when the route writes, and the rate of the principal. -/
structure Guard where
  tenantId : String
  subjectId : String
  route : String
  write : Bool
  capacityLimit : ℤ
  rateLimit : ℤ
  failClosed : Bool
deriving DecidableEq

namespace Guard

/-- `enforceTenantCapacity`. -/
def capacityChecks (g : Guard) : List Check :=
  if g.capacityLimit < 1 then []
  else
    [⟨⟨g.tenantId, tenantCapacityPrincipal, g.route ++ ":capacity:second", g.capacityLimit,
      second⟩, true⟩,
    ⟨⟨g.tenantId, tenantCapacityPrincipal, g.route ++ ":capacity:minute",
      int64 (g.capacityLimit * 60), 60 * second⟩, true⟩]

/-- `enforceRateLimit`. -/
def rateCheck (g : Guard) : Check :=
  ⟨⟨g.tenantId, g.subjectId, g.route, g.rateLimit, 60 * second⟩, g.failClosed⟩

/-- The checks in the order of the handlers. -/
def checks (g : Guard) : List Check :=
  (if g.write then g.capacityChecks else []) ++ [g.rateCheck]

end Guard

/-! ## Requests in flight -/

/-- A reading of the clock of a replica. -/
structure Reading where
  micro : Timestamp
  nano : Fin 1000

/-- The nanoseconds of a reading. -/
def Reading.time (r : Reading) : Time := r.micro.micros * 1000 + r.nano.val

/-- A check that a request passed, and when. -/
structure Passage where
  check : Check
  time : Time
deriving DecidableEq

/-- A request with the checks that it passed, the latest first, and those that are left. -/
structure Flight where
  id : ℕ
  guard : Guard
  passed : List Passage
  remaining : List Check
  refusal : Option Refusal
deriving DecidableEq

/-- The checks let the request through. -/
def Flight.Admitted (f : Flight) : Prop := f.remaining = [] ∧ f.refusal = none

/-- Whether a flight is admitted can be decided. -/
instance Flight.Admitted.decidable (f : Flight) : Decidable f.Admitted :=
  inferInstanceAs (Decidable (_ ∧ _))

/-- The table, the requests, and the log of what was counted, which the code does not keep. -/
structure Gate where
  db : RateDb
  flights : Table Flight.id
  log : List (Verdict ℕ RateKey)

/-- A request that arrives, its next check, and a call of maintenance. -/
inductive GateCall where
  | arrive (id : ℕ) (guard : Guard)
  | check (id : ℕ) (now : Reading) (fault : Option TransactionFault)
  | retention (sess : Session) (p : RetentionPolicy) (others : RetentionDb)

/-- The windows as retention sees them. -/
def RateDb.rates (s : RateDb) : Table RateWindow.key where
  rows := s.windows.rows.map RateLimitWindow.toRateWindow
  nodup := by
    rw [List.map_map]
    exact s.windows.nodup

/-- The windows that a call of maintenance leaves. -/
def RateDb.purge (sess : Session) (p : RetentionPolicy) (others : RetentionDb) (s : RateDb) :
    RateDb :=
  match controlledRunRetentionV1 sess p { others with rates := s.rates } with
  | .error _ => s
  | .ok (_, t) => { s with windows := s.windows.delete fun w => w.toRateWindow ∉ t.rates.rows }

/-- The entry of the log for a call of `Consume` that stored a count. -/
def RateRequest.verdict? (d : Digest) (r : RateRequest) (now : Time)
    (fault : Option TransactionFault) (who : ℕ) (s : RateDb) : Option (Verdict ℕ RateKey) :=
  if r.Malformed then none
  else match Uuid.ofText? r.tenantId, fault, scopedTransaction r.scope (r.transaction d now) s with
    | some tenant, none, .ok (count, _) =>
      some ⟨who, (r.rateWindow d tenant now).key, r.limit, some (r.decision now count).allowed⟩
    | some tenant, some (.commit _ true), .ok _ =>
      some ⟨who, (r.rateWindow d tenant now).key, r.limit, none⟩
    | _, _, _ => none

/-- A request after its next check. -/
def Flight.after (f : Flight) (c : Check) (rest : List Check) (now : Time) :
    Option Refusal → Flight
  | none => { f with passed := ⟨c, now⟩ :: f.passed, remaining := rest }
  | some refusal => { f with refusal := some refusal }

/-- The gate after the next check of a request. -/
def Gate.check (d : Digest) (s : Gate) (f : Flight) (c : Check) (rest : List Check) (now : Time)
    (fault : Option TransactionFault) : Gate where
  db := (c.request.consume d now fault s.db).2
  flights := s.flights.replace
    (f.after c rest now (c.refusal? (c.request.consume d now fault s.db).1))
  log := (c.request.verdict? d now fault f.id s.db).toList ++ s.log

/-- One step. A request that was refused makes no more checks. -/
def Gate.step (d : Digest) (s : Gate) : GateCall → Gate
  | .arrive id guard =>
    { s with flights := (s.flights.insert? ⟨id, guard, [], guard.checks, none⟩).getD s.flights }
  | .check id now fault => match s.flights.find? id with
    | some ⟨id, guard, passed, c :: rest, none⟩ =>
      s.check d ⟨id, guard, passed, c :: rest, none⟩ c rest now.time fault
    | _ => s
  | .retention sess p others => { s with db := s.db.purge sess p others }

/-- The gate before the first request. -/
def Gate.start (tenants : List Uuid) : Gate := ⟨⟨tenants, .empty⟩, .empty, []⟩

/-- The gate after a history. -/
def gateRun (d : Digest) (tenants : List Uuid) (cs : List GateCall) : Gate :=
  cs.foldl (Gate.step d) (.start tenants)

/-- The clock of maintenance is at most 59 minutes ahead of the clocks of later checks. -/
def GateCall.Before : GateCall → GateCall → Prop
  | .retention _ p _, .check _ now _ => p.now ≤ instant now.micro + 3540000000
  | _, _ => True

/-- The history goes forward in time, as far as maintenance sees it. -/
def Timely (cs : List GateCall) : Prop := cs.Pairwise GateCall.Before

/-! ## One call of `Consume` -/

section Consume

variable {d : Digest} {r : RateRequest} {now : Time} {fault : Option TransactionFault} {who : ℕ}
  {s s' : RateDb} {w : RateWindow} {row : RateLimitWindow} {k : RateKey} {count : ℕ}

/-- A counted row is the window with its count. -/
theorem RateWindow.counted?_eq_some (h : w.counted? count = some row) :
    row.toRateWindow = w ∧ row.requestCount = count := by
  unfold RateWindow.counted? at h
  split_ifs at h
  obtain rfl := Option.some.inj h
  exact ⟨rfl, rfl⟩

/-- Storing a row changes what is found under its key and nothing else. -/
theorem RateDb.find?_put (s : RateDb) (row : RateLimitWindow) (k : RateKey) :
    (s.put row).windows.find? k = if k = row.key then some row else s.windows.find? k := by
  unfold RateDb.put
  rcases hins : s.windows.insert? row with _ | t
  · -- The key is taken, so the row takes the place of the one that has it.
    have htaken : ∃ x, s.windows.find? row.key = some x := by
      refine Option.ne_none_iff_exists'.mp fun hnone => ?_
      obtain ⟨t, ht⟩ := Table.exists_insert? hnone
      rw [hins] at ht
      cases ht
    obtain ⟨x, hx⟩ := htaken
    rw [Option.getD_none]
    by_cases hk : k = row.key
    · rw [if_pos hk, hk]
      exact Table.find?_replace_self hx rfl
    · rw [if_neg hk]
      exact Table.find?_replace_ne hk
  · rw [Option.getD_some]
    exact Table.find?_insert? hins k

/-- Counting a request stores the next count of its window and returns it. -/
theorem countRequest_ok (h : countRequest w s = .ok (count, s')) :
    ∃ row : RateLimitWindow, row.toRateWindow = w ∧ row.requestCount = s.count w.key + 1 ∧
      s' = s.put row ∧ count = row.requestCount := by
  simp only [countRequest, Txn.get_bind_ok, Txn.orRaise_bind_ok, Txn.raiseIf_bind_ok,
    Txn.set_bind_ok, Txn.pure_ok] at h
  obtain ⟨row, hrow, -, rfl, rfl⟩ := h
  obtain ⟨hwindow, hcount⟩ := RateWindow.counted?_eq_some hrow
  exact ⟨row, hwindow, hcount, rfl, rfl⟩

/-- A scoped transaction that returns is its body. -/
theorem scopedTransaction_ok {α : Type} {scope : TenantScope} {body : Txn RateDb PgError α} {a : α}
    (h : scopedTransaction scope body s = .ok (a, s')) : body s = .ok (a, s') := by
  unfold scopedTransaction at h
  rcases hscope : scope.canonical with _ | canonical
  · rw [hscope] at h
    cases h
  · rw [hscope] at h
    rcases hbody : body s with e | result
    · rw [hbody] at h
      cases h
    · rw [hbody] at h
      cases h
      rfl

/-- A call of `Consume` that stored a count: the entry of the log, the row, and the answer. -/
structure RateRequest.Stored (d : Digest) (r : RateRequest) (now : Time) (who : ℕ) (s s' : RateDb)
    (result : Except CommandError RateLimitDecision) (v : Verdict ℕ RateKey) : Prop where
  entry : ∃ tenant answer, Uuid.ofText? r.tenantId = some tenant ∧
    v = ⟨who, (r.rateWindow d tenant now).key, r.limit, answer⟩
  row : ∃ row : RateLimitWindow, row.key = v.key ∧ row.requestCount = s.count v.key + 1 ∧
    s' = s.put row
  answer : match v.answer with
    | none => ∃ e, result = .error e
    | some b => result = .ok (r.decision now (s.count v.key + 1)) ∧
      (b = true ↔ (s.count v.key + 1 : ℤ) ≤ r.limit)

/-- A check allows the request while its count is within the limit. -/
theorem RateRequest.decision_allowed :
    (r.decision now count).allowed = true ↔ (count : ℤ) ≤ r.limit := by
  unfold RateRequest.decision
  split_ifs with h <;> simp [h]

/-- A call of `Consume` returns an error and leaves the table, or it stored a count. -/
theorem RateRequest.consume_cases (d : Digest) (r : RateRequest) (now : Time)
    (fault : Option TransactionFault) (who : ℕ) (s : RateDb) :
    (r.verdict? d now fault who s = none ∧ (r.consume d now fault s).2 = s ∧
      ∃ e, (r.consume d now fault s).1 = .error e) ∨
    ∃ v, r.verdict? d now fault who s = some v ∧
      r.Stored d now who s (r.consume d now fault s).2 (r.consume d now fault s).1 v := by
  -- A malformed request never reaches the counter.
  by_cases hmalformed : r.Malformed
  · have hconsume : r.consume d now fault s =
        (.error (.plain "valid rate limit dimensions are required"), s) := if_pos hmalformed
    rw [hconsume]
    exact .inl ⟨if_pos hmalformed, rfl, _, rfl⟩
  unfold RateRequest.verdict? RateRequest.consume withTenantTransaction
  rw [if_neg hmalformed, if_neg hmalformed]
  -- The transaction fails as a whole, or it counts the request in its window.
  rcases hbody : scopedTransaction r.scope (r.transaction d now) s with e | ⟨count, t⟩
  · rcases fault with _ | ⟨e⟩ | ⟨e, _ | _⟩ <;>
      exact .inl ⟨by rcases Uuid.ofText? r.tenantId <;> rfl, rfl, _, rfl⟩
  have hcommit := scopedTransaction_ok hbody
  simp only [RateRequest.transaction, Txn.orRaise_bind_ok] at hcommit
  obtain ⟨tenant, htenant, hcount⟩ := hcommit
  obtain ⟨row, hwindow, hrow, rfl, rfl⟩ := countRequest_ok hcount
  have hkey : row.key = (r.rateWindow d tenant now).key := by rw [RateLimitWindow.key, hwindow]
  rw [htenant]
  -- A failed commit leaves the database as it was or, unknown to the caller, counts.
  rcases fault with _ | ⟨e⟩ | ⟨e, stored⟩
  · refine .inr ⟨_, rfl, ⟨tenant, _, htenant, rfl⟩, ⟨row, hkey, hrow, rfl⟩, ?_, ?_⟩
    · rw [hrow]
    · rw [RateRequest.decision_allowed, hrow]
      push_cast
      exact Iff.rfl
  · exact .inl ⟨rfl, rfl, _, rfl⟩
  · cases stored
    · exact .inl ⟨rfl, rfl, _, rfl⟩
    · exact .inr ⟨_, rfl, ⟨tenant, _, htenant, rfl⟩, ⟨row, hkey, hrow, rfl⟩, _, rfl⟩

end Consume

/-! ## Windows of checks -/

/-- The windows of the checks are a second and a minute long. -/
theorem Guard.window_of_mem {g : Guard} {c : Check} (h : c ∈ g.checks) :
    c.request.window = second ∨ c.request.window = 60 * second := by
  rcases List.mem_append.mp h with h | h
  · rw [Guard.capacityChecks] at h
    split_ifs at h
    · cases h
    · rcases List.mem_cons.mp h with rfl | h
      · exact .inl rfl
      · obtain rfl := List.mem_singleton.mp h
        exact .inr rfl
    · cases h
  · obtain rfl := List.mem_singleton.mp h
    exact .inr rfl

section Windows

variable {d : Digest} {r : RateRequest} {now : Reading}

/-- The bounds of a reading, in seconds. -/
theorem Reading.unix_bounds (now : Reading) :
    -62135596800 ≤ now.time.unix ∧ now.time.unix < 253402300800 := by
  have hmicro := now.micro.inRange
  have hnano := now.nano.isLt
  unfold Reading.time Time.unix second unixToInternal
  omega

/-- A window is of one second or of a minute. -/
theorem RateRequest.seconds_bounds (hwindow : r.window = second ∨ r.window = 60 * second) :
    0 < r.seconds ∧ r.seconds ≤ 60 ∧ r.window = r.seconds * second := by
  unfold RateRequest.seconds
  rcases hwindow with h | h <;> rw [h] <;> decide

/-- The start of the window of a clock, which does not wrap around. -/
theorem RateRequest.started_eq (hwindow : r.window = second ∨ r.window = 60 * second) :
    r.started now.time = (windowStart r.seconds now.time.unix + unixToInternal) * second := by
  obtain ⟨hpos, hle, -⟩ := RateRequest.seconds_bounds hwindow
  have hlow := lt_windowStart_add hpos now.time.unix
  have hhigh := windowStart_le hpos now.time.unix
  have hbounds := now.unix_bounds
  rw [RateRequest.started, timeUnix, int64_of_fits]
  unfold Bigint.Fits unixToInternal
  omega

/-- No call of maintenance before a check deletes the window of the check. -/
theorem not_over {p : RetentionPolicy} (hvalid : p.Valid)
    (hbefore : p.now ≤ instant now.micro + 3540000000)
    (hwindow : r.window = second ∨ r.window = 60 * second) (tenant : Uuid) :
    ¬(r.rateWindow d tenant now.time).windowStartedAt < p.now - p.rateAge := by
  have hage : 3600000000 ≤ p.rateAge := hvalid.2.2.2.2.2
  obtain ⟨hpos, hle, -⟩ := RateRequest.seconds_bounds hwindow
  have hlow := lt_windowStart_add hpos now.time.unix
  have hnano := now.nano.isLt
  have hclock := Int.sub_nonneg_of_le hbefore
  refine not_lt.mpr (Int.le_of_sub_nonneg ?_)
  change (0 : ℤ) ≤ r.started now.time / 1000 - (p.now - p.rateAge)
  rw [RateRequest.started_eq hwindow]
  generalize windowStart r.seconds now.time.unix = start at hlow ⊢
  unfold Reading.time Time.unix second unixToInternal instant at *
  omega

end Windows

/-! ## What a history keeps -/

/-- The window of the key was over for a call of maintenance. -/
def Forgotten (cs : List GateCall) (k : RateKey) : Prop :=
  ∃ sess p others, GateCall.retention sess p others ∈ cs ∧ p.Valid ∧ k.2.2.2 < p.now - p.rateAge

/-- The request passed the check, as the log has it. -/
def Passage.Logged (d : Digest) (log : List (Verdict ℕ RateKey)) (id : ℕ) (p : Passage) : Prop :=
  ∃ v ∈ log, v.who = id ∧ v.answer = some true ∧
    ∃ tenant, Uuid.ofText? p.check.request.tenantId = some tenant ∧
      v.key = (p.check.request.rateWindow d tenant p.time).key

/-- A request makes the checks of its guard in order, and passes a check that fails closed only when
it is allowed to. -/
structure Flight.Sound (d : Digest) (cs : List GateCall) (log : List (Verdict ℕ RateKey))
    (f : Flight) : Prop where
  arrived : GateCall.arrive f.id f.guard ∈ cs
  order : f.passed.reverse.map Passage.check ++ f.remaining = f.guard.checks
  allowed : ∀ p ∈ f.passed, p.check.failClosed = true → p.Logged d log f.id

/-- The entry is of a check of a request that arrived. -/
def Ascribed (d : Digest) (cs : List GateCall) (v : Verdict ℕ RateKey) : Prop :=
  ∃ id g, GateCall.arrive id g ∈ cs ∧ ∃ c ∈ g.checks, v.limit = c.request.limit ∧
    ∃ tenant now, Uuid.ofText? c.request.tenantId = some tenant ∧
      v.key = (c.request.rateWindow d tenant now).key

/-- The answers are those of counting, and the counts are kept while they matter. -/
structure Gate.Sound (d : Digest) (cs : List GateCall) (s : Gate) : Prop where
  counted : Counted s.log
  count : ∀ k, ¬Forgotten cs k → s.db.count k = tally k s.log
  flights : ∀ f ∈ s.flights, f.Sound d cs s.log
  ascribed : ∀ v ∈ s.log, Ascribed d cs v

section Steps

variable {d : Digest} {cs : List GateCall} {call : GateCall} {s : Gate} {f : Flight} {k : RateKey}

/-- What was forgotten stays forgotten after another call. -/
theorem Forgotten.append (h : Forgotten cs k) (call : GateCall) : Forgotten (cs ++ [call]) k := by
  obtain ⟨sess, p, others, hmem, hover⟩ := h
  exact ⟨sess, p, others, List.mem_append_left _ hmem, hover⟩

/-- A verdict that is ascribed to a call stays so after another call. -/
theorem Ascribed.append {v : Verdict ℕ RateKey} (h : Ascribed d cs v) (call : GateCall) :
    Ascribed d (cs ++ [call]) v := by
  obtain ⟨id, g, hmem, hcheck⟩ := h
  exact ⟨id, g, List.mem_append_left _ hmem, hcheck⟩

/-- A request stays as it should be when the history and the log grow. -/
theorem Flight.Sound.grow {log log' : List (Verdict ℕ RateKey)} (h : f.Sound d cs log)
    (call : GateCall) (hlog : ∀ v ∈ log, v ∈ log') : f.Sound d (cs ++ [call]) log' := by
  refine ⟨List.mem_append_left _ h.arrived, h.order, fun p hp hclosed => ?_⟩
  obtain ⟨v, hv, hrest⟩ := h.allowed p hp hclosed
  exact ⟨v, hlog v hv, hrest⟩

/-- An arrival keeps the gate sound. -/
theorem Gate.Sound.arrive (h : s.Sound d cs) (id : ℕ) (g : Guard) :
    (s.step d (.arrive id g)).Sound d (cs ++ [.arrive id g]) := by
  refine ⟨h.counted, fun k hk => h.count k fun hf => hk (hf.append _), fun f hf => ?_,
    fun v hv => (h.ascribed v hv).append _⟩
  change f ∈ (s.flights.insert? ⟨id, g, [], g.checks, none⟩).getD s.flights at hf
  rcases hins : s.flights.insert? ⟨id, g, [], g.checks, none⟩ with _ | t
  · rw [hins] at hf
    exact (h.flights f hf).grow _ fun v hv => hv
  · rw [hins] at hf
    rcases (Table.mem_insert? hins).mp hf with rfl | hf
    · exact ⟨List.mem_append_right _ (List.mem_singleton_self _), rfl, fun p hp => by cases hp⟩
    · exact (h.flights f hf).grow _ fun v hv => hv

/-- Maintenance leaves the windows that are not over. -/
theorem mem_rates_of_retention {sess : Session} {p : RetentionPolicy} {s t : RetentionDb}
    {r : RetentionRun} {w : RateWindow} (h : controlledRunRetentionV1 sess p s = .ok (r, t))
    (hw : w ∈ s.rates) (hover : ¬w.windowStartedAt < p.now - p.rateAge) : w ∈ t.rates := by
  obtain ⟨-, -, -, runs, -, rfl⟩ := controlledRunRetentionV1_ok.mp h
  by_cases happly : p.apply = true
  · rw [if_pos happly]
    refine Table.mem_delete.mpr ⟨hw, decide_eq_false fun hdoomed => hover ?_⟩
    exact (of_decide_eq_true (Table.mem_of_mem_batch hdoomed).2).1.2
  · rw [if_neg happly]
    exact hw

/-- A purge keeps the counts of the windows that are young enough. -/
theorem RateDb.count_purge {sess : Session} {p : RetentionPolicy} {others : RetentionDb}
    (s : RateDb) (hover : ¬(p.Valid ∧ k.2.2.2 < p.now - p.rateAge)) :
    (s.purge sess p others).count k = s.count k := by
  unfold RateDb.purge
  rcases hcall : controlledRunRetentionV1 sess p { others with rates := s.rates } with e | ⟨r, t⟩
  · rfl
  have hvalid := (controlledRunRetentionV1_ok.mp hcall).2.1
  unfold RateDb.count
  congr 1
  rcases hfind : s.windows.find? k with _ | w
  · refine Table.find?_eq_none.mpr fun x hx => ?_
    exact Table.find?_eq_none.mp hfind x (Table.mem_delete.mp hx).1
  · obtain ⟨hw, hkey⟩ := Table.find?_eq_some.mp hfind
    refine Table.find?_eq_some.mpr ⟨Table.mem_delete.mpr ⟨hw, ?_⟩, hkey⟩
    have hkept : w.toRateWindow ∈ t.rates := by
      refine mem_rates_of_retention hcall (List.mem_map_of_mem hw) fun hlt => hover ⟨hvalid, ?_⟩
      rwa [← hkey]
    exact decide_eq_false fun hgone => hgone hkept

/-- A retention run keeps the gate sound: it removes only windows that no later check uses. -/
theorem Gate.Sound.retention (h : s.Sound d cs) (sess : Session) (p : RetentionPolicy)
    (others : RetentionDb) :
    (s.step d (.retention sess p others)).Sound d (cs ++ [.retention sess p others]) := by
  refine ⟨h.counted, fun k hk => ?_, fun f hf => (h.flights f hf).grow _ fun v hv => hv,
    fun v hv => (h.ascribed v hv).append _⟩
  have hover : ¬(p.Valid ∧ k.2.2.2 < p.now - p.rateAge) := fun hover =>
    hk ⟨sess, p, others, List.mem_append_right _ (List.mem_singleton_self _), hover⟩
  exact (s.db.count_purge hover).trans (h.count k fun hf => hk (hf.append _))

/-- A check counts its request in a window that maintenance has left. -/
theorem Gate.Sound.check_count (h : s.Sound d cs) {c : Check} (hc : c ∈ f.guard.checks)
    {now : Reading} (fault : Option TransactionFault)
    (hbefore : ∀ call ∈ cs, call.Before (.check f.id now fault)) (tenant : Uuid) :
    s.db.count (c.request.rateWindow d tenant now.time).key =
      tally (c.request.rateWindow d tenant now.time).key s.log := by
  refine h.count _ ?_
  rintro ⟨sess, p, others, hmem, hvalid, hover⟩
  exact @not_over d _ _ _ hvalid (hbefore _ hmem) (Guard.window_of_mem hc) tenant hover

/-- The request that passed a check that fails closed was allowed to. -/
theorem Check.allowed_of_refusal? {c : Check} {x : Except CommandError RateLimitDecision}
    (h : c.refusal? x = none) (hclosed : c.failClosed = true) :
    ∃ decision, x = .ok decision ∧ decision.allowed = true := by
  rcases x with e | decision
  · rw [Check.refusal?, if_pos hclosed] at h
    cases h
  · refine ⟨decision, rfl, ?_⟩
    by_contra hdenied
    rw [Check.refusal?, if_neg hdenied] at h
    cases h

/-- The log with what the check counted. -/
theorem Gate.Sound.check_log (h : s.Sound d cs) {c : Check} (hc : c ∈ f.guard.checks)
    (hf : f ∈ s.flights) {now : Reading} {fault : Option TransactionFault}
    (hbefore : ∀ call ∈ cs, call.Before (.check f.id now fault)) {v : Verdict ℕ RateKey}
    (hv : c.request.Stored d now.time f.id s.db (c.request.consume d now.time fault s.db).2
      (c.request.consume d now.time fault s.db).1 v) :
    Counted (v :: s.log) ∧ (∀ k, ¬Forgotten cs k →
      (c.request.consume d now.time fault s.db).2.count k = tally k (v :: s.log)) ∧
      Ascribed d cs v := by
  obtain ⟨⟨tenant, answer, htenant, rfl⟩, ⟨row, hkey, hrow, hput⟩, hanswer⟩ := hv
  have hcount := h.check_count hc fault hbefore tenant
  refine ⟨⟨fun b hb => ?_, h.counted⟩, fun k hk => ?_, ?_⟩
  · obtain rfl : answer = some b := hb
    rw [← hcount]
    exact hanswer.2
  · rw [hput, tally_cons, ← h.count k hk, RateDb.count, RateDb.find?_put, hkey]
    by_cases hk' : k = (c.request.rateWindow d tenant now.time).key
    · rw [if_pos hk', if_pos hk'.symm, hk']
      exact hrow
    · rw [if_neg hk', if_neg (Ne.symm hk')]
      rfl
  · exact ⟨f.id, f.guard, (h.flights f hf).arrived, c, hc, rfl, tenant, now.time, htenant, rfl⟩

/-- The request after the check. -/
theorem Flight.Sound.check {log log' : List (Verdict ℕ RateKey)} (h : f.Sound d cs log)
    {c : Check} {rest : List Check} (hnext : f.remaining = c :: rest) (call : GateCall) {now : Time}
    {refusal : Option Refusal} (hlog : ∀ v ∈ log, v ∈ log')
    (hpassed : refusal = none → c.failClosed = true → Passage.Logged d log' f.id ⟨c, now⟩) :
    (f.after c rest now refusal).Sound d (cs ++ [call]) log' := by
  have hgrown := h.grow call hlog
  rcases refusal with _ | refusal
  · refine ⟨hgrown.arrived, ?_, fun p hp hclosed => ?_⟩
    · change ((⟨c, now⟩ : Passage) :: f.passed).reverse.map Passage.check ++ rest = f.guard.checks
      rw [← hgrown.order, hnext, List.reverse_cons, List.map_append, List.append_assoc]
      rfl
    · rcases List.mem_cons.mp hp with rfl | hp
      · exact hpassed rfl hclosed
      · exact hgrown.allowed p hp hclosed
  · exact ⟨hgrown.arrived, hgrown.order, hgrown.allowed⟩

/-- A check keeps the gate sound. -/
theorem Gate.Sound.check (h : s.Sound d cs) {c : Check} {rest : List Check}
    (hnext : f.remaining = c :: rest) (hf : f ∈ s.flights) {now : Reading}
    {fault : Option TransactionFault}
    (hbefore : ∀ call ∈ cs, call.Before (.check f.id now fault)) :
    (s.check d f c rest now.time fault).Sound d (cs ++ [.check f.id now fault]) := by
  have hc : c ∈ f.guard.checks := by
    rw [← (h.flights f hf).order, hnext]
    exact List.mem_append_right _ (List.mem_cons_self ..)
  -- Without a verdict nothing is counted and the check fails.
  obtain ⟨hnone, hsame, e, herror⟩ | ⟨v, hsome, hstored⟩ :=
    c.request.consume_cases d now.time fault f.id s.db
  · refine ⟨?_, fun k hk => ?_, fun x hx => ?_, fun v hv => ?_⟩
    · rw [Gate.check, hnone]
      exact h.counted
    · rw [Gate.check, hnone, hsame]
      exact h.count k fun hforgotten => hk (hforgotten.append _)
    · rw [Gate.check, hnone] at *
      rcases Table.mem_replace hx with rfl | ⟨hx, -⟩
      · refine (h.flights f hf).check hnext _ (fun v hv => hv) fun hpass hclosed => ?_
        obtain ⟨decision, hok, -⟩ := Check.allowed_of_refusal? hpass hclosed
        rw [herror] at hok
        cases hok
      · exact (h.flights x hx).grow _ fun v hv => hv
    · rw [Gate.check, hnone] at hv
      exact (h.ascribed v hv).append _
  -- With a verdict the log gets one entry, and only this flight has moved.
  · obtain ⟨hcounted, hcount, hascribed⟩ := h.check_log hc hf hbefore hstored
    refine ⟨?_, fun k hk => ?_, fun x hx => ?_, fun w hw => ?_⟩
    · rw [Gate.check, hsome]
      exact hcounted
    · rw [Gate.check, hsome]
      exact hcount k fun hforgotten => hk (hforgotten.append _)
    · rw [Gate.check, hsome] at *
      rcases Table.mem_replace hx with rfl | ⟨hx, -⟩
      · refine (h.flights f hf).check hnext _ (fun v hv => List.mem_cons_of_mem _ hv)
          fun hpass hclosed => ?_
        obtain ⟨decision, hok, hallowed⟩ := Check.allowed_of_refusal? hpass hclosed
        obtain ⟨⟨tenant, answer, htenant, rfl⟩, -, hanswer⟩ := hstored
        refine ⟨_, List.mem_cons_self .., rfl, ?_, tenant, htenant, rfl⟩
        -- An answer that failed passes no check that is closed on failure.
        rcases answer with _ | b
        · obtain ⟨e, herror⟩ := hanswer
          rw [herror] at hok
          cases hok
        · obtain ⟨hdecision, hb⟩ := hanswer
          rw [hdecision] at hok
          obtain rfl := Except.ok.inj hok
          exact congrArg some (hb.mpr (RateRequest.decision_allowed.mp hallowed))
      · exact (h.flights x hx).grow _ fun v hv => List.mem_cons_of_mem _ hv
    · rw [Gate.check, hsome] at hw
      rcases List.mem_cons.mp hw with rfl | hw
      · exact hascribed.append _
      · exact (h.ascribed w hw).append _

end Steps

/-! ## Histories -/

section Histories

variable {d : Digest} {tenants : List Uuid} {cs : List GateCall} {s : Gate} {k : RateKey}

/-- A call that comes after all earlier ones keeps the gate sound. -/
theorem Gate.Sound.step (h : s.Sound d cs) (call : GateCall)
    (hbefore : ∀ earlier ∈ cs, earlier.Before call) :
    (s.step d call).Sound d (cs ++ [call]) := by
  rcases call with ⟨id, g⟩ | ⟨id, now, fault⟩ | ⟨sess, p, others⟩
  · exact h.arrive id g
  · have hidle : s.Sound d (cs ++ [.check id now fault]) :=
      ⟨h.counted, fun k hk => h.count k fun hforgotten => hk (hforgotten.append _),
        fun f hf => (h.flights f hf).grow _ fun v hv => hv, fun v hv => (h.ascribed v hv).append _⟩
    rw [Gate.step]
    split
    · rename_i id' g passed c rest hfind
      obtain ⟨hf, hid⟩ := Table.find?_eq_some.mp hfind
      obtain rfl : id' = id := hid
      exact h.check rfl hf hbefore
    · exact hidle
  · exact h.retention sess p others

/-- A run of one call more is a step from the run before. -/
theorem gateRun_snoc (call : GateCall) :
    gateRun d tenants (cs ++ [call]) = (gateRun d tenants cs).step d call := by
  rw [gateRun, List.foldl_append]
  rfl

/-- In every history that maintenance does not run ahead of, the answers are those of counting. -/
theorem gateRun_sound (hcs : Timely cs) : (gateRun d tenants cs).Sound d cs := by
  induction cs using List.reverseRecOn with
  | nil =>
    exact ⟨trivial, fun k _ => rfl, fun f hf => (by cases hf), fun v hv => (by cases hv)⟩
  | append_singleton cs call ih =>
    obtain ⟨hinit, -, hlast⟩ := List.pairwise_append.mp hcs
    rw [gateRun_snoc]
    exact (ih hinit).step call fun earlier hearlier =>
      hlast earlier hearlier call (List.mem_singleton_self call)

end Histories

/-! ## Two writes in one second -/

namespace Sample

/-- SHA-256 of the principals: the one of the capacity, and the operator. -/
def principalDigest : Digest :=
  digestOf [(tenantCapacityPrincipal,
      [69, 100, 39, 186, 193, 32, 132, 4, 44, 88, 135, 127, 119, 178, 65, 126, 58, 95, 44, 194, 218,
        28, 82, 16, 202, 233, 5, 95, 14, 133, 93, 210]),
    (alice,
      [43, 216, 6, 201, 127, 14, 0, 175, 26, 31, 195, 50, 143, 167, 99, 169, 38, 151, 35, 200, 219,
        143, 172, 79, 147, 175, 113, 219, 24, 109, 110, 144])]

/-- One write a second for the tenant, and 120 a minute for the operator. -/
def guard : Guard where
  tenantId := tenant.text
  subjectId := alice
  route := "transfers:create"
  write := true
  capacityLimit := 1
  rateLimit := 120
  failClosed := true

/-- The check of the capacity in a second. -/
def secondCheck : Check :=
  ⟨⟨tenant.text, tenantCapacityPrincipal, "transfers:create" ++ ":capacity:second", 1, second⟩,
    true⟩

/-- The clock of both replicas. -/
def noon : Reading := ⟨hour 12, 0⟩

/-- Two writes, whose checks alternate, and a check of the first one that is still to come. -/
def gateCalls : List GateCall :=
  [.arrive 1 guard, .arrive 2 guard, .check 1 noon none, .check 2 noon none, .check 1 noon none,
    .check 1 noon none]

/-- The sample calls are in the order of their clocks. -/
theorem gateCalls_timely : Timely gateCalls := by
  refine List.pairwise_iff_getElem.mpr fun i j hi hj hij => ?_
  have hcheck : ∀ call ∈ gateCalls, ∀ later, GateCall.Before call later := by
    simp [gateCalls, GateCall.Before]
  exact hcheck _ (List.getElem_mem hi) _

/-- Only the check itself counts what it counts. -/
theorem gateCalls_limit (id : ℕ) (g : Guard) (harrive : GateCall.arrive id g ∈ gateCalls) :
    ∀ b ∈ g.checks, b.request.counter? principalDigest =
      secondCheck.request.counter? principalDigest → b.request.limit ≤ (1 : ℕ) := by
  have hguard : g = guard := by
    simp only [gateCalls, List.mem_cons, List.not_mem_nil, or_false, GateCall.arrive.injEq,
      reduceCtorEq] at harrive
    tauto
  rw [hguard]
  decide +kernel

end Sample

/-! ## The answers -/

section Answers

variable {d : Digest} {cs : List GateCall} {s : Gate} {f : Flight} {c : Check}

/-- A refused request is told to wait for the rest of its window, a second at least. -/
theorem retryAfter_eq_max {r : RateRequest} {now : Time} {count : ℕ}
    (h : (r.decision now count).allowed = false) :
    (r.decision now count).retryAfter = max second (r.started now + r.window - now) := by
  unfold RateRequest.decision at h ⊢
  split_ifs at h ⊢
  rfl

/-- Rounding to seconds takes away at most half a second. -/
theorem le_retrySeconds (decision : RateLimitDecision) :
    1 ≤ decision.retrySeconds ∧
      decision.retryAfter ≤ decision.retrySeconds * second + second / 2 := by
  have hmod := Int.emod_nonneg decision.retryAfter (show second ≠ 0 by decide)
  have hround : decision.retryAfter - second / 2 ≤
      roundSecond decision.retryAfter / second * second := by
    unfold roundSecond second at *
    simp only
    split_ifs <;> omega
  have hmax : roundSecond decision.retryAfter / second ≤ decision.retrySeconds := le_max_right ..
  refine ⟨le_max_left .., ?_⟩
  unfold second at *
  omega

/-- In every history that maintenance does not run ahead of, a check is answered as if all requests
of its window were counted, and who is refused is told to wait for the rest of the window, up to
half a second. -/
theorem consumption_exact (d : Digest) (tenants : List Uuid) {cs : List GateCall} {id : ℕ}
    {now : Reading} {fault : Option TransactionFault}
    (hcs : Timely (cs ++ [.check id now fault])) {f : Flight} {c : Check} {rest : List Check}
    {decision : RateLimitDecision} (hflight : (gateRun d tenants cs).flights.find? id = some f)
    (hnext : f.remaining = c :: rest)
    (hok : (c.request.consume d now.time fault (gateRun d tenants cs).db).1 = .ok decision) :
    ∃ tenant, Uuid.ofText? c.request.tenantId = some tenant ∧
      (decision.allowed = true ↔
        (tally (c.request.rateWindow d tenant now.time).key (gateRun d tenants cs).log + 1 : ℤ) ≤
          c.request.limit) ∧
      (decision.allowed = false → 1 ≤ decision.retrySeconds ∧
        c.request.started now.time + c.request.window ≤
          now.time + decision.retrySeconds * second + second / 2) := by
  obtain ⟨hinit, -, hlast⟩ := List.pairwise_append.mp hcs
  have hsound := @gateRun_sound d tenants _ hinit
  obtain ⟨hf, rfl⟩ := Table.find?_eq_some.mp hflight
  have hc : c ∈ f.guard.checks := by
    rw [← (hsound.flights f hf).order, hnext]
    exact List.mem_append_right _ (List.mem_cons_self ..)
  -- The answer is given, so that the request was counted.
  obtain ⟨-, -, e, herror⟩ | ⟨v, -, ⟨tenant, answer, htenant, rfl⟩, -, hanswer⟩ :=
    c.request.consume_cases d now.time fault f.id (gateRun d tenants cs).db
  · rw [herror] at hok
    cases hok
  -- The count is the tally of the log, which is what the claim compares.
  have hcount := hsound.check_count hc fault
    (fun call hcall => hlast call hcall _ (List.mem_singleton_self _)) tenant
  rcases answer with _ | b
  · obtain ⟨e, herror⟩ := hanswer
    rw [herror] at hok
    cases hok
  · obtain ⟨hdecision, -⟩ := hanswer
    rw [hdecision] at hok
    obtain rfl := Except.ok.inj hok
    refine ⟨tenant, htenant, ?_, fun hdenied => ?_⟩
    · rw [RateRequest.decision_allowed, hcount]
      push_cast
      exact Iff.rfl
    -- The wait runs until the window ends, rounded to seconds.
    · obtain ⟨hone, hwait⟩ := le_retrySeconds (c.request.decision now.time
        ((gateRun d tenants cs).db.count (c.request.rateWindow d tenant now.time).key + 1))
      refine ⟨hone, ?_⟩
      rw [retryAfter_eq_max hdenied] at hwait
      have hmax := le_max_right second (c.request.started now.time + c.request.window - now.time)
      have hrest := hmax.trans hwait
      have hadd := Int.add_le_add_left hrest now.time
      rwa [add_sub_cancel, ← add_assoc] at hadd

/-- The second of two requests within one second is refused at a capacity of one, and told to wait.
-/
theorem consumption_exact_sample :
    ∃ tenant, Uuid.ofText? Sample.guard.tenantId = some tenant ∧
      (false = true ↔ (tally (Sample.secondCheck.request.rateWindow Sample.principalDigest tenant
        Sample.noon.time).key (gateRun Sample.principalDigest [Sample.tenant]
          (Sample.gateCalls.take 3)).log + 1 : ℤ) ≤ 1) ∧
      (false = false → 1 ≤ (⟨false, second⟩ : RateLimitDecision).retrySeconds ∧
        Sample.secondCheck.request.started Sample.noon.time + second ≤
          Sample.noon.time + (⟨false, second⟩ : RateLimitDecision).retrySeconds * second +
            second / 2) :=
  @consumption_exact Sample.principalDigest [Sample.tenant] (Sample.gateCalls.take 3) 2 Sample.noon
    none (Sample.gateCalls_timely.sublist (List.take_sublist 4 Sample.gateCalls :))
    ⟨2, Sample.guard, [], Sample.guard.checks, none⟩ Sample.secondCheck
    (Sample.guard.checks.drop 1) ⟨false, second⟩ (by decide +kernel) rfl (by decide +kernel)

/-- The key of a count, for the window that starts at a second. -/
def RateRequest.keyAt (d : Digest) (r : RateRequest) (tenant : Uuid) (start : ℤ) : RateKey :=
  (tenant, d.sha256 r.principalId, r.route, timeUnix start / 1000)

/-- Two counts with one key are of the same kind. -/
theorem RateRequest.counter?_eq_of_key {b c : RateRequest} {tenant tenant' : Uuid} {now : Time}
    {start : ℤ} (hb : Uuid.ofText? b.tenantId = some tenant')
    (hc : Uuid.ofText? c.tenantId = some tenant)
    (hkey : (b.rateWindow d tenant' now).key = c.keyAt d tenant start) :
    b.counter? d = c.counter? d := by
  have htenant : tenant' = tenant := congrArg Prod.fst hkey
  have hprincipal : d.sha256 b.principalId = d.sha256 c.principalId := congrArg (·.2.1) hkey
  have hroute : b.route = c.route := congrArg (·.2.2.1) hkey
  rw [RateRequest.counter?, RateRequest.counter?, hb, hc, htenant, hprincipal, hroute]

/-- The requests that were admitted and passed a check between two times, in seconds. -/
def Gate.admittedBetween (s : Gate) (c : Check) (t u : ℤ) : List Flight :=
  s.flights.rows.filter fun f =>
    f.Admitted ∧ ∃ p ∈ f.passed, p.check = c ∧ t ≤ p.time.unix ∧ p.time.unix < u

/-- A request that was admitted passed every check of its guard. -/
theorem Flight.Sound.passed_of_admitted {log : List (Verdict ℕ RateKey)} (h : f.Sound d cs log)
    (hadmitted : f.Admitted) (hc : c ∈ f.guard.checks) : ∃ p ∈ f.passed, p.check = c := by
  rw [← h.order, hadmitted.1, List.append_nil] at hc
  obtain ⟨p, hp, hpc⟩ := List.mem_map.mp hc
  exact ⟨p, List.mem_reverse.mp hp, hpc⟩

/-- What passes a check within the length of its window is counted in two windows at most. -/
theorem Flight.Sound.counted_near {log : List (Verdict ℕ RateKey)} (h : f.Sound d cs log)
    {p : Passage} (hp : p ∈ f.passed) (hclosed : p.check.failClosed = true) {t : ℤ}
    (htp : t ≤ p.time.unix) (hpt : p.time.unix < t + p.check.request.seconds) {tenant : Uuid}
    (htenant : Uuid.ofText? p.check.request.tenantId = some tenant) :
    ∃ v ∈ log, v.who = f.id ∧ v.answer = some true ∧
      v.key ∈ [p.check.request.keyAt d tenant (windowStart p.check.request.seconds t),
        p.check.request.keyAt d tenant
          (windowStart p.check.request.seconds t + p.check.request.seconds)] := by
  obtain ⟨v, hv, hwho, hanswer, tenant', htenant', hkey⟩ := h.allowed p hp hclosed
  obtain rfl : tenant' = tenant := Option.some.inj (htenant'.symm.trans htenant)
  have hc : p.check ∈ f.guard.checks := by
    rw [← h.order]
    exact List.mem_append_left _ (List.mem_map_of_mem (List.mem_reverse.mpr hp))
  obtain ⟨hpos, -, -⟩ := RateRequest.seconds_bounds (Guard.window_of_mem hc)
  refine ⟨v, hv, hwho, hanswer, ?_⟩
  have hat : v.key = p.check.request.keyAt d tenant'
      (windowStart p.check.request.seconds p.time.unix) := hkey
  rw [hat]
  rcases windowStart_near hpos htp hpt with hsame | hnext
  · rw [hsame]
    exact List.mem_cons_self ..
  · rw [hnext]
    exact List.mem_cons_of_mem _ (List.mem_singleton_self _)

/-- In every history that maintenance does not run ahead of, however the checks of different
requests interleave, a request that was admitted passed every check of its guard, and of those that
passed a check that fails closed within the length of its window, at most twice as many were
admitted as the limits of its count allow. -/
theorem admitted_within_limit (d : Digest) (tenants : List Uuid) {cs : List GateCall}
    (hcs : Timely cs) (c : Check) (hclosed : c.failClosed = true) {n : ℕ}
    (hlimit : ∀ id g, GateCall.arrive id g ∈ cs → ∀ b ∈ g.checks,
      b.request.counter? d = c.request.counter? d → b.request.limit ≤ n) (t : ℤ) :
    (∀ f ∈ (gateRun d tenants cs).flights, f.Admitted →
      ∀ b ∈ f.guard.checks, ∃ p ∈ f.passed, p.check = b) ∧
    ((gateRun d tenants cs).admittedBetween c t (t + c.request.seconds)).length ≤ 2 * n := by
  have hsound := @gateRun_sound d tenants _ hcs
  refine ⟨fun f hf hadmitted b hb => (hsound.flights f hf).passed_of_admitted hadmitted hb, ?_⟩
  set s := gateRun d tenants cs
  set admitted := s.admittedBetween c t (t + c.request.seconds)
  have hmem : ∀ f ∈ admitted, f ∈ s.flights ∧ ∃ p ∈ f.passed, p.check = c ∧ t ≤ p.time.unix ∧
      p.time.unix < t + c.request.seconds := fun f hf =>
    ⟨(List.mem_filter.mp hf).1, (of_decide_eq_true (List.mem_filter.mp hf).2).2⟩
  rcases htenant : Uuid.ofText? c.request.tenantId with _ | tenant
  · -- Nobody passes the check of a tenant that is no identifier.
    have hnone : admitted = [] := List.eq_nil_iff_forall_not_mem.mpr fun f hf => by
      obtain ⟨hrow, p, hp, rfl, -⟩ := hmem f hf
      obtain ⟨v, -, -, -, tenant, htenant', -⟩ := (hsound.flights f hrow).allowed p hp hclosed
      rw [htenant] at htenant'
      cases htenant'
    rw [hnone]
    exact Nat.zero_le _
  -- The admitted requests are counted by their own ids.
  have hids : (admitted.map Flight.id).Nodup := s.flights.nodup.sublist (List.filter_sublist.map _)
  rw [← List.length_map Flight.id]
  -- A span of one window meets two windows at most, and each admits up to the limit.
  let starts := [windowStart c.request.seconds t,
    windowStart c.request.seconds t + c.request.seconds]
  refine @Counted.length_le ℕ RateKey _ s.log (starts.map (c.request.keyAt d tenant)) n _
    hsound.counted _ hids (fun id hid => ?_) fun v hv hkey => ?_
  · obtain ⟨f, hf, rfl⟩ := List.mem_map.mp hid
    obtain ⟨hrow, p, hp, rfl, htp, hpt⟩ := hmem f hf
    obtain ⟨v, hv, hwho, hanswer, hkey⟩ :=
      (hsound.flights f hrow).counted_near hp hclosed htp hpt htenant
    exact ⟨v, hv, hwho, hkey, hanswer⟩
  · obtain ⟨id, g, harrive, b, hb, hlim, tenant', now, htenant', hvkey⟩ := hsound.ascribed v hv
    obtain ⟨start, -, hstart⟩ := List.mem_map.mp hkey
    rw [hlim]
    exact hlimit id g harrive b hb
      (RateRequest.counter?_eq_of_key htenant' htenant (hvkey.symm.trans hstart.symm))

/-- Of the two requests of the sample one is admitted, which is within twice the capacity. -/
theorem admitted_within_limit_sample :
    ((gateRun Sample.principalDigest [Sample.tenant] Sample.gateCalls).admittedBetween
      Sample.secondCheck Sample.noon.time.unix (Sample.noon.time.unix + 1)).length = 1 ∧
    ((gateRun Sample.principalDigest [Sample.tenant] Sample.gateCalls).admittedBetween
      Sample.secondCheck Sample.noon.time.unix (Sample.noon.time.unix + 1)).length ≤ 2 * 1 :=
  ⟨by decide +kernel,
    (admitted_within_limit Sample.principalDigest [Sample.tenant] Sample.gateCalls_timely
      Sample.secondCheck rfl Sample.gateCalls_limit Sample.noon.time.unix).2⟩

end Answers

end LedgerSync
