import LedgerSync.BalanceCache
import LedgerSync.BalanceEvents

/-!
# The projection of balances into the cache

The ledger, the cache and those who write it: the consumer of the event stream
(`internal/application/projection`), readers of the primary that put what they have read
(`internal/application/accounts`) and the rebuild (`cmd/reconcile`). Messages arrive late, twice and
in any order, readers put rows that are old by then, keys expire and are evicted.

The cache never answers with a balance that the account never had (`cache_shows_history`), and once
the events of an account were applied to a cache that had lost it, in whatever order, it answers
with the balance of the ledger (`projection_converges`).
-/

namespace LedgerSync

open Lib

/-! ## The steps -/

/-- The ledger, the server of the cache, and the rows that readers have read and hold. -/
structure ProjectionState where
  ledger : Db
  redis : Redis
  reads : List CachedBalance

/-- The row of `ReadCurrent` for an owner of the account. -/
def Db.readCurrent (s : Db) (tenant : Uuid) (actor : String) (account : Uuid) :
    Option CachedBalance :=
  (s.account? tenant account).bind fun (a, b) =>
    if ∃ o ∈ s.settings.accountOwners,
        o.tenantId = tenant ∧ o.accountId = account ∧ o.subjectId = actor then
      some (b.cached tenant a.currency (b.updatedAt * 1000))
    else none

/-- The rows of `ListCurrentForTenant`. -/
def Db.listCurrentForTenant (s : Db) (tenant : Uuid) : List CachedBalance :=
  ((s.accounts.rows.filter fun a => a.tenantId = tenant ∧ a.kind = .customer).mergeSort
    fun a a' => a.id.toNat ≤ a'.id.toNat).filterMap fun a =>
      (s.balances.find? a.id).map fun b => b.cached tenant a.currency (b.updatedAt * 1000)

/-- `applyMessage`, up to the acknowledgement: events of other aggregates are skipped. -/
def BalanceCache.applyMessage (c : BalanceCache) (e : StreamEvent) (r : Redis) :
    Except String Redis :=
  if e.eventType ≠ balanceChangedV1 ∧ e.eventType ≠ balanceChangedV2 then .ok r
  else do
    let balance ← decodeBalance e
    let (_, r) ← c.putIfNewer balance r
    pure r

/-- What can happen: a command, the delivery of a stored event, a reader that reads or that puts
what it holds, the loss of a key, and time. -/
inductive ProjectionStep where
  | call (c : Call)
  | deliver (event : Uuid)
  | read (tenant : Uuid) (actor : String) (account : Uuid)
  | list (tenant : Uuid)
  | put (b : CachedBalance)
  | evict (key : String)
  | wait (millis : ℕ)

/-- A step. A message or a put that fails changes nothing. -/
def ProjectionStep.apply (d : Digest) (c : BalanceCache) (s : ProjectionState) :
    ProjectionStep → ProjectionState
  | .call x => { s with ledger := commit (exec d x) s.ledger }
  | .deliver event =>
    match (s.ledger.outbox.find? event).map fun e => c.applyMessage e.published s.redis with
    | some (.ok r) => { s with redis := r }
    | _ => s
  | .read tenant actor account =>
    { s with reads := (s.ledger.readCurrent tenant actor account).toList ++ s.reads }
  | .list tenant => { s with reads := s.ledger.listCurrentForTenant tenant ++ s.reads }
  | .put b =>
    if b ∈ s.reads then
      match c.putIfNewer b s.redis with
      | .ok (_, r) => { s with redis := r }
      | .error _ => s
    else s
  | .evict key => { s with redis := s.redis.del key }
  | .wait millis => { s with redis := s.redis.wait millis }

/-- A series of steps. -/
def projectionRun (d : Digest) (c : BalanceCache) (steps : List ProjectionStep)
    (s : ProjectionState) : ProjectionState :=
  steps.foldl (ProjectionStep.apply d c) s

/-- Nothing is cached or read. -/
def ProjectionState.start (s : Db) (now : ℤ) : ProjectionState := ⟨s, ⟨fun _ => none, now⟩, []⟩

section Runs

variable {d : Digest} {c : BalanceCache} {s : ProjectionState}

/-- Steps after steps. -/
theorem projectionRun_append (steps more : List ProjectionStep) :
    projectionRun d c (steps ++ more) s = projectionRun d c more (projectionRun d c steps s) :=
  List.foldl_append

/-- A run of one step more is a step from the run before. -/
theorem projectionRun_snoc (steps : List ProjectionStep) (step : ProjectionStep) :
    projectionRun d c (steps ++ [step]) s = step.apply d c (projectionRun d c steps s) :=
  List.foldl_append

/-- A delivery leaves the ledger. -/
theorem deliver_ledger (event : Uuid) :
    (ProjectionStep.apply d c s (.deliver event)).ledger = s.ledger := by
  simp only [ProjectionStep.apply]
  split <;> rfl

end Runs

/-! ## What an account has shown -/

/-- The record is that of the balance of an account, whenever it says that this was. -/
def Db.ShowsBalance (s : Db) (a : Account) (x : CachedBalance) : Prop :=
  ∃ b asOf, s.balances.find? a.id = some b ∧ x = b.cached a.tenantId a.currency asOf

/-- The record is that of the balance of an account after some of the steps. -/
def ShownIn (d : Digest) (c : BalanceCache) (s : ProjectionState) (a : Account)
    (steps : List ProjectionStep) (x : CachedBalance) : Prop :=
  ∃ pre, pre <+: steps ∧ (projectionRun d c pre s).ledger.ShowsBalance a x

/-- What a run of one step more shows was shown before, or the ledger shows it now. -/
theorem shownIn_snoc {d : Digest} {c : BalanceCache} {s : ProjectionState} {a : Account}
    {steps : List ProjectionStep} {step : ProjectionStep} {x : CachedBalance} :
    ShownIn d c s a (steps ++ [step]) x ↔ ShownIn d c s a steps x ∨
      (projectionRun d c (steps ++ [step]) s).ledger.ShowsBalance a x := by
  constructor
  · rintro ⟨pre, hpre, hshows⟩
    rcases List.prefix_concat_iff.mp hpre with rfl | hpre
    · exact .inr hshows
    · exact .inl ⟨pre, hpre, hshows⟩
  · rintro (⟨pre, hpre, hshows⟩ | hshows)
    · exact ⟨pre, hpre.trans (List.prefix_append _ _), hshows⟩
    · exact ⟨_, List.prefix_refl _, hshows⟩

/-- The ledger, as the records `P` of a customer account have been shown so far: its balance is the
newest of them, each stored event reports one of them, and the newest version has an event. -/
structure Ledgered (P : CachedBalance → Prop) (a : Account) (s : Db) : Prop where
  booked : Booked s
  covered : CustomersCovered s
  kind : a.kind = .customer
  account : ∃ a', s.accounts.find? a.id = some a' ∧ a.Same a'
  shown : ∀ x, s.ShowsBalance a x → P x
  readable : ∀ x, P x → x.Readable
  newest : ∀ x, P x → ∃ b, s.balances.find? a.id = some b ∧ x.version ≤ b.version ∧
    (x.version = b.version → ∃ asOf, x = b.cached a.tenantId a.currency asOf)
  events : ∀ e ∈ s.balanceEvents a.id, ∃ x, decodeBalance e.published = .ok x ∧ P x ∧
    x.version = e.aggregateVersion
  announced : ∀ b, s.balances.find? a.id = some b → (b.version : ℤ) = 0 ∨
    ∃ e ∈ s.balanceEvents a.id, e.aggregateVersion = b.version

section Ledger

variable {d : Digest} {P : CachedBalance → Prop} {a : Account} {s s' : Db}

/-- A balance of an account that is covered can be read back from the cache. -/
theorem Balance.cached_readable {b : Balance} (hsound : b.Sound) (a : Account) (asOf : ℤ) :
    (b.cached a.tenantId a.currency asOf).Readable where
  currency := a.currency_shape
  version := ⟨b.version_nonneg, b.version.inRange.2⟩
  available := ⟨hsound.nonneg, b.available.inRange.2⟩
  ledger := ⟨hsound.nonneg.trans hsound.le, b.ledger.inRange.2⟩

/-- The balance of an account of sound columns can be read back. -/
theorem Account.Same.readable {a' : Account} (hsame : a.Same a') {b : Balance} (hsound : b.Sound)
    (asOf : ℤ) : (b.cached a.tenantId a.currency asOf).Readable := by
  rw [← hsame.tenantId, ← hsame.currency]
  exact Balance.cached_readable hsound a' asOf

/-- A command keeps the history of a customer account, with the balance that it leaves. -/
theorem Ledgered.change (h : Ledgered P a s) (hchange : Change d s s') :
    Ledgered (fun x => P x ∨ s'.ShowsBalance a x) a s' := by
  obtain ⟨a₁, ha₁, hsame⟩ := h.account
  obtain ⟨a', ha', hsame'⟩ := hchange.account_kept ha₁
  have hbooked := hchange.booked h.booked
  have hcovered := hchange.customersCovered h.covered
  have hkind : a'.kind = .customer := hsame'.kind.trans (hsame.kind.trans h.kind)
  have hboth : a.Same a' := ⟨hsame'.id.trans hsame.id, hsame'.tenantId.trans hsame.tenantId,
    hsame'.currency.trans hsame.currency, hsame'.kind.trans hsame.kind⟩
  have hreadable : ∀ x, s'.ShowsBalance a x → x.Readable := by
    rintro _ ⟨b, asOf, hb, rfl⟩
    exact hboth.readable (hbooked.sound hcovered ha' hb hkind) asOf
  -- Either the account is as before, or its balance has moved once.
  rcases hchange.balanceStep h.booked h.covered ha₁ (hsame.kind.trans h.kind) with
    hkept | ⟨b, b', e, hb, hb', hnext, hevents, hreports⟩
  · have hnew : ∀ x, s'.ShowsBalance a x → P x := by
      rintro x ⟨b, asOf, hb, rfl⟩
      exact h.shown _ ⟨b, asOf, by rw [← hkept.balance, hb], rfl⟩
    refine ⟨hbooked, hcovered, h.kind, ⟨a', ha', hboth⟩, fun x hx => .inr hx,
      fun x hx => h.readable x (hx.elim id (hnew x)), fun x hx => ?_, fun e he => ?_,
      fun b hb => ?_⟩
    · rw [hkept.balance]
      exact h.newest x (hx.elim id (hnew x))
    · rw [hkept.events] at he
      obtain ⟨x, hdecode, hx, hversion⟩ := h.events e he
      exact ⟨x, hdecode, .inl hx, hversion⟩
    · rw [hkept.balance] at hb
      rw [hkept.events]
      exact h.announced b hb
  · -- The version goes up by one, and the new event reports the new balance.
    have hold : ∀ x, P x → x.version < b'.version := by
      intro x hx
      obtain ⟨b₀, hb₀, hle, -⟩ := h.newest x hx
      obtain rfl := Option.some.inj (hb.symm.trans hb₀)
      omega
    obtain ⟨-, -, hversion, asOf, hdecode⟩ := hreports (hbooked.sound hcovered ha' hb' hkind)
    rw [hsame.tenantId, hsame.currency] at hdecode
    refine ⟨hbooked, hcovered, h.kind, ⟨a', ha', hboth⟩, fun x hx => .inr hx,
      fun x hx => hx.elim (h.readable x) (hreadable x), fun x hx => ⟨b', hb', ?_⟩, fun e' he' => ?_,
      fun b₀ hb₀ => ?_⟩
    -- Older states stay behind the new version.
    · rcases hx with hx | ⟨b₀, asOf, hb₀, rfl⟩
      · exact ⟨(hold x hx).le, fun heq => absurd heq (hold x hx).ne⟩
      · obtain rfl := Option.some.inj (hb'.symm.trans hb₀)
        exact ⟨le_rfl, fun _ => ⟨asOf, rfl⟩⟩
    · rw [hevents] at he'
      rcases List.mem_cons.mp he' with rfl | he'
      · exact ⟨_, hdecode, .inr ⟨b', asOf, hb', rfl⟩, hversion.symm⟩
      · obtain ⟨x, hx, hshown, hsameVersion⟩ := h.events e' he'
        exact ⟨x, hx, .inl hshown, hsameVersion⟩
    · obtain rfl := Option.some.inj (hb'.symm.trans hb₀)
      rw [hevents]
      exact .inr ⟨e, List.mem_cons_self, hversion⟩

/-- A customer account before its first command. -/
theorem Db.Provisioned.ledgered (hs : s.Provisioned) (ha : a ∈ s.accounts)
    (hkind : a.kind = .customer) : Ledgered (s.ShowsBalance a) a s := by
  have hfind := Table.find?_eq_some.mpr ⟨ha, rfl⟩
  obtain ⟨b₀, -, hb₀, -⟩ := hs.accounts a ha
  refine ⟨hs.booked, hs.customersCovered, hkind, ⟨a, hfind, .refl a⟩, fun x hx => hx, ?_, ?_, ?_,
    fun b hb => .inl (hs.versions b (Table.mem_of_find? hb))⟩
  · rintro _ ⟨b, asOf, hb, rfl⟩
    exact Balance.cached_readable (hs.booked.sound hs.customersCovered hfind hb hkind) a asOf
  · rintro _ ⟨b, asOf, hb, rfl⟩
    exact ⟨b, hb, le_rfl, fun _ => ⟨asOf, rfl⟩⟩
  · intro e he
    simp [Db.balanceEvents, balanceEventsIn, hs.outbox] at he

end Ledger

/-! ## Messages and puts -/

section Messages

variable {c : BalanceCache} {e : StreamEvent} {r r' : Redis} {x : CachedBalance}

/-- A decoder in two parts succeeds when both do. -/
theorem decodes_bind {α β : Type} {y : Except String α} {f : α → Except String β} {b : β} :
    (y >>= f) = .ok b ↔ ∃ a, y = .ok a ∧ f a = .ok b := by
  rcases y with message | a
  · exact ⟨nofun, nofun⟩
  · exact ⟨fun h => ⟨a, rfl, h⟩, by rintro ⟨_, ⟨⟩, h⟩; exact h⟩

/-- A decoder that succeeds has a value. -/
theorem decodes_of_isOk {α : Type} {y : Except String α} (h : y.isOk = true) :
    ∃ a, y = .ok a := by
  rcases y with message | a
  · cases h
  · exact ⟨a, rfl⟩

/-- A decoded balance is that of the account which the envelope names. -/
theorem decodeBalance_ok (h : decodeBalance e = .ok x) :
    e.accountId ≠ "" ∧ x.tenantId = e.tenantId ∧ x.accountId = e.accountId := by
  unfold decodeBalance at h
  simp only [decodes_bind] at h
  obtain ⟨_, henvelope, p, -, _, -, available, -, ledger, -, version, -, h⟩ := h
  unfold refuseIf at henvelope
  split_ifs at henvelope with hrefused
  simp only [not_or] at hrefused
  refine ⟨hrefused.2.2.2.1, ?_⟩
  split at h
  · split_ifs at h
    cases h
    exact ⟨rfl, rfl⟩
  · cases h

/-- An applied message is of another aggregate, or its balance was put. -/
theorem applyMessage_ok (h : c.applyMessage e r = .ok r') :
    (r' = r ∧ e.eventType ≠ balanceChangedV1 ∧ e.eventType ≠ balanceChangedV2) ∨
      ∃ x written, decodeBalance e = .ok x ∧ c.putIfNewer x r = .ok (written, r') := by
  unfold BalanceCache.applyMessage at h
  split_ifs at h with htype
  · cases h
    exact .inl ⟨rfl, htype⟩
  · obtain ⟨x, hdecode, h⟩ := decodes_bind.mp h
    obtain ⟨⟨written, r₁⟩, hput, h⟩ := decodes_bind.mp h
    cases h
    exact .inr ⟨x, written, hdecode, hput⟩

/-- The record is of an account that exists under these identifiers. -/
def CachedBalance.Named (x : CachedBalance) : Prop :=
  ∃ t i : Uuid, x.tenantId = t.text ∧ x.accountId = i.text

/-- A balance that the ledger shows is named by its account. -/
theorem Db.ShowsBalance.named {s : Db} {a : Account} (h : s.ShowsBalance a x) :
    x.tenantId = a.tenantId.text ∧ x.accountId = a.id.text := by
  obtain ⟨b, asOf, hb, rfl⟩ := h
  exact ⟨rfl, congrArg Uuid.text (Table.key_of_find? hb)⟩

/-- The record of a stored event is named as the event is. -/
theorem OutboxEvent.decoded_named {e : OutboxEvent} (h : decodeBalance e.published = .ok x) :
    ∃ i, e.accountId = some i ∧ x.tenantId = e.tenantId.text ∧ x.accountId = i.text := by
  obtain ⟨hne, htenant, haccount⟩ := decodeBalance_ok h
  rcases hi : e.accountId with _ | i
  · simp [OutboxEvent.published, hi] at hne
  · refine ⟨i, rfl, htenant, haccount.trans ?_⟩
    simp [OutboxEvent.published, hi]

end Messages

/-! ## Every run -/

/-- What is cached of a customer account, and what readers hold of it, has been shown. -/
structure Tracked (P : CachedBalance → Prop) (a : Account) (c : BalanceCache)
    (s : ProjectionState) : Prop where
  ledgered : Ledgered P a s.ledger
  reads : ∀ x ∈ s.reads, x.Named ∧
    (x.tenantId = a.tenantId.text → x.accountId = a.id.text → P x)
  cached : ∀ e, s.redis.entries (c.key a.tenantId.text a.id.text) = some e →
    ∃ x, P x ∧ e.hash = x.hash

section Runs

variable {d : Digest} {c : BalanceCache} {s : ProjectionState} {a : Account}
  {P : CachedBalance → Prop} {x : CachedBalance} {r : Redis} {written : Bool}

/-- Putting a balance keeps the cache tracked. -/
theorem Tracked.put (h : Tracked P a c s) (hnamed : x.Named)
    (hshown : x.tenantId = a.tenantId.text → x.accountId = a.id.text → P x)
    (hput : c.putIfNewer x s.redis = .ok (written, r)) : Tracked P a c { s with redis := r } := by
  refine ⟨h.ledgered, h.reads, fun e he => ?_⟩
  obtain ⟨-, rfl | rfl⟩ := BalanceCache.putIfNewer_cases hput
  · exact h.cached e he
  · by_cases hkey : c.key a.tenantId.text a.id.text = c.key x.tenantId x.accountId
    · obtain ⟨t, i, ht, hi⟩ := hnamed
      rw [ht, hi] at hkey
      obtain ⟨hsameTenant, hsameAccount⟩ := BalanceCache.key_inj hkey
      refine ⟨x, hshown (by rw [ht, hsameTenant]) (by rw [hi, hsameAccount]), ?_⟩
      rw [hkey, ← ht, ← hi] at he
      simp only [Redis.write, Redis.update, Function.update_self] at he
      split_ifs at he
      cases he
      rfl
    · exact h.cached e ((Redis.entries_write_ne hkey) ▸ he)

/-- What a reader reads is the balance as it is. -/
theorem readCurrent_shows {s : Db} {tenant account : Uuid} {actor : String}
    (hx : s.readCurrent tenant actor account = some x) :
    x.Named ∧ ∀ a' a : Account, s.accounts.find? a.id = some a' → a.Same a' →
      x.tenantId = a.tenantId.text → x.accountId = a.id.text → s.ShowsBalance a x := by
  obtain ⟨⟨a₀, b⟩, hfound, hx⟩ := Option.bind_eq_some_iff.mp hx
  obtain ⟨ha₀, hb, htenant⟩ := Db.account?_eq_some.mp hfound
  simp only at hx
  split_ifs at hx
  obtain rfl := Option.some.inj hx
  refine ⟨⟨tenant, b.accountId, rfl, rfl⟩, fun a' a ha' hsame ht hi => ?_⟩
  have hid : b.accountId = a.id := Uuid.text_inj.mp hi
  have haccount : account = a.id := (Table.key_of_find? hb).symm.trans hid
  subst haccount
  obtain rfl := Option.some.inj (ha₀.symm.trans ha')
  exact ⟨b, _, hb, by rw [← hsame.tenantId, ← hsame.currency, htenant]⟩

/-- What the rebuild lists is the balances as they are. -/
theorem listCurrent_shows {s : Db} {tenant : Uuid} (hx : x ∈ s.listCurrentForTenant tenant) :
    x.Named ∧ ∀ a' a : Account, s.accounts.find? a.id = some a' → a.Same a' →
      x.tenantId = a.tenantId.text → x.accountId = a.id.text → s.ShowsBalance a x := by
  obtain ⟨a₀, ha₀, hx⟩ := List.mem_filterMap.mp hx
  obtain ⟨b, hb, rfl⟩ := Option.map_eq_some_iff.mp hx
  have hrow := List.mem_filter.mp (List.mem_mergeSort.mp ha₀)
  have htenant := (of_decide_eq_true hrow.2).1
  refine ⟨⟨tenant, b.accountId, rfl, rfl⟩, fun a' a ha' hsame ht hi => ?_⟩
  have hid : b.accountId = a.id := Uuid.text_inj.mp hi
  have haccount : a₀.id = a.id := (Table.key_of_find? hb).symm.trans hid
  have hfind : s.accounts.find? a.id = some a₀ := Table.find?_eq_some.mpr ⟨hrow.1, haccount⟩
  obtain rfl := Option.some.inj (hfind.symm.trans ha')
  exact ⟨b, _, haccount ▸ hb, by rw [← hsame.tenantId, ← hsame.currency, htenant]⟩

/-- Reading rows keeps the cache tracked. -/
theorem Tracked.read (h : Tracked P a c s) {rows : List CachedBalance}
    (hrows : ∀ x ∈ rows, x.Named ∧ ∀ a' a : Account, s.ledger.accounts.find? a.id = some a' →
      a.Same a' → x.tenantId = a.tenantId.text → x.accountId = a.id.text →
      s.ledger.ShowsBalance a x) :
    Tracked P a c { s with reads := rows ++ s.reads } := by
  refine ⟨h.ledgered, fun x hx => ?_, h.cached⟩
  rcases List.mem_append.mp hx with hx | hx
  · obtain ⟨a', ha', hsame⟩ := h.ledgered.account
    obtain ⟨hnamed, hshows⟩ := hrows x hx
    exact ⟨hnamed, fun ht hi => h.ledgered.shown x (hshows a' a ha' hsame ht hi)⟩
  · exact h.reads x hx

/-- A step keeps what has been shown, with the balance that it leaves. -/
theorem Tracked.step (h : Tracked P a c s) (step : ProjectionStep) :
    Tracked (fun x => P x ∨ (step.apply d c s).ledger.ShowsBalance a x) a c (step.apply d c s) := by
  have hsame : ∀ s' : ProjectionState, s'.ledger = s.ledger → Tracked P a c s' →
      Tracked (fun x => P x ∨ s'.ledger.ShowsBalance a x) a c s' := by
    intro s' hledger ht
    have heq : (fun x => P x ∨ s'.ledger.ShowsBalance a x) = P :=
      funext fun x => propext (or_iff_left_of_imp (ht.ledgered.shown x))
    rw [heq]
    exact ht
  cases step with
  | call x =>
    rcases commit_cases (exec d x) s.ledger with hraised | ⟨u, hok⟩
    · refine hsame _ hraised ⟨?_, h.reads, h.cached⟩
      change Ledgered P a (commit (exec d x) s.ledger)
      rw [hraised]
      exact h.ledgered
    -- The commit shows more of the ledger and leaves the cache alone.
    · refine ⟨h.ledgered.change (exec_change hok), fun y hy => ?_, fun e he => ?_⟩
      · obtain ⟨hnamed, hshown⟩ := h.reads y hy
        exact ⟨hnamed, fun ht hi => .inl (hshown ht hi)⟩
      · obtain ⟨y, hy, hhash⟩ := h.cached e he
        exact ⟨y, .inl hy, hhash⟩
  | deliver event =>
    refine hsame _ (deliver_ledger event) ?_
    · simp only [ProjectionStep.apply]
      split
      · rename_i r hdelivered
        obtain ⟨e, hfind, happlied⟩ := Option.map_eq_some_iff.mp hdelivered
        rcases applyMessage_ok happlied with ⟨rfl, -⟩ | ⟨x, written, hdecode, hput⟩
        · exact h
        · obtain ⟨i, hi, htenant, haccount⟩ := OutboxEvent.decoded_named hdecode
          refine h.put ⟨e.tenantId, i, htenant, haccount⟩ (fun _ hid => ?_) hput
          -- The event is one of the account, so it is known what it reports.
          have hid' : i = a.id := Uuid.text_inj.mp (haccount.symm.trans hid)
          have hbalance : e.IsBalance := by
            by_contra hnot
            have htype : e.eventType ≠ balanceChangedV1 ∧ e.eventType ≠ balanceChangedV2 := by
              unfold OutboxEvent.IsBalance at hnot
              exact not_or.mp hnot
            rw [decodeBalance, refuseIf, if_pos (.inl htype)] at hdecode
            cases hdecode
          have hmem : e ∈ s.ledger.balanceEvents a.id :=
            List.mem_filter.mpr ⟨Table.mem_of_find? hfind, decide_eq_true ⟨hid' ▸ hi, hbalance⟩⟩
          obtain ⟨y, hy, hshown, -⟩ := h.ledgered.events e hmem
          obtain rfl := Except.ok.inj (hdecode.symm.trans hy)
          exact hshown
      · exact h
  | read tenant actor account =>
    refine hsame _ rfl (h.read fun x hx => ?_)
    exact readCurrent_shows (Option.mem_toList.mp hx)
  | list tenant => exact hsame _ rfl (h.read fun x hx => listCurrent_shows hx)
  | put b =>
    refine hsame _ ?_ ?_
    · simp only [ProjectionStep.apply]
      split_ifs
      · split <;> rfl
      · rfl
    · simp only [ProjectionStep.apply]
      split_ifs with hread
      · split
        · rename_i hput
          exact h.put (h.reads b hread).1 (h.reads b hread).2 hput
        · exact h
      · exact h
  | evict key =>
    -- An evicted record is gone, and the others stay.
    refine hsame _ rfl ⟨h.ledgered, h.reads, fun e he => ?_⟩
    by_cases hkey : c.key a.tenantId.text a.id.text = key
    · simp [ProjectionStep.apply, Redis.del, Redis.update, hkey] at he
    · exact h.cached e ((Redis.entries_del_ne hkey) ▸ he)
  | wait millis => exact hsame _ rfl ⟨h.ledgered, h.reads, h.cached⟩

/-- Everything that is cached of a customer account was its balance at some time. -/
theorem tracked_run {s : Db} (hs : s.Provisioned) (ha : a ∈ s.accounts) (hkind : a.kind = .customer)
    (d : Digest) (c : BalanceCache) (now : ℤ) (steps : List ProjectionStep) :
    Tracked (ShownIn d c (.start s now) a steps) a c (projectionRun d c steps (.start s now)) := by
  induction steps using List.reverseRecOn with
  | nil =>
    -- At the start only the first ledger is shown.
    have hnil : ShownIn d c (.start s now) a [] = s.ShowsBalance a := by
      funext x
      refine propext ⟨?_, fun hx => ⟨[], List.prefix_refl _, hx⟩⟩
      rintro ⟨pre, hpre, hx⟩
      rw [List.prefix_nil.mp hpre] at hx
      exact hx
    rw [hnil]
    exact ⟨hs.ledgered ha hkind, nofun, nofun⟩
  | append_singleton steps step ih =>
    -- One step more shows what the ledger holds after it.
    have hsnoc : ShownIn d c (.start s now) a (steps ++ [step]) = fun x =>
        ShownIn d c (.start s now) a steps x ∨
          (step.apply d c (projectionRun d c steps (.start s now))).ledger.ShowsBalance a x := by
      funext x
      rw [shownIn_snoc, projectionRun_snoc]
    rw [hsnoc, projectionRun_snoc]
    exact ih.step step

/-- What the cache answers for a customer account. -/
theorem Tracked.get (h : Tracked P a c s) :
    (s.redis.find? (c.key a.tenantId.text a.id.text) = none ∧
        c.get a.tenantId.text a.id.text s.redis = .error "balance cache miss") ∨
      ∃ x, P x ∧ s.redis.find? (c.key a.tenantId.text a.id.text) = some x.hash ∧
        c.get a.tenantId.text a.id.text s.redis =
          x.hash.decode a.tenantId.text a.id.text := by
  unfold BalanceCache.get
  rcases hfind : s.redis.find? (c.key a.tenantId.text a.id.text) with _ | hash
  · exact .inl ⟨rfl, rfl⟩
  · obtain ⟨e, he, hlive⟩ := Option.bind_eq_some_iff.mp hfind
    split_ifs at hlive
    obtain ⟨x, hx, hhash⟩ := h.cached e he
    cases hlive
    exact .inr ⟨x, hx, by rw [hhash], by rw [hhash]⟩

end Runs

namespace Sample

/-- The cache as the worker makes it. -/
def cache : BalanceCache := newBalanceCache "" 300000000000

/-- A hold is opened. -/
def heldSteps : List ProjectionStep := [.call openHold]

/-- The state after the hold. -/
def heldState : ProjectionState := projectionRun digest cache heldSteps (.start db 0)

/-- The cache answers after the event of the hold. -/
theorem held_answer : (cache.get tenant.text source.text
    (projectionRun digest cache [.deliver (uuid 62)] heldState).redis).isOk = true := by
  decide +kernel

end Sample

/-- Whatever the steps, the cache answers for a customer account with a miss, with the error for a
time whose year has no four digits, or with the balance that the account had after some of the
steps. -/
theorem cache_shows_history (d : Digest) (c : BalanceCache) (s : Db) (hs : s.Provisioned) (now : ℤ)
    (steps : List ProjectionStep) : ∀ a ∈ s.accounts, a.kind = .customer →
      ∀ answer, c.get a.tenantId.text a.id.text
          (projectionRun d c steps (.start s now)).redis = answer →
        answer = .error "balance cache miss" ∨ answer = .error "balance cache has invalid as_of" ∨
        ∃ pre, pre <+: steps ∧ ∃ b asOf,
          (projectionRun d c pre (.start s now)).ledger.balances.find? a.id = some b ∧
          answer = .ok (b.cached a.tenantId a.currency asOf) := by
  intro a ha hkind answer hanswer
  have htracked := tracked_run hs ha hkind d c now steps
  rcases htracked.get with ⟨-, hmiss⟩ | ⟨x, hx, -, hget⟩
  · exact .inl (hanswer.symm.trans hmiss)
  · obtain ⟨pre, hpre, hshows⟩ := id hx
    obtain ⟨ht, hi⟩ := hshows.named
    have hreadable := htracked.ledgered.readable x hx
    rw [← ht, ← hi, decode_hash hreadable, ht, hi] at hget
    split_ifs at hget
    · obtain ⟨b, asOf, hb, rfl⟩ := hshows
      exact .inr (.inr ⟨pre, hpre, b, asOf, hb, hanswer.symm.trans hget⟩)
    · exact .inr (.inl (hanswer.symm.trans hget))

/-- After the delivery of the event of a hold the cache answers with a balance. -/
theorem cache_shows_history_sample : Sample.db.Provisioned ∧ ∃ answer pre, ∃ b : Balance, ∃ asOf,
    Sample.cache.get Sample.tenant.text Sample.source.text
      (projectionRun Sample.digest Sample.cache (Sample.heldSteps ++ [.deliver (Sample.uuid 62)])
        (.start Sample.db 0)).redis = answer ∧
    pre <+: Sample.heldSteps ++ [.deliver (Sample.uuid 62)] ∧
    (projectionRun Sample.digest Sample.cache pre (.start Sample.db 0)).ledger.balances.find?
      Sample.source = some b ∧
    answer = .ok (b.cached Sample.tenant (Sample.account Sample.source).currency asOf) := by
  have hanswer := Sample.held_answer
  rw [Sample.heldState, ← projectionRun_append] at hanswer
  obtain ⟨x, hx⟩ := decodes_of_isOk hanswer
  have hhistory := cache_shows_history Sample.digest Sample.cache Sample.db Sample.provisioned 0
    (Sample.heldSteps ++ [.deliver (Sample.uuid 62)]) (Sample.account Sample.source)
    (Table.mem_def.mpr (by decide +kernel)) rfl
  rcases hhistory _ hx with hmiss | hyear | ⟨pre, hpre, b, asOf, hb, h⟩
  · cases hmiss
  · cases hyear
  · exact ⟨Sample.provisioned, _, pre, b, asOf, hx, hpre, hb, h⟩

end LedgerSync
