import LedgerSync.BalanceProjection

/-!
# A cache that catches up

A stretch of steps that never takes a record of an account away once it is there: nothing evicts it,
and it does not expire before it is written anew. In such a stretch the key is a register that takes
newer balances only, so its answers never go back (`projection_monotone`), and once every stored
event of the account was applied, in whatever order and however often, it answers with the balance
of the ledger (`projection_converges`).
-/

namespace LedgerSync

open Lib

/-! ## One step -/

/-- No step takes away a record that is under the key. -/
def Unbroken (d : Digest) (c : BalanceCache) (key : String) :
    List ProjectionStep → ProjectionState → Prop
  | [], _ => True
  | step :: steps, s =>
    ((s.redis.find? key).isSome → ((step.apply d c s).redis.find? key).isSome) ∧
      Unbroken d c key steps (step.apply d c s)

/-- Whether a stretch is unbroken can be decided. -/
instance Unbroken.decidable (d : Digest) (c : BalanceCache) (key : String) :
    (steps : List ProjectionStep) → (s : ProjectionState) → Decidable (Unbroken d c key steps s)
  | [], _ => inferInstanceAs (Decidable True)
  | step :: steps, s =>
    have := Unbroken.decidable d c key steps (step.apply d c s)
    inferInstanceAs (Decidable (_ ∧ _))

section Step

variable {d : Digest} {c : BalanceCache} {s : ProjectionState} {key : String}
  {held : Option CachedBalance} {x : CachedBalance} {r r' : Redis} {written : Bool}
  {step : ProjectionStep} {steps more : List ProjectionStep}

/-- A stretch is unbroken when both of its parts are. -/
theorem unbroken_append : Unbroken d c key (steps ++ more) s ↔
    Unbroken d c key steps s ∧ Unbroken d c key more (projectionRun d c steps s) := by
  induction steps generalizing s with
  | nil => rw [List.nil_append, Unbroken, true_and]; rfl
  | cons step steps ih =>
    rw [List.cons_append, Unbroken, Unbroken, ih, and_assoc]
    rfl

/-- The beginning of an unbroken stretch is unbroken. -/
theorem Unbroken.of_append (h : Unbroken d c key (steps ++ more) s) : Unbroken d c key steps s :=
  (unbroken_append.mp h).1

/-- Where the hash under a key is the same, the key holds the same balance. -/
theorem Redis.Holds.of_find? (h : r.Holds key held) (hfind : r'.find? key = r.find? key) :
    r'.Holds key held :=
  ⟨hfind.trans h.1, h.2⟩

/-- A key that was lost held nothing, unless a record was taken away. -/
theorem Redis.Holds.of_lost (h : r.Holds key held)
    (hkept : (r.find? key).isSome → (r'.find? key).isSome) (hlost : r'.find? key = none) :
    r'.Holds key held := by
  rcases hfind : r.find? key with _ | hash
  · exact h.of_find? (hlost.trans hfind.symm)
  · rw [hfind, hlost] at hkept
    cases hkept rfl

/-- What is under a key stays while time passes, or is lost. -/
theorem Redis.find?_wait (r : Redis) (key : String) (millis : ℕ) :
    (r.wait millis).find? key = r.find? key ∨ (r.wait millis).find? key = none := by
  unfold find? wait
  rcases r.entries key with _ | e
  · exact .inl rfl
  · simp only [Option.bind_some]
    by_cases hlive : r.now + millis ≤ e.expiresAt
    · rw [if_pos hlive, if_pos (by omega)]
      exact .inl rfl
    · exact .inr (if_neg hlive)

/-- A put under the key is an offer to it, and a put under another key leaves it. -/
theorem Redis.Holds.put (h : r.Holds key held) (hput : c.putIfNewer x r = .ok (written, r'))
    (hkept : (r.find? key).isSome → (r'.find? key).isSome) :
    ∃ held', r'.Holds key held' ∧ AtLeast CachedBalance.version held held' ∧
      (0 < c.millis → c.key x.tenantId x.accountId = key →
        AtLeast CachedBalance.version (some x) held') := by
  obtain ⟨-, hcases⟩ := BalanceCache.putIfNewer_cases hput
  -- Only a write under this key can change what it holds.
  by_cases hkey : c.key x.tenantId x.accountId = key
  swap
  · -- Another key is written.
    refine ⟨held, h.of_find? ?_, .refl _ _, fun _ heq => absurd heq hkey⟩
    rcases hcases with rfl | rfl
    · rfl
    · rw [Redis.find?, Redis.find?, Redis.entries_write_ne fun heq => hkey heq.symm]
      rfl
  subst hkey
  by_cases hmillis : 0 < c.millis
  · exact ⟨offer CachedBalance.version held x, BalanceCache.holds_putIfNewer hmillis hput h,
      atLeast_offer _ _ _, fun _ _ => atLeast_some_offer _ _ _⟩
  · -- What is written with no time to live is lost at once.
    refine ⟨held, ?_, .refl _ _, fun hpos => absurd hpos hmillis⟩
    rcases hcases with rfl | rfl
    · exact h
    · refine h.of_lost hkept ?_
      have hgone : r.now + c.millis ≤ r.now := by omega
      simp [Redis.find?, Redis.write, Redis.update, hgone]

/-- A step that takes no record away: the key holds no older balance than before it, and none older
than that of an event that the step applied. -/
theorem holds_step (h : s.redis.Holds key held)
    (hkept : (s.redis.find? key).isSome → ((step.apply d c s).redis.find? key).isSome) :
    ∃ held', (step.apply d c s).redis.Holds key held' ∧
      AtLeast CachedBalance.version held held' ∧
      ∀ event e r, step = .deliver event → s.ledger.outbox.find? event = some e →
        c.applyMessage e.published s.redis = .ok r → e.IsBalance → 0 < c.millis →
        ∃ x, decodeBalance e.published = .ok x ∧ (c.key x.tenantId x.accountId = key →
          AtLeast CachedBalance.version (some x) held') := by
  cases step with
  | call x => exact ⟨held, h, .refl _ _, fun _ _ _ hother => by cases hother⟩
  | read tenant actor account => exact ⟨held, h, .refl _ _, fun _ _ _ hother => by cases hother⟩
  | list tenant => exact ⟨held, h, .refl _ _, fun _ _ _ hother => by cases hother⟩
  -- Time and eviction can only take the record away.
  | wait millis =>
    refine ⟨held, ?_, .refl _ _, fun _ _ _ hother => by cases hother⟩
    rcases s.redis.find?_wait key millis with hsame | hlost
    · exact h.of_find? hsame
    · exact h.of_lost hkept hlost
  | evict key' =>
    refine ⟨held, ?_, .refl _ _, fun _ _ _ hother => by cases hother⟩
    by_cases hkey : key = key'
    · refine h.of_lost hkept ?_
      subst hkey
      simp [ProjectionStep.apply, Redis.del, Redis.find?, Redis.update]
    · refine h.of_find? ?_
      simp only [ProjectionStep.apply, Redis.find?, Redis.entries_del_ne hkey]
      rfl
  | put b =>
    rcases hput : c.putIfNewer b s.redis with message | ⟨written, r⟩
    · refine ⟨held, ?_, .refl _ _, fun _ _ _ hother => by cases hother⟩
      simp only [ProjectionStep.apply, hput, ite_self]
      exact h
    simp only [ProjectionStep.apply, hput] at hkept ⊢
    split_ifs at hkept ⊢
    · obtain ⟨held', hheld', hatLeast, -⟩ := h.put hput hkept
      exact ⟨held', hheld', hatLeast, fun _ _ _ hother => by cases hother⟩
    · exact ⟨held, h, .refl _ _, fun _ _ _ hother => by cases hother⟩
  -- The message is unknown, fails, is of another kind or is offered to the cache.
  | deliver event =>
    rcases hfind : s.ledger.outbox.find? event with _ | e
    · refine ⟨held, ?_, .refl _ _, ?_⟩
      · simp only [ProjectionStep.apply, hfind]
        exact h
      · rintro _ e r ⟨⟩ he
        cases hfind.symm.trans he
    rcases happlied : c.applyMessage e.published s.redis with message | r
    · refine ⟨held, ?_, .refl _ _, ?_⟩
      · simp only [ProjectionStep.apply, hfind, Option.map_some, happlied]
        exact h
      · rintro _ e' r ⟨⟩ he' hok
        obtain rfl := Option.some.inj (hfind.symm.trans he')
        cases happlied.symm.trans hok
    simp only [ProjectionStep.apply, hfind, Option.map_some, happlied] at hkept ⊢
    rcases applyMessage_ok happlied with ⟨rfl, hother⟩ | ⟨x, written, hdecode, hput⟩
    · refine ⟨held, h, .refl _ _, ?_⟩
      rintro _ e' r ⟨⟩ he' - hbalance
      obtain rfl := Option.some.inj (hfind.symm.trans he')
      exact absurd hbalance (not_or.mpr hother)
    · obtain ⟨held', hheld', hatLeast, hoffered⟩ := h.put hput hkept
      refine ⟨held', hheld', hatLeast, ?_⟩
      rintro _ e' r' ⟨⟩ he' - - hmillis
      obtain rfl := Option.some.inj (hfind.symm.trans he')
      exact ⟨x, hdecode, hoffered hmillis⟩

/-- Over an unbroken stretch the balance under the key does not get older. -/
theorem holds_run (h : s.redis.Holds key held) (hsteps : Unbroken d c key steps s) :
    ∃ held', (projectionRun d c steps s).redis.Holds key held' ∧
      AtLeast CachedBalance.version held held' := by
  induction steps generalizing s held with
  | nil => exact ⟨held, h, .refl _ _⟩
  | cons step steps ih =>
    obtain ⟨held₁, h₁, hle, -⟩ := holds_step h hsteps.1
    obtain ⟨held', h', hle'⟩ := ih h₁ hsteps.2
    exact ⟨held', h', hle.trans hle'⟩

end Step

/-! ## Applied events -/

/-- A step of the stretch applied the message of the event. -/
def OutboxEvent.AppliedIn (e : OutboxEvent) (d : Digest) (c : BalanceCache) (s : ProjectionState)
    (steps : List ProjectionStep) : Prop :=
  ∃ pre post, steps = pre ++ .deliver e.id :: post ∧
    (projectionRun d c pre s).ledger.outbox.find? e.id = some e ∧
    ∃ r, c.applyMessage e.published (projectionRun d c pre s).redis = .ok r

section Stretches

variable {d : Digest} {c : BalanceCache} {s : ProjectionState} {a : Account}
  {steps : List ProjectionStep} {P : CachedBalance → Prop}

/-- Equal hashes are of one version. -/
theorem version_of_hash {x y : CachedBalance} (h : x.hash = y.hash) : x.version = y.version := by
  have htext : decimal x.version = decimal y.version := congrArg BalanceHash.version h
  have hread := parseInteger_decimal x.version
  rw [htext, parseInteger_decimal] at hread
  exact (Option.some.inj hread).symm

/-- The key of a customer account holds a balance that was shown, or nothing. -/
theorem Tracked.holds (h : Tracked P a c s) :
    ∃ held, s.redis.Holds (c.key a.tenantId.text a.id.text) held := by
  rcases h.get with ⟨hnone, -⟩ | ⟨x, hx, hfind, -⟩
  · exact ⟨none, hnone, nofun⟩
  · exact ⟨some x, hfind, fun y hy => Option.some.inj hy ▸ (h.ledgered.readable x hx).version.1⟩

/-- The answer to a read, as the version that the key holds. -/
theorem Tracked.held (h : Tracked P a c s) {held : Option CachedBalance}
    (hheld : s.redis.Holds (c.key a.tenantId.text a.id.text) held) :
    (held = none ∧ c.get a.tenantId.text a.id.text s.redis = .error "balance cache miss") ∨
      ∃ x y, P x ∧ held = some y ∧ y.version = x.version ∧
        c.get a.tenantId.text a.id.text s.redis =
          x.hash.decode a.tenantId.text a.id.text := by
  obtain ⟨hfind, -⟩ := hheld
  rcases h.get with ⟨hnone, hmiss⟩ | ⟨x, hx, hhash, hget⟩
  · rw [hfind] at hnone
    exact .inl ⟨Option.map_eq_none_iff.mp hnone, hmiss⟩
  · rw [hfind] at hhash
    obtain ⟨y, hy, hsame⟩ := Option.map_eq_some_iff.mp hhash
    exact .inr ⟨x, y, hx, hy, version_of_hash hsame, hget⟩

/-- What is read back is a record that was shown. -/
theorem Tracked.decode (h : Tracked (ShownIn d c s a steps) a c (projectionRun d c steps s))
    {x : CachedBalance} (hx : ShownIn d c s a steps x) :
    x.hash.decode a.tenantId.text a.id.text =
      if HasWrittenYear x.asOf then .ok x else .error "balance cache has invalid as_of" := by
  obtain ⟨pre, hpre, hshows⟩ := id hx
  obtain ⟨ht, hi⟩ := hshows.named
  rw [← decode_hash (h.ledgered.readable x hx), ht, hi]

/-- An applied event leaves the key of its account no older than it, until the stretch ends. -/
theorem applied_atLeast {key : String} {e : OutboxEvent} {x : CachedBalance} (hmillis : 0 < c.millis)
    (hsteps : Unbroken d c key steps s)
    (hholds : ∀ pre, pre <+: steps → ∃ held, (projectionRun d c pre s).redis.Holds key held)
    (happlied : e.AppliedIn d c s steps) (hbalance : e.IsBalance)
    (hdecode : decodeBalance e.published = .ok x) (hkey : c.key x.tenantId x.accountId = key) :
    ∃ held, (projectionRun d c steps s).redis.Holds key held ∧
      AtLeast CachedBalance.version (some x) held := by
  obtain ⟨pre, post, rfl, hfind, r, hok⟩ := happlied
  obtain ⟨held, hheld⟩ := hholds pre (List.prefix_append _ _)
  obtain ⟨-, hkept, hpost⟩ := unbroken_append.mp hsteps
  obtain ⟨held₁, h₁, -, hoffered⟩ := holds_step hheld hkept
  obtain ⟨x', hx', hatLeast⟩ := hoffered e.id e r rfl hfind hok hbalance hmillis
  obtain rfl := Except.ok.inj (hdecode.symm.trans hx')
  obtain ⟨held₂, h₂, hle⟩ := holds_run h₁ hpost
  refine ⟨held₂, ?_, (hatLeast hkey).trans hle⟩
  rw [projectionRun_append]
  exact h₂

end Stretches

namespace Sample

/-- The source is an account of the sample. -/
theorem source_mem : account source ∈ db.accounts := Table.mem_def.mpr (by decide +kernel)

/-- A hold is opened, and then the transfer is submitted. -/
def bookedSteps : List ProjectionStep := [.call openHold, .call transfer]

/-- The state after both. -/
def bookedState : ProjectionState := projectionRun digest cache bookedSteps (.start db 0)

/-- The newer event of the source is delivered, and some minutes pass. -/
def newerSteps : List ProjectionStep := [.deliver (uuid 105), .wait 250000]

/-- The older event is delivered. -/
def olderSteps : List ProjectionStep := [.deliver (uuid 62)]

/-- The source has two events. Both are applied, the newer one first, and the cache answers with the
newer version before and after the older one, which takes no record away. -/
theorem booked_facts :
    (bookedState.ledger.balanceEvents source).map (fun e => (e.id, e.aggregateVersion)) =
      [(uuid 105, 2), (uuid 62, 1)] ∧
    (∀ e ∈ bookedState.ledger.balanceEvents source,
      (cache.applyMessage e.published bookedState.redis).isOk = true ∧
      (cache.applyMessage e.published
        (projectionRun digest cache newerSteps bookedState).redis).isOk = true) ∧
    Unbroken digest cache (cache.key tenant.text source.text) (newerSteps ++ olderSteps)
      bookedState ∧
    ((cache.get tenant.text source.text (projectionRun digest cache newerSteps
      bookedState).redis).map CachedBalance.version).toOption = some 2 ∧
    ((cache.get tenant.text source.text (projectionRun digest cache (newerSteps ++ olderSteps)
      bookedState).redis).map CachedBalance.version).toOption = some 2 ∧
    (bookedState.ledger.balances.find? source).map (fun b => (b.version : ℤ)) = some 2 := by
  decide +kernel

/-- The deliveries leave the ledger. -/
theorem delivered_ledger (d : Digest) (c : BalanceCache) (s : ProjectionState) :
    (projectionRun d c newerSteps s).ledger = s.ledger ∧
      (projectionRun d c (newerSteps ++ olderSteps) s).ledger = s.ledger :=
  have hnewer := deliver_ledger (d := d) (c := c) (s := s) (uuid 105)
  ⟨hnewer, (deliver_ledger (d := d) (c := c) (uuid 62)).trans hnewer⟩

/-- Both events are applied when the newer one is applied first and the older one behind it. -/
theorem applied_late {d : Digest} {c : BalanceCache} {s : ProjectionState} {e : OutboxEvent}
    (hid : e.id = uuid 105 ∨ e.id = uuid 62) (hfind : s.ledger.outbox.find? e.id = some e)
    (hfirst : ∃ r, c.applyMessage e.published s.redis = .ok r)
    (hsecond : ∃ r, c.applyMessage e.published (projectionRun d c newerSteps s).redis = .ok r) :
    e.AppliedIn d c s (newerSteps ++ olderSteps) := by
  have hledger := (delivered_ledger d c s).1
  rcases hid with hid | hid
  · exact ⟨[], .wait 250000 :: olderSteps, by rw [hid]; rfl, hfind, hfirst⟩
  · exact ⟨newerSteps, [], by rw [hid]; rfl, by rw [hledger]; exact hfind, hsecond⟩

/-- A cache answers with a balance whose version is known. -/
theorem answer_of_version {y : Except String CachedBalance} {version : ℤ}
    (h : (y.map CachedBalance.version).toOption = some version) :
    ∃ x, y = .ok x ∧ x.version = version := by
  rcases y with message | x
  · cases h
  · exact ⟨x, rfl, Option.some.inj h⟩

end Sample

/-- In an unbroken stretch the answers for a customer account never go back. -/
theorem projection_monotone (d : Digest) (c : BalanceCache) (s : Db) (hs : s.Provisioned) (now : ℤ)
    (before steps : List ProjectionStep) (a : Account) (ha : a ∈ s.accounts)
    (hkind : a.kind = .customer)
    (h : Unbroken d c (c.key a.tenantId.text a.id.text) steps
      (projectionRun d c before (.start s now))) :
    ∀ first second x y, first ++ second <+: steps →
      c.get a.tenantId.text a.id.text
        (projectionRun d c (before ++ first) (.start s now)).redis = .ok x →
      c.get a.tenantId.text a.id.text
        (projectionRun d c (before ++ (first ++ second)) (.start s now)).redis = .ok y →
      x.version ≤ y.version := by
  rintro first second x y ⟨rest, rfl⟩ hx hy
  have hboth := unbroken_append.mp h.of_append
  rw [← projectionRun_append] at hboth
  obtain ⟨held, hheld⟩ := (tracked_run hs ha hkind d c now (before ++ first)).holds
  obtain ⟨held', hheld', hle⟩ := holds_run hheld hboth.2
  rw [← projectionRun_append, List.append_assoc] at hheld'
  -- What is read is of the version that the key holds.
  have hversion : ∀ {steps : List ProjectionStep} {held : Option CachedBalance} {z : CachedBalance},
      (projectionRun d c steps (.start s now)).redis.Holds (c.key a.tenantId.text a.id.text) held →
      c.get a.tenantId.text a.id.text (projectionRun d c steps (.start s now)).redis = .ok z →
      ∃ w, held = some w ∧ w.version = z.version := by
    intro steps held z hheld hz
    have htracked := tracked_run hs ha hkind d c now steps
    rcases htracked.held hheld with ⟨-, hmiss⟩ | ⟨z', w, hz', hw, hsame, hget⟩
    · cases hmiss.symm.trans hz
    · rw [htracked.decode hz'] at hget
      split_ifs at hget
      · obtain rfl := Except.ok.inj (hget.symm.trans hz)
        exact ⟨w, hw, hsame⟩
      · cases hget.symm.trans hz
  obtain ⟨w, hw, hwx⟩ := hversion hheld hx
  obtain ⟨w', hw', hwy⟩ := hversion hheld' hy
  obtain ⟨w'', hw'', hle'⟩ := hle w hw
  obtain rfl := Option.some.inj (hw'.symm.trans hw'')
  omega

/-- The event of version 2 is delivered, and minutes later that of version 1: the answer stays at
version 2. -/
theorem projection_monotone_sample : Sample.db.Provisioned ∧
    (Sample.bookedState.ledger.balanceEvents Sample.source).map
        (fun e => (e.id, e.aggregateVersion)) = [(Sample.uuid 105, 2), (Sample.uuid 62, 1)] ∧
    ∃ x y : CachedBalance,
      Sample.cache.get Sample.tenant.text Sample.source.text (projectionRun Sample.digest
        Sample.cache (Sample.bookedSteps ++ Sample.newerSteps) (.start Sample.db 0)).redis = .ok x ∧
      Sample.cache.get Sample.tenant.text Sample.source.text (projectionRun Sample.digest
        Sample.cache (Sample.bookedSteps ++ (Sample.newerSteps ++ Sample.olderSteps))
          (.start Sample.db 0)).redis = .ok y ∧
      x.version = 2 ∧ x.version ≤ y.version := by
  obtain ⟨hevents, -, hunbroken, hfirst, hsecond, -⟩ := Sample.booked_facts
  rw [Sample.bookedState, ← projectionRun_append] at hfirst hsecond
  obtain ⟨x, hx, hversion⟩ := Sample.answer_of_version hfirst
  obtain ⟨y, hy, -⟩ := Sample.answer_of_version hsecond
  exact ⟨Sample.provisioned, hevents, x, y, hx, hy, hversion,
    projection_monotone Sample.digest Sample.cache Sample.db Sample.provisioned 0
      Sample.bookedSteps _ (Sample.account Sample.source) Sample.source_mem rfl hunbroken
      Sample.newerSteps Sample.olderSteps x y (List.prefix_refl _) hx hy⟩

/-- When the stored balance events of a customer account were all applied in an unbroken stretch, in
any order and among anything else, to a cache whose records live for a millisecond at least, the
cache answers with the balance of the ledger, unless the time of the record has a year without four
digits; a balance that never moved may also be missing. -/
theorem projection_converges (d : Digest) (c : BalanceCache) (s : Db) (hs : s.Provisioned) (now : ℤ)
    (before steps : List ProjectionStep) (a : Account) (ha : a ∈ s.accounts)
    (hkind : a.kind = .customer) (hmillis : 0 < c.millis)
    (h : Unbroken d c (c.key a.tenantId.text a.id.text) steps
      (projectionRun d c before (.start s now)))
    (hall : ∀ e ∈ (projectionRun d c (before ++ steps) (.start s now)).ledger.balanceEvents a.id,
      e.AppliedIn d c (projectionRun d c before (.start s now)) steps) :
    ∃ b, (projectionRun d c (before ++ steps) (.start s now)).ledger.balances.find? a.id = some b ∧
      ((b.version : ℤ) = 0 ∧ c.get a.tenantId.text a.id.text
          (projectionRun d c (before ++ steps) (.start s now)).redis =
          .error "balance cache miss" ∨
        ∃ asOf, c.get a.tenantId.text a.id.text
          (projectionRun d c (before ++ steps) (.start s now)).redis =
          if HasWrittenYear asOf then .ok (b.cached a.tenantId a.currency asOf)
          else .error "balance cache has invalid as_of") := by
  have htracked := tracked_run hs ha hkind d c now (before ++ steps)
  obtain ⟨b, hb⟩ : ∃ b, (projectionRun d c (before ++ steps) (.start s now)).ledger.balances.find?
      a.id = some b := by
    obtain ⟨b₀, -, hb₀, -⟩ := hs.accounts a ha
    obtain ⟨b, hb, -⟩ := htracked.ledgered.newest (b₀.cached a.tenantId a.currency 0)
      ⟨[], List.nil_prefix, b₀, 0, hb₀, rfl⟩
    exact ⟨b, hb⟩
  refine ⟨b, hb, ?_⟩
  -- A hit of the current version is the current balance.
  have hcurrent : ∀ x, ShownIn d c (.start s now) a (before ++ steps) x →
      (b.version : ℤ) ≤ x.version → c.get a.tenantId.text a.id.text
        (projectionRun d c (before ++ steps) (.start s now)).redis =
          x.hash.decode a.tenantId.text a.id.text →
      ∃ asOf, c.get a.tenantId.text a.id.text
        (projectionRun d c (before ++ steps) (.start s now)).redis =
          if HasWrittenYear asOf then .ok (b.cached a.tenantId a.currency asOf)
          else .error "balance cache has invalid as_of" := by
    intro x hx hle hget
    obtain ⟨b', hb', hle', hsame⟩ := htracked.ledgered.newest x hx
    obtain rfl := Option.some.inj (hb.symm.trans hb')
    obtain ⟨asOf, rfl⟩ := hsame (le_antisymm hle' hle)
    exact ⟨asOf, hget.trans (htracked.decode hx)⟩
  rcases htracked.ledgered.announced b hb with hzero | ⟨e, he, hversion⟩
  · -- The balance never moved.
    rcases htracked.get with ⟨-, hmiss⟩ | ⟨x, hx, -, hget⟩
    · exact .inl ⟨hzero, hmiss⟩
    · have hnonneg := (htracked.ledgered.readable x hx).version.1
      exact .inr (hcurrent x hx (by omega) hget)
  · -- The event of the current version was applied.
    obtain ⟨x, hdecode, hx, hxversion⟩ := htracked.ledgered.events e he
    have hbalance := (of_decide_eq_true (List.mem_filter.mp he).2).2
    obtain ⟨pre, hpre, hshows⟩ := id hx
    obtain ⟨ht, hi⟩ := hshows.named
    have hholds : ∀ pre, pre <+: steps → ∃ held, (projectionRun d c pre
        (projectionRun d c before (.start s now))).redis.Holds (c.key a.tenantId.text a.id.text)
          held := by
      intro pre _
      rw [← projectionRun_append]
      exact (tracked_run hs ha hkind d c now (before ++ pre)).holds
    obtain ⟨held, hheld, hatLeast⟩ := applied_atLeast hmillis h hholds (hall e he) hbalance hdecode
      (by rw [ht, hi])
    rw [← projectionRun_append] at hheld
    obtain ⟨w, hw, hle⟩ := hatLeast x rfl
    rcases htracked.held hheld with ⟨hnone, -⟩ | ⟨z, w', hz, hw', hsame, hget⟩
    · cases hnone.symm.trans hw
    · obtain rfl := Option.some.inj (hw.symm.trans hw')
      exact .inr (hcurrent z hz (by omega) hget)

/-- The events of the hold and of the transfer are delivered in the wrong order, and the cache
answers with the balance that the ledger has after both. -/
theorem projection_converges_sample : Sample.db.Provisioned ∧ ∃ b,
    (projectionRun Sample.digest Sample.cache
      (Sample.bookedSteps ++ (Sample.newerSteps ++ Sample.olderSteps))
        (.start Sample.db 0)).ledger.balances.find? Sample.source = some b ∧ (b.version : ℤ) = 2 ∧
    ∃ asOf, Sample.cache.get Sample.tenant.text Sample.source.text
      (projectionRun Sample.digest Sample.cache
        (Sample.bookedSteps ++ (Sample.newerSteps ++ Sample.olderSteps))
          (.start Sample.db 0)).redis =
      .ok (b.cached Sample.tenant (Sample.account Sample.source).currency asOf) := by
  obtain ⟨hevents, happlied, hunbroken, -, hanswer, hversion⟩ := Sample.booked_facts
  obtain ⟨-, hledger⟩ :=
    Sample.delivered_ledger Sample.digest Sample.cache Sample.bookedState
  have hconverges := projection_converges Sample.digest Sample.cache Sample.db
    Sample.provisioned 0 Sample.bookedSteps (Sample.newerSteps ++ Sample.olderSteps)
    (Sample.account Sample.source) Sample.source_mem rfl (by decide) hunbroken
  rw [projectionRun_append, ← Sample.bookedState, hledger] at hconverges
  obtain ⟨b, hb, hread⟩ := hconverges fun e he => by
    have he : e ∈ Sample.bookedState.ledger.balanceEvents Sample.source := he
    have hfind : Sample.bookedState.ledger.outbox.find? e.id = some e :=
      Table.find?_eq_some.mpr ⟨(List.mem_filter.mp he).1, rfl⟩
    obtain ⟨hfirst, hsecond⟩ := happlied e he
    have hid := List.mem_map_of_mem he (f := fun e : OutboxEvent => (e.id, e.aggregateVersion))
    rw [hevents, List.mem_cons, List.mem_singleton] at hid
    exact Sample.applied_late (hid.imp (congrArg Prod.fst) (congrArg Prod.fst)) hfind
      (decodes_of_isOk hfirst) (decodes_of_isOk hsecond)
  rw [projectionRun_append, ← Sample.bookedState, hledger]
  have hbalance : Sample.bookedState.ledger.balances.find? Sample.source = some b := hb
  rw [hbalance] at hversion
  refine ⟨Sample.provisioned, b, hb, Option.some.inj hversion, ?_⟩
  obtain ⟨y, hy, -⟩ := Sample.answer_of_version hanswer
  -- The cache answers, so that it neither misses nor refuses the time.
  rcases hread with ⟨-, hmiss⟩ | ⟨asOf, hget⟩
  · cases hy.symm.trans hmiss
  · split_ifs at hget
    · exact ⟨asOf, hget⟩
    · cases hy.symm.trans hget

end LedgerSync
