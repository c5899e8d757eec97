import LedgerSync.SpreadsheetCells
import LedgerSync.Lib.Recency

/-!
# The cache of signing keys

`CachedKeyResolver.Resolve` holds its lock twice: it looks the reference up, and when it has asked
the upstream resolver without the lock it looks the reference up again and stores the answer.
Between the two other calls may insert, use, let expire or evict the same reference. The calls are
modelled as a state machine whose steps are the two critical sections and the answer of the upstream
resolver, in any order and with any clock readings (`History`). The map and the list stay in step, a
key is handed out for less than the time to live after it was stored, and a full cache gives up the
entry whose last use is the longest ago (`signing_key_cache`).
-/

namespace LedgerSync

open Lib

/-- `strings.TrimSpace` of a string that need not be UTF-8. -/
def GoString.trimSpace (s : GoString) : GoString :=
  (s.dropWhile fun r => isSpace r.rune).rdropWhile fun r => isSpace r.rune

namespace SigningKeys

/-- `maximumCachedKeyCount`. -/
def maximumCachedKeyCount : ℕ := 128

/-- What a node of the recency list holds; its reference is the key of the node. -/
structure CachedKey where
  value : Bytes
  expiresAt : ℤ

/-- `cached.expiresAt.After(now)`. -/
def CachedKey.live (cached : CachedKey) (now : ℤ) : Bool := now < cached.expiresAt

/-- The map `entries` and the list `recency` of a resolver. -/
abbrev KeyCache : Type := RecencyMap GoString CachedKey

/-- `CachedKeyResolver`: the time to live of a key, and the keys in the order of their last uses. -/
structure CachedKeyResolver where
  ttl : ℤ
  cache : KeyCache

/-- `NewCachedKeyResolver`; the clock and the observer do not bear on what is cached. -/
def newCachedKeyResolver {υ ο : Type} (upstream : Option υ) (ttl : ℤ) (observers : List ο) :
    Except String CachedKeyResolver :=
  if upstream.isNone ∨ ttl ≤ 0 ∨ 15 * 60 * 1000000000 < ttl then
    .error "managed webhook key resolver requires a 1ns..15m cache TTL"
  else if 1 < observers.length then
    .error "managed webhook key resolver accepts at most one observer"
  else .ok ⟨ttl, .empty⟩

/-- `removeLocked`. -/
def KeyCache.removeLocked (m : KeyCache) : Option (Node GoString CachedKey) → KeyCache
  | some element => m.remove element
  | none => m

/-- The lookup that both critical sections begin with: a live entry is used, and one that has
expired is removed. -/
def KeyCache.lookUp (m : KeyCache) (reference : GoString) (now : ℤ) : Option Bytes × KeyCache :=
  match m.node? reference with
  | some element =>
    if element.value.live now then (some element.value.value, m.moveToFront element)
    else (none, KeyCache.removeLocked m (some element))
  | none => (none, m)

/-- What a step of a call comes to. -/
inductive Outcome where
  /-- The reference is empty. -/
  | required
  /-- The upstream resolver is asked. -/
  | asked (reference : GoString)
  | upstreamError
  /-- The upstream resolver has returned a key. -/
  | fetched (reference : GoString)
  | hit (reference : GoString) (key : Bytes)
  | concurrentHit (reference : GoString) (key : Bytes)
  | miss (reference : GoString) (key : Bytes)
deriving DecidableEq

/-- What `Resolve` returns with this outcome, if it returns. -/
def Outcome.result : Outcome → Option (Except String Bytes)
  | .required => some (.error "webhook signing key reference is required")
  | .upstreamError => some (.error "managed webhook signing key is unavailable")
  | .asked _ | .fetched _ => none
  | .hit _ key | .concurrentHit _ key | .miss _ key => some (.ok key)

/-- The reference whose key is handed out, and the key. -/
def Outcome.handsOut : Outcome → Option (GoString × Bytes)
  | .hit reference key | .concurrentHit reference key | .miss reference key => some (reference, key)
  | _ => none

/-- The second critical section. -/
def KeyCache.store (m : KeyCache) (ttl : ℤ) (reference : GoString) (value : Bytes) (now : ℤ) :
    Outcome × KeyCache :=
  match m.lookUp reference now with
  | (some key, m) => (.concurrentHit reference key, m)
  | (none, m) =>
    let m := RecencyMap.sweep (fun cached => !cached.live now) m.order.length m.back m
    let m := if maximumCachedKeyCount ≤ m.size then KeyCache.removeLocked m m.back else m
    (.miss reference value, m.pushFront reference ⟨value, now + ttl⟩)

/-! ## Calls at the same time -/

/-- How far a call is. -/
inductive Phase where
  | idle
  | resolving (reference : GoString)
  | resolved (reference : GoString) (value : Bytes)
  | returned

/-- The resolver and the calls of it. -/
structure World where
  resolver : CachedKeyResolver
  calls : ℕ → Phase

/-- No call has begun. -/
def World.start (resolver : CachedKeyResolver) : World := ⟨resolver, fun _ => .idle⟩

/-- A call leaves the cache as `m` and goes on to a phase. -/
def World.proceed (w : World) (call : ℕ) (phase : Phase) (m : KeyCache) : World :=
  ⟨{ w.resolver with cache := m }, Function.update w.calls call phase⟩

/-- A step of a call: a critical section with its clock reading, or the answer of the upstream
resolver, which is `none` for an error. -/
inductive Event where
  | enter (call : ℕ) (reference : GoString) (now : ℤ)
  | answer (call : ℕ) (value : Option Bytes)
  | store (call : ℕ) (now : ℤ)

/-- The step of an event, if the call is as far. -/
def World.step (w : World) : Event → Option (Outcome × World)
  | .enter call reference now =>
    match w.calls call with
    | .idle =>
      let reference := reference.trimSpace
      if reference = [] then some (.required, w.proceed call .returned w.resolver.cache)
      else match w.resolver.cache.lookUp reference now with
        | (some key, m) => some (.hit reference key, w.proceed call .returned m)
        | (none, m) => some (.asked reference, w.proceed call (.resolving reference) m)
    | _ => none
  | .answer call value =>
    match w.calls call with
    | .resolving reference =>
      match value with
      | some value =>
        if value.length < 32 then some (.upstreamError, w.proceed call .returned w.resolver.cache)
        else some (.fetched reference, w.proceed call (.resolved reference value) w.resolver.cache)
      | none => some (.upstreamError, w.proceed call .returned w.resolver.cache)
    | _ => none
  | .store call now =>
    match w.calls call with
    | .resolved reference value =>
      let (outcome, m) := w.resolver.cache.store w.resolver.ttl reference value now
      some (outcome, w.proceed call .returned m)
    | _ => none

/-- The steps that have been taken, with what they came to, and where they have led. -/
inductive History (resolver : CachedKeyResolver) : List (Event × Outcome) → World → Prop where
  | start : History resolver [] (World.start resolver)
  | step {t w event outcome w'} : History resolver t w → w.step event = some (outcome, w') →
      History resolver (t ++ [(event, outcome)]) w'

/-! ## What a history tells -/

/-- The call was made with a reference that is `reference` when it is trimmed. -/
def Entered (t : List (Event × Outcome)) (call : ℕ) (reference : GoString) : Prop :=
  ∃ raw now outcome, (.enter call raw now, outcome) ∈ t ∧ raw.trimSpace = reference

/-- The call asked the upstream resolver for the key of the reference and was given it. -/
structure Fetched (t : List (Event × Outcome)) (call : ℕ) (reference : GoString) (key : Bytes) :
    Prop where
  entered : Entered t call reference
  answered : (.answer call (some key), .fetched reference) ∈ t
  length : 32 ≤ key.length

/-- The call stored the key that it was given at this clock reading. -/
structure StoredAt (t : List (Event × Outcome)) (call : ℕ) (reference : GoString) (key : Bytes)
    (now : ℤ) : Prop where
  fetched : Fetched t call reference key
  stored : (.store call now, .miss reference key) ∈ t

/-- The references whose keys have been handed out, one after another. -/
def uses (t : List (Event × Outcome)) : List GoString :=
  t.filterMap fun x => x.2.handsOut.map Prod.fst

/-- The call of a critical section and its clock reading. -/
def Event.reading : Event → Option (ℕ × ℤ)
  | .enter call _ now | .store call now => some (call, now)
  | .answer _ _ => none

/-- What a step promises behind the history `t`. -/
structure KeyStep (ttl : ℤ) (t : List (Event × Outcome)) (w : World) (event : Event)
    (outcome : Outcome) (w' : World) : Prop where
  /-- A key that is handed out was fetched for the same reference and stored less than the time to
  live before, or just now. -/
  handedOut : ∀ reference key, outcome.handsOut = some (reference, key) →
    ∃ call now, event.reading = some (call, now) ∧
      Entered (t ++ [(event, outcome)]) call reference ∧
      ∃ other stored, StoredAt (t ++ [(event, outcome)]) other reference key stored ∧
        now - stored < ttl
  /-- The answer of the upstream resolver leaves every entry as it is, and an error or a short key
  ends the call. -/
  answered : ∀ call value, event = .answer call value → w'.resolver = w.resolver ∧
    ((∀ key, value = some key → key.length < 32) →
      outcome = .upstreamError ∧ w'.calls call = .returned)
  /-- A call that goes to the upstream resolver removes at most the entry of its own reference, and
  this one has expired. -/
  asked : ∀ reference, outcome = .asked reference → ∃ call raw now, event = .enter call raw now ∧
    w'.resolver.cache.order = w.resolver.cache.order.filter (fun e => e.key ≠ reference) ∧
      ∀ e ∈ w.resolver.cache.order, e.key = reference → e.value.expiresAt ≤ now
  /-- A key that is stored comes in front of the live entries, of which a full cache gives up the
  one whose last use is the longest ago. -/
  stored : ∀ reference key, outcome = .miss reference key → ∃ call now, event = .store call now ∧
    ∃ live, live = w.resolver.cache.order.filter (fun e => e.value.live now) ∧
      ∃ new kept, w'.resolver.cache.order = new :: kept ∧ new.key = reference ∧
        new.value = ⟨key, now + ttl⟩ ∧
          (live.length < maximumCachedKeyCount ∧ kept = live ∨
            maximumCachedKeyCount ≤ live.length ∧ ∃ oldest, live = kept ++ [oldest] ∧
              ∀ e ∈ kept, RecencyMap.UsedBefore (uses t) oldest.key e.key)

/-! ## The critical sections -/

section Sections

variable {m : KeyCache} {reference : GoString} {now ttl : ℤ} {value : Bytes}

/-- The lookup uses a live entry of the reference, or there is none and the reference is left
without an entry. -/
theorem lookUp_cases (h : m.InStep) : (m.lookUp reference now).2.InStep ∧
    ((∃ e ∈ m.order, e.key = reference ∧ now < e.value.expiresAt ∧
      (m.lookUp reference now).1 = some e.value.value ∧
        (m.lookUp reference now).2.order = e :: m.order.filter fun x => x.key ≠ reference) ∨
    (m.lookUp reference now).1 = none ∧
      (m.lookUp reference now).2.order = m.order.filter (fun x => x.key ≠ reference) ∧
        ∀ e ∈ m.order, e.key = reference → e.value.expiresAt ≤ now) := by
  unfold KeyCache.lookUp
  -- The node of the reference is absent, live or expired.
  cases hnode : m.node? reference with
  | none =>
    have habsent := h.node?_eq_none.mp hnode
    have hne : ∀ e ∈ m.order, e.key ≠ reference := fun e he hkey =>
      habsent (hkey ▸ List.mem_map_of_mem he)
    refine ⟨h, .inr ⟨rfl, ?_, fun e he hkey => absurd hkey (hne e he)⟩⟩
    exact (List.filter_eq_self.mpr fun e he => decide_eq_true (hne e he)).symm
  | some e =>
    obtain ⟨he, hkey⟩ := h.node?_eq_some.mp hnode
    simp only
    by_cases hlive : e.value.live now = true
    · rw [if_pos hlive]
      refine ⟨h.moveToFront he, .inl ⟨e, he, hkey, of_decide_eq_true hlive, rfl, ?_⟩⟩
      rw [← hkey]
      exact h.order_moveToFront he
    -- An expired node is removed, and the lookup misses.
    · rw [if_neg hlive]
      refine ⟨h.remove he, .inr ⟨rfl, ?_, fun x hx hxkey => ?_⟩⟩
      · rw [← hkey]
        exact h.order_remove he
      · have hnot : ¬now < e.value.expiresAt := fun hlt => hlive (decide_eq_true hlt)
        rw [h.eq_of_key he hx (hxkey.trans hkey.symm)]
        exact not_lt.mp hnot

/-- A full list gives up its last node. -/
theorem makeRoom (h : m.InStep) (hsize : m.order.length ≤ maximumCachedKeyCount) :
    (if maximumCachedKeyCount ≤ m.size then KeyCache.removeLocked m m.back else m).InStep ∧
      ∃ kept, (if maximumCachedKeyCount ≤ m.size then KeyCache.removeLocked m m.back else m).order =
        kept ∧
        kept.length < maximumCachedKeyCount ∧
          (m.order.length < maximumCachedKeyCount ∧ kept = m.order ∨
            maximumCachedKeyCount ≤ m.order.length ∧ ∃ oldest, m.order = kept ++ [oldest]) := by
  rw [h.size_eq]
  -- A full cache drops the entry at its back, which is the oldest.
  by_cases hfull : maximumCachedKeyCount ≤ m.order.length
  · have hne : m.order ≠ [] := by
      intro hnil
      rw [hnil] at hfull
      exact absurd hfull (by decide)
    obtain ⟨kept, oldest, hsplit⟩ := List.eq_nil_or_concat m.order |>.resolve_left hne
    have hback : m.back = some oldest := by
      unfold RecencyMap.back
      rw [hsplit, List.concat_eq_append, List.getLast?_concat]
    rw [List.concat_eq_append] at hsplit
    have hmem : oldest ∈ m.order := by rw [hsplit]; simp
    -- The keys are distinct, so that only this entry goes.
    have hkept : (m.remove oldest).order = kept := by
      rw [h.order_remove hmem, h.filter_key hsplit, List.append_nil]
    have hlength : m.order.length = kept.length + 1 := by rw [hsplit]; simp
    rw [if_pos hfull, hback]
    exact ⟨h.remove hmem, kept, hkept, by omega, .inr ⟨hfull, oldest, hsplit⟩⟩
  · rw [if_neg hfull]
    exact ⟨h, m.order, rfl, by omega, .inl ⟨by omega, rfl⟩⟩

/-- The second critical section uses a live entry that has come in between, or it stores the key. -/
theorem store_cases (h : m.InStep) (hsize : m.order.length ≤ maximumCachedKeyCount) :
    (m.store ttl reference value now).2.InStep ∧
    ((∃ e ∈ m.order, e.key = reference ∧ now < e.value.expiresAt ∧
      (m.store ttl reference value now).1 = .concurrentHit reference e.value.value ∧
        (m.store ttl reference value now).2.order =
          e :: m.order.filter fun x => x.key ≠ reference) ∨
    (m.store ttl reference value now).1 = .miss reference value ∧
      ∃ live, live = m.order.filter (fun e => e.value.live now) ∧ (∀ e ∈ live, e.key ≠ reference) ∧
        ∃ id kept, (m.store ttl reference value now).2.order =
            ⟨id, reference, ⟨value, now + ttl⟩⟩ :: kept ∧
          kept.length < maximumCachedKeyCount ∧
            (live.length < maximumCachedKeyCount ∧ kept = live ∨
              maximumCachedKeyCount ≤ live.length ∧ ∃ oldest, live = kept ++ [oldest])) := by
  obtain ⟨hin, hcases⟩ := @lookUp_cases m reference now h
  unfold KeyCache.store
  generalize m.lookUp reference now = found at hin hcases ⊢
  obtain ⟨key, m₁⟩ := found
  rcases hcases with ⟨e, he, hkey, hlive, hfound, horder⟩ | ⟨hfound, horder, hexpired⟩
  · have hfound : key = some e.value.value := hfound
    subst hfound
    exact ⟨hin, .inl ⟨e, he, hkey, hlive, rfl, horder⟩⟩
  · have hfound : key = none := hfound
    subst hfound
    have horder : m₁.order = m.order.filter fun x => x.key ≠ reference := horder
    -- What is left of the list when the expired nodes are gone.
    obtain ⟨hin₂, horder₂⟩ := @RecencyMap.sweep_back _ _ _ _ (fun cached => !cached.live now) hin
    dsimp only
    generalize RecencyMap.sweep (fun cached : CachedKey => !cached.live now) m₁.order.length m₁.back
      m₁ = m₂ at hin₂ horder₂ ⊢
    have hlive : m₂.order = m.order.filter fun e => e.value.live now := by
      rw [horder₂, horder, List.filter_filter]
      refine List.filter_congr fun e he => ?_
      have himp : e.value.live now = true → e.key ≠ reference := by
        intro hlive hkey
        exact absurd (of_decide_eq_true hlive) (not_lt.mpr (hexpired e he hkey))
      cases hlive : e.value.live now with
      | false => rfl
      | true => simp [himp hlive]
    have hother : ∀ e ∈ m₂.order, e.key ≠ reference := by
      intro e he
      have hmem := (horder₂ ▸ he : e ∈ m₁.order.filter _)
      have hmem₁ := (List.mem_filter.mp hmem).1
      rw [horder] at hmem₁
      exact of_decide_eq_true (List.mem_filter.mp hmem₁).2
    have hlength : m₂.order.length ≤ maximumCachedKeyCount := by
      rw [hlive]
      exact (List.length_filter_le _ _).trans hsize
    obtain ⟨hin₃, kept, hkept, hroom, hgiven⟩ := makeRoom hin₂ hlength
    generalize (if maximumCachedKeyCount ≤ m₂.size then KeyCache.removeLocked m₂ m₂.back else m₂) =
      m₃ at hin₃ hkept ⊢
    have habsent : reference ∉ m₃.order.map Node.key := by
      intro hmem
      obtain ⟨e, he, hkey⟩ := List.mem_map.mp hmem
      refine hother e ?_ hkey
      rw [hkept] at he
      rcases hgiven with ⟨-, rfl⟩ | ⟨-, oldest, hsplit⟩
      · exact he
      · rw [hsplit]
        exact List.mem_append_left _ he
    refine ⟨hin₃.pushFront habsent, .inr ⟨rfl, m₂.order, hlive, hother, m₃.next, kept, ?_, hroom,
      hgiven⟩⟩
    rw [← hkept]
    rfl

end Sections

/-! ## Invariants of a history -/

section Histories

variable {resolver : CachedKeyResolver} {t : List (Event × Outcome)} {w w' : World} {event : Event}
  {outcome : Outcome} {call : ℕ} {reference : GoString} {key : Bytes} {now : ℤ}

/-- A call that entered is one of the longer history. -/
theorem Entered.snoc (h : Entered t call reference) (x : Event × Outcome) :
    Entered (t ++ [x]) call reference := by
  obtain ⟨raw, now, outcome, hmem, htrim⟩ := h
  exact ⟨raw, now, outcome, List.mem_append_left _ hmem, htrim⟩

/-- A key that was fetched is one of the longer history. -/
theorem Fetched.snoc (h : Fetched t call reference key) (x : Event × Outcome) :
    Fetched (t ++ [x]) call reference key :=
  ⟨h.entered.snoc x, List.mem_append_left _ h.answered, h.length⟩

/-- A key that was stored is one of the longer history. -/
theorem StoredAt.snoc (h : StoredAt t call reference key now) (x : Event × Outcome) :
    StoredAt (t ++ [x]) call reference key now :=
  ⟨h.fetched.snoc x, List.mem_append_left _ h.stored⟩

/-- The history has fetched and stored what the cache holds, and it has brought each call to where
the call is. -/
structure Explained (ttl : ℤ) (t : List (Event × Outcome)) (w : World) : Prop where
  timeToLive : w.resolver.ttl = ttl
  inStep : w.resolver.cache.InStep
  bound : w.resolver.cache.order.length ≤ maximumCachedKeyCount
  recent : RecencyMap.ByLastUse (uses t) w.resolver.cache.order
  cached : ∀ e ∈ w.resolver.cache.order, ∃ call stored,
    StoredAt t call e.key e.value.value stored ∧ e.value.expiresAt = stored + ttl
  resolving : ∀ call reference, w.calls call = .resolving reference → Entered t call reference
  resolved : ∀ call reference value, w.calls call = .resolved reference value →
    Fetched t call reference value

/-- What a call has to show for the phase that it goes on to. -/
def Phase.ExplainedBy (t : List (Event × Outcome)) (call : ℕ) : Phase → Prop
  | .resolving reference => Entered t call reference
  | .resolved reference value => Fetched t call reference value
  | .idle | .returned => True

/-- At first nothing needs to be explained. -/
theorem explained_start {ttl : ℤ} : Explained ttl [] (World.start ⟨ttl, .empty⟩) where
  timeToLive := rfl
  inStep := RecencyMap.inStep_empty
  bound := Nat.zero_le _
  recent := List.Pairwise.nil
  cached := fun _ he => absurd he List.not_mem_nil
  resolving := nofun
  resolved := nofun

/-- What is cached stays explained when nodes are only moved or removed and a call goes on. -/
theorem Explained.proceed {ttl : ℤ} (h : Explained ttl t w) {phase : Phase} {m : KeyCache}
    {x : Event × Outcome} (hphase : phase.ExplainedBy (t ++ [x]) call) (hin : m.InStep)
    (hbound : m.order.length ≤ maximumCachedKeyCount)
    (hrecent : RecencyMap.ByLastUse (uses (t ++ [x])) m.order)
    (hcached : ∀ e ∈ m.order, e ∈ w.resolver.cache.order ∨ ∃ call stored,
      StoredAt (t ++ [x]) call e.key e.value.value stored ∧ e.value.expiresAt = stored + ttl) :
    Explained ttl (t ++ [x]) (w.proceed call phase m) where
  timeToLive := h.timeToLive
  inStep := hin
  bound := hbound
  recent := hrecent
  cached := by
    intro e he
    rcases hcached e he with hold | hnew
    · obtain ⟨call, stored, hstored, hexpires⟩ := h.cached e hold
      exact ⟨call, stored, hstored.snoc x, hexpires⟩
    · exact hnew
  resolving := by
    -- Only the phase of this call has changed; the other ones keep their evidence.
    intro other reference hother
    have hother : Function.update w.calls call phase other = .resolving reference := hother
    by_cases heq : other = call
    · subst heq
      rw [Function.update_self] at hother
      subst hother
      exact hphase
    · rw [Function.update_of_ne heq] at hother
      exact (h.resolving other reference hother).snoc x
  resolved := by
    intro other reference value hother
    have hother : Function.update w.calls call phase other = .resolved reference value := hother
    by_cases heq : other = call
    · subst heq
      rw [Function.update_self] at hother
      subst hother
      exact hphase
    · rw [Function.update_of_ne heq] at hother
      exact (h.resolved other reference value hother).snoc x

/-- A step that uses no entry adds no use. -/
theorem uses_snoc_none (h : outcome.handsOut = none) : uses (t ++ [(event, outcome)]) = uses t := by
  unfold uses
  rw [List.filterMap_append, List.filterMap_cons_none (by rw [h]; rfl), List.filterMap_nil,
    List.append_nil]

/-- A key that is handed out is a use of its reference. -/
theorem uses_snoc_some (h : outcome.handsOut = some (reference, key)) :
    uses (t ++ [(event, outcome)]) = uses t ++ [reference] := by
  unfold uses
  rw [List.filterMap_append, List.filterMap_cons_some (show _ = some reference by rw [h]; rfl),
    List.filterMap_nil]

/-- A call that uses a live entry moves it to the front and returns its key. -/
theorem Explained.use {ttl : ℤ} (h : Explained ttl t w) {m : KeyCache} {e : Node GoString CachedKey}
    (he : e ∈ w.resolver.cache.order) (hin : m.InStep)
    (horder : m.order = e :: w.resolver.cache.order.filter fun x => x.key ≠ e.key)
    (hused : outcome.handsOut = some (e.key, key)) :
    Explained ttl (t ++ [(event, outcome)]) (w.proceed call .returned m) := by
  have hperm := h.inStep.perm_moveToFront he
  rw [h.inStep.order_moveToFront he, ← horder] at hperm
  refine h.proceed trivial hin (hperm.length_eq.trans_le h.bound) ?_
    fun x hx => .inl (hperm.mem_iff.mp hx)
  rw [uses_snoc_some hused, horder]
  refine RecencyMap.ByLastUse.use (h.recent.filter _) fun x hx => ?_
  exact of_decide_eq_true (List.mem_filter.mp hx).2

/-- A key whose entry is live was stored less than the time to live ago. -/
theorem Explained.fresh {ttl : ℤ} (h : Explained ttl t w) {e : Node GoString CachedKey}
    (he : e ∈ w.resolver.cache.order) (hlive : now < e.value.expiresAt) (x : Event × Outcome) :
    ∃ other stored, StoredAt (t ++ [x]) other e.key e.value.value stored ∧ now - stored < ttl := by
  obtain ⟨other, stored, hstored, hexpires⟩ := h.cached e he
  exact ⟨other, stored, hstored.snoc x, by omega⟩

/-- The first critical section. -/
theorem step_enter {ttl : ℤ} (h : Explained ttl t w) {raw : GoString}
    (hstep : w.step (.enter call raw now) = some (outcome, w')) :
    Explained ttl (t ++ [(.enter call raw now, outcome)]) w' ∧
      KeyStep ttl t w (.enter call raw now) outcome w' := by
  simp only [World.step] at hstep
  split at hstep
  next hidle =>
    split at hstep
    -- A blank reference ends the call before the lookup.
    next hempty =>
      obtain ⟨rfl, rfl⟩ := Prod.mk.inj (Option.some.inj hstep)
      refine ⟨h.proceed trivial h.inStep h.bound ?_ fun e he => .inl he, ?_⟩
      · rw [uses_snoc_none rfl]
        exact h.recent
      · exact ⟨nofun, nofun, nofun, nofun⟩
    next hsome =>
      obtain ⟨hin, hcases⟩ := @lookUp_cases _ raw.trimSpace now h.inStep
      generalize w.resolver.cache.lookUp raw.trimSpace now = found at hin hcases hstep
      obtain ⟨key, m⟩ := found
      have hentered : ∀ outcome,
          Entered (t ++ [(.enter call raw now, outcome)]) call raw.trimSpace :=
        fun outcome => ⟨raw, now, outcome, List.mem_append_right _ (List.mem_singleton_self _), rfl⟩
      -- A hit is a use and moves its entry to the front; a miss asks the vault.
      rcases hcases with ⟨e, he, hkey, hlive, hfound, horder⟩ | ⟨hfound, horder, hexpired⟩
      · have hfound : key = some e.value.value := hfound
        subst hfound
        obtain ⟨rfl, rfl⟩ := Prod.mk.inj (Option.some.inj hstep)
        rw [← hkey] at horder ⊢
        refine ⟨h.use he hin horder rfl, ?_, nofun, nofun, nofun⟩
        intro reference value hout
        obtain ⟨rfl, rfl⟩ := Prod.mk.inj (Option.some.inj hout)
        exact ⟨call, now, rfl, hkey ▸ hentered _, h.fresh he hlive _⟩
      · have hfound : key = none := hfound
        subst hfound
        obtain ⟨rfl, rfl⟩ := Prod.mk.inj (Option.some.inj hstep)
        have horder : m.order = w.resolver.cache.order.filter fun x => x.key ≠ raw.trimSpace :=
          horder
        refine ⟨h.proceed (hentered _) hin ?_ ?_ fun e he => .inl ?_, nofun, nofun, ?_, nofun⟩
        -- A miss removes at most one entry, so that the bound and the order stay.
        · rw [horder]
          exact (List.length_filter_le _ _).trans h.bound
        · rw [uses_snoc_none rfl, horder]
          exact h.recent.filter _
        · rw [horder] at he
          exact (List.mem_filter.mp he).1
        · intro reference hasked
          obtain rfl := Outcome.asked.inj hasked
          exact ⟨call, raw, now, rfl, horder, hexpired⟩
  next => cases hstep

/-- The upstream resolver answers. -/
theorem step_answer {ttl : ℤ} (h : Explained ttl t w) {value : Option Bytes}
    (hstep : w.step (.answer call value) = some (outcome, w')) :
    Explained ttl (t ++ [(.answer call value, outcome)]) w' ∧
      KeyStep ttl t w (.answer call value) outcome w' := by
  -- The cache is untouched here, so that only the phase needs an explanation.
  have hkeep : ∀ {phase : Phase} {outcome : Outcome}, outcome.handsOut = none →
      phase.ExplainedBy (t ++ [(.answer call value, outcome)]) call →
        Explained ttl (t ++ [(.answer call value, outcome)])
          (w.proceed call phase w.resolver.cache) := by
    intro phase outcome hout hphase
    refine h.proceed hphase h.inStep h.bound ?_ fun e he => .inl he
    rw [uses_snoc_none hout]
    exact h.recent
  simp only [World.step] at hstep
  split at hstep
  next reference hresolving =>
    split at hstep
    next key =>
      split at hstep
      -- A key that is too short is refused.
      next hshort =>
        obtain ⟨rfl, rfl⟩ := Prod.mk.inj (Option.some.inj hstep)
        refine ⟨hkeep rfl trivial, nofun, ?_, nofun, nofun⟩
        rintro _ _ ⟨⟩
        exact ⟨rfl, fun _ => ⟨rfl, Function.update_self ..⟩⟩
      next hlong =>
        obtain ⟨rfl, rfl⟩ := Prod.mk.inj (Option.some.inj hstep)
        refine ⟨hkeep rfl ⟨(h.resolving call reference hresolving).snoc _, ?_, not_lt.mp hlong⟩,
          nofun, ?_, nofun, nofun⟩
        · exact List.mem_append_right _ (List.mem_singleton_self _)
        · rintro _ _ ⟨⟩
          exact ⟨rfl, fun hshort => absurd (hshort key rfl) hlong⟩
    -- The vault had no key.
    next =>
      obtain ⟨rfl, rfl⟩ := Prod.mk.inj (Option.some.inj hstep)
      refine ⟨hkeep rfl trivial, nofun, ?_, nofun, nofun⟩
      rintro _ _ ⟨⟩
      exact ⟨rfl, fun _ => ⟨rfl, Function.update_self ..⟩⟩
  next => cases hstep

/-- The second critical section. -/
theorem step_store {ttl : ℤ} (hpos : 0 < ttl) (h : Explained ttl t w)
    (hstep : w.step (.store call now) = some (outcome, w')) :
    Explained ttl (t ++ [(.store call now, outcome)]) w' ∧
      KeyStep ttl t w (.store call now) outcome w' := by
  simp only [World.step] at hstep
  split at hstep
  next reference value hresolved =>
    have hfetched := h.resolved call reference value hresolved
    obtain ⟨hin, hcases⟩ := @store_cases _ reference now w.resolver.ttl value h.inStep h.bound
    generalize w.resolver.cache.store w.resolver.ttl reference value now = result
      at hin hcases hstep
    obtain ⟨done, m⟩ := result
    obtain ⟨rfl, rfl⟩ := Prod.mk.inj (Option.some.inj hstep)
    -- Another call stored the key meanwhile, or this one stores it.
    rcases hcases with ⟨e, he, rfl, hlive, hdone, horder⟩ |
      ⟨hdone, live, hlive, hother, id, kept, horder, hroom, hgiven⟩
    · have hdone : done = .concurrentHit e.key e.value.value := hdone
      subst hdone
      refine ⟨h.use he hin horder rfl, ?_, nofun, nofun, nofun⟩
      intro other key hout
      obtain ⟨rfl, rfl⟩ := Prod.mk.inj (Option.some.inj hout)
      exact ⟨call, now, rfl, hfetched.entered.snoc _, h.fresh he hlive _⟩
    · have hdone : done = .miss reference value := hdone
      subst hdone
      have horder : m.order = ⟨id, reference, ⟨value, now + w.resolver.ttl⟩⟩ :: kept := horder
      have hstored : StoredAt (t ++ [(.store call now, .miss reference value)]) call reference value
          now := ⟨hfetched.snoc _, List.mem_append_right _ (List.mem_singleton_self _)⟩
      -- What is kept of the live entries is all of them or all but the oldest.
      have hshorter : kept.Sublist live := by
        rcases hgiven with ⟨-, rfl⟩ | ⟨-, oldest, rfl⟩
        · exact List.Sublist.refl _
        · exact List.sublist_append_left _ _
      have hsub : kept.Sublist w.resolver.cache.order := by
        rw [hlive] at hshorter
        exact hshorter.trans List.filter_sublist
      refine ⟨h.proceed trivial hin ?_ ?_ ?_, ?_, nofun, nofun, ?_⟩
      -- The new entry is used last of all, and the kept ones keep their order.
      · rw [horder]
        exact hroom
      · rw [uses_snoc_some rfl, horder]
        have hnew : ∀ x ∈ kept, x.key ≠ reference := fun x hx => hother x (hshorter.subset hx)
        exact @RecencyMap.ByLastUse.use _ _ ⟨id, reference, ⟨value, now + w.resolver.ttl⟩⟩ _ _
          (h.recent.sublist hsub) hnew
      · intro e he
        rw [horder] at he
        rcases List.mem_cons.mp he with rfl | he
        · exact .inr ⟨call, now, hstored, by rw [h.timeToLive]⟩
        · exact .inl (hsub.subset he)
      · intro other key hout
        obtain ⟨rfl, rfl⟩ := Prod.mk.inj (Option.some.inj hout)
        refine ⟨call, now, rfl, hstored.fetched.entered, call, now, hstored, ?_⟩
        rw [sub_self]
        exact hpos
      -- The dropped entry was used before every other live one.
      · intro other key hmiss
        obtain ⟨rfl, rfl⟩ := Outcome.miss.inj hmiss
        refine ⟨call, now, rfl, live, hlive, _, kept, horder, rfl, by rw [h.timeToLive], ?_⟩
        rcases hgiven with hless | ⟨hfull, oldest, hsplit⟩
        · exact .inl hless
        · refine .inr ⟨hfull, oldest, hsplit, fun e he => ?_⟩
          have hrecent : RecencyMap.ByLastUse (uses t) live := by
            rw [hlive]
            exact h.recent.filter _
          rw [hsplit] at hrecent
          exact (List.pairwise_append.mp hrecent).2.2 e he oldest (List.mem_singleton_self _)
  next => cases hstep

/-- Every history explains where it has led. -/
theorem explained_of_history {ttl : ℤ} (hpos : 0 < ttl) (h : History ⟨ttl, .empty⟩ t w) :
    Explained ttl t w := by
  induction h with
  | start => exact explained_start
  | @step t w event outcome w' _ hstep ih =>
    cases event with
    | enter call raw now => exact (step_enter ih hstep).1
    | answer call value => exact (step_answer ih hstep).1
    | store call now => exact (step_store hpos ih hstep).1

end Histories

/-- A resolver begins with an empty cache and a time to live that is positive. -/
theorem newCachedKeyResolver_ok {υ ο : Type} {upstream : Option υ} {ttl : ℤ} {observers : List ο}
    {resolver : CachedKeyResolver}
    (h : newCachedKeyResolver upstream ttl observers = .ok resolver) :
    resolver = ⟨ttl, .empty⟩ ∧ 0 < ttl := by
  unfold newCachedKeyResolver at h
  split at h
  · cases h
  · next haccepted =>
    split at h
    · cases h
    · obtain rfl := Except.ok.inj h
      exact ⟨rfl, not_le.mp fun hle => haccepted (.inr (.inl hle))⟩

/-- **The signing key cache.** However the critical sections of the calls follow one another, the
map and the recency list hold the same references, each once and at most 128 of them, and the list
is in the order of their last uses. Every step keeps the promises of `KeyStep`: about the age and
the origin of a key that is handed out, about a failure of the upstream resolver, and about what is
given up when a key is stored. -/
theorem signing_key_cache {υ ο : Type} {upstream : Option υ} {ttl : ℤ} {observers : List ο}
    {resolver : CachedKeyResolver} {t : List (Event × Outcome)} {w : World}
    (hnew : newCachedKeyResolver upstream ttl observers = .ok resolver)
    (hrun : History resolver t w) :
    w.resolver.cache.InStep ∧ (w.resolver.cache.order.map Node.key).Nodup ∧
      w.resolver.cache.size ≤ 128 ∧ RecencyMap.ByLastUse (uses t) w.resolver.cache.order ∧
        ∀ event outcome w', w.step event = some (outcome, w') →
          KeyStep ttl t w event outcome w' := by
  obtain ⟨rfl, hpos⟩ := newCachedKeyResolver_ok hnew
  have h := explained_of_history hpos hrun
  refine ⟨h.inStep, h.inStep.nodup_keys, h.inStep.size_eq.trans_le h.bound, h.recent, ?_⟩
  intro event outcome w' hstep
  cases event with
  | enter call raw now => exact (step_enter h hstep).2
  | answer call value => exact (step_answer h hstep).2
  | store call now => exact (step_store hpos h hstep).2

/-- A key of the least length. -/
def sampleKey : Bytes := List.replicate 32 7

/-- Call 1 is given the key that call 0 has fetched and stored. -/
theorem signing_key_cache_sample : ∃ resolver t w w',
    newCachedKeyResolver (some ()) 60 ([] : List Unit) = .ok resolver ∧ History resolver t w ∧
      w.step (.enter 1 [.char ' ', .char 'k'] 59) = some (.hit [.char 'k'] sampleKey, w') ∧
        KeyStep 60 t w (.enter 1 [.char ' ', .char 'k'] 59) (.hit [.char 'k'] sampleKey) w' := by
  have hnew : newCachedKeyResolver (some ()) 60 ([] : List Unit) = .ok ⟨60, .empty⟩ := rfl
  have hstart := @History.start ⟨60, .empty⟩
  have hentered := @History.step _ _ _ (.enter 0 [.char 'k'] 0) _ _ hstart rfl
  have hanswered := @History.step _ _ _ (.answer 0 (some sampleKey)) _ _ hentered rfl
  have hstored := @History.step _ _ _ (.store 0 0) _ _ hanswered rfl
  exact ⟨_, _, _, _, hnew, hstored, rfl, (signing_key_cache hnew hstored).2.2.2.2 _ _ _ rfl⟩

end SigningKeys

end LedgerSync
