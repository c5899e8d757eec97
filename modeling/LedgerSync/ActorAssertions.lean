import LedgerSync.Lib.SingleUse
import LedgerSync.Lib.Table
import LedgerSync.ServiceValues
import Mathlib

/-!
# Assertions of the actor behind a request

The browser's backend calls the private API with a credential of its own and says for whom it acts
in a signed assertion, which the API accepts once. A verified assertion is good from its issue to
its expiry, each within the clock skew, and the replay guard remembers its id up to the expiry. The
guard in memory goes by that expiry alone; the guard in the database also refuses an assertion that
has expired.
-/

namespace LedgerSync

open Lib

/-! ## Principals -/

/-- `Principal`. The zero time stands for a principal without authentication evidence. -/
structure Principal where
  subjectId : String
  tenantId : String
  roles : Finset String
  scopes : Finset String
  authenticatedAt : Time
deriving DecidableEq

/-- `Principal.HasScope`. -/
def Principal.hasScope (p : Principal) (scope : String) : Bool := scope ∈ p.scopes

/-- `BFFActorScope`. -/
def bffActorScope : String := "bff:act-as-user"

/-- `allowedRoles`. -/
def allowedRoles : List String := ["tenant:operator", "tenant:admin"]

/-- `allowedScopes`. -/
def allowedScopes : List String :=
  ["accounts:read", "accounts:write", "transfers:read", "transfers:write", "transactions:read",
    "reconciliation:read", "reconciliation:write", "local:read", "local:write", "events:read",
    "investigation:read", "investigation:write", "investigation:collaborate", "developer:read",
    "credentials:read", "credentials:write", "webhooks:read", "webhooks:write", "webhooks:replay",
    "recovery:read", "exports:read", "explainability:read", "audit:read", "funding:read",
    "funding:write", "funding:approve", "corrections:read", "corrections:write",
    "corrections:approve", bffActorScope]

/-- `allAllowed`. -/
def allAllowed (values allowed : List String) : Bool := values.all fun v => v ≠ "" ∧ v ∈ allowed

/-- `allowedSet`. -/
def allowedSet (values allowed : List String) : Finset String :=
  (values.filter (· ∈ allowed)).toFinset

/-! ## Configuration -/

/-- `ActorAssertionKey`. -/
structure ActorAssertionKey where
  id : String
  secret : Bytes
deriving DecidableEq

/-- `ActorAssertionConfig`, without the replay guard, which is the state of the authenticator. -/
structure ActorAssertionConfig where
  issuer : String
  audience : String
  currentKey : ActorAssertionKey
  previousKey : Option ActorAssertionKey
  maxLifetime : ℤ
  clockSkew : ℤ
deriving DecidableEq

/-- `NewRequestAuthenticatorWithConfig`, for a provider and a guard that are not nil: the
configuration of the authenticator. -/
def newRequestAuthenticatorWithConfig (config : ActorAssertionConfig) :
    Option ActorAssertionConfig :=
  let config := { config with
    issuer := trimSpace config.issuer
    audience := trimSpace config.audience
    currentKey := { config.currentKey with id := trimSpace config.currentKey.id } }
  if config.issuer = "" ∨ config.audience = "" ∨ config.currentKey.id = "" ∨
      config.currentKey.secret.length < 32 then none
  else if config.previousKey.any (fun key => trimSpace key.id = "" ∨ key.secret.length < 32 ∨
      key.id = config.currentKey.id) = true then none
  else if config.maxLifetime ≤ 0 ∨ config.maxLifetime > 120 * second ∨ config.clockSkew < 0 ∨
      config.clockSkew > 30 * second then none
  else some config

/-- `assertionKey`. -/
def assertionKey (config : ActorAssertionConfig) (keyId : String) : Option Bytes :=
  if keyId = config.currentKey.id then some config.currentKey.secret
  else (config.previousKey.filter (keyId = ·.id)).map (·.secret)

/-! ## Verification -/

/-- `actorAssertionPayload`. -/
structure ActorAssertionPayload where
  issuer : String
  audience : String
  keyId : String
  assertionId : String
  subjectId : String
  tenantId : String
  roles : List String
  scopes : List String
  issuedAt : Bigint
  expiresAt : Bigint
  authenticatedAt : Bigint

/-- The encodings and the message authentication code that assertions are made of. -/
structure AssertionCodec where
  /-- `base64.RawURLEncoding.DecodeString`. -/
  rawUrlDecode : String → Option Bytes
  /-- `json.Unmarshal` into a payload. -/
  unmarshal : Bytes → Option ActorAssertionPayload
  /-- The HMAC with SHA-256 under a key. -/
  hmacSha256 : Bytes → Bytes → Bytes

/-- The checks of `verifyActorAssertion` on the fields of a signed payload. The lifetime is computed
in nanoseconds of 64 bits. -/
def ActorAssertionPayload.Valid (payload : ActorAssertionPayload) (config : ActorAssertionConfig)
    (now : Time) : Prop :=
  trimSpace payload.subjectId ≠ "" ∧ trimSpace payload.tenantId ≠ "" ∧
    trimSpace payload.assertionId ≠ "" ∧ payload.assertionId.utf8ByteSize ≤ 128 ∧
    payload.issuer = config.issuer ∧ payload.audience = config.audience ∧
    payload.issuedAt ≤ int64 (now.unix + durationSeconds config.clockSkew) ∧
    int64 (now.unix - durationSeconds config.clockSkew) < payload.expiresAt ∧
    (payload.issuedAt : ℤ) < payload.expiresAt ∧
    payload.authenticatedAt ≤ int64 (now.unix + durationSeconds config.clockSkew) ∧
    int64 (int64 (payload.expiresAt - payload.issuedAt) * second) ≤ config.maxLifetime ∧
    payload.roles.length ≤ 16 ∧ payload.scopes.length ≤ 32

/-- Whether a payload is valid can be decided. -/
instance (payload : ActorAssertionPayload) (config : ActorAssertionConfig) (now : Time) :
    Decidable (payload.Valid config now) :=
  inferInstanceAs (Decidable (_ ∧ _ ∧ _ ∧ _ ∧ _ ∧ _ ∧ _ ∧ _ ∧ _ ∧ _ ∧ _ ∧ _ ∧ _))

variable (codec : AssertionCodec) (config : ActorAssertionConfig)

/-- `verifyActorAssertion`. -/
def verifyActorAssertion (raw : String) (now : Time) : Option ActorAssertionPayload :=
  match (raw.toList.splitOn '.').map String.ofList with
  | [body, signature] =>
    if body.utf8ByteSize > 8 * 1024 ∨ signature.utf8ByteSize > 1024 then none
    else do
      let payloadBytes ← codec.rawUrlDecode body
      let payload ← codec.unmarshal payloadBytes
      let key ← assertionKey config payload.keyId
      let signature ← codec.rawUrlDecode signature
      if signature = codec.hmacSha256 key payloadBytes ∧ payload.Valid config now then
        some payload
      else none
  | _ => none

/-! ## The replay guard in memory -/

/-- The outcomes of `Use` other than success: `errAssertionReplay`, or an error of the database. -/
inductive ReplayError where
  | assertionReplay
  | failed
deriving DecidableEq

/-- `replayExpiry`; also an entry of the map from ids to expiries. -/
structure ReplayExpiry where
  assertionId : String
  expiresAt : Time
deriving DecidableEq

/-- `MemoryReplayGuard`. The heap is kept as a list in the order in which it is popped. -/
structure MemoryReplayGuard where
  entries : Table ReplayExpiry.assertionId
  expiry : List ReplayExpiry
  limit : ℤ

namespace MemoryReplayGuard

/-- `NewMemoryReplayGuard`. -/
def new (limit : ℤ) : MemoryReplayGuard :=
  ⟨.empty, [], if limit < 1 then 10000 else limit⟩

/-- The loop of `Use`: it pops the heap as long as the first entry is not after the reading, and
deletes what the map has under the popped id and expiry. -/
def evict (now : Time) : List ReplayExpiry → Table ReplayExpiry.assertionId →
    List ReplayExpiry × Table ReplayExpiry.assertionId
  | [], entries => ([], entries)
  | expired :: rest, entries =>
    if now < expired.expiresAt then (expired :: rest, entries)
    else evict now rest (entries.delete (· = expired))

/-- `MemoryReplayGuard.Use` at a reading of the clock. -/
def use (g : MemoryReplayGuard) (now : Time) (assertionId : String) (expiresAt : Time) :
    Except ReplayError Unit × MemoryReplayGuard :=
  if (g.entries.find? assertionId).isSome = true then (.error .assertionReplay, g)
  else
    let (expiry, entries) := evict now g.expiry g.entries
    if g.limit ≤ entries.rows.length then
      (.error .assertionReplay, { g with entries := entries, expiry := expiry })
    else
      -- The id is not in the map, so that the assignment adds an entry.
      match entries.insert? ⟨assertionId, expiresAt⟩ with
      | none => (.error .assertionReplay, { g with entries := entries, expiry := expiry })
      | some entries =>
        (.ok (), { g with
          entries := entries
          expiry := expiry.orderedInsert (fun x y => x.expiresAt ≤ y.expiresAt)
            ⟨assertionId, expiresAt⟩ })

/-- Eviction keeps the entries that expire after the reading. -/
theorem mem_evict {now : Time} {x : ReplayExpiry} (hx : now < x.expiresAt) :
    ∀ {expiry : List ReplayExpiry} {entries : Table ReplayExpiry.assertionId},
      x ∈ entries → x ∈ (evict now expiry entries).2
  | [], _, h => h
  | expired :: rest, entries, h => by
    rw [evict]
    split
    · exact h
    · next hexpired =>
      have hne : x ≠ expired := by
        rintro rfl
        exact hexpired hx
      exact mem_evict hx (Table.mem_delete.mpr ⟨h, by simpa using hne⟩)

variable {g : MemoryReplayGuard} {now : Time} {assertionId : String} {expiresAt : Time}

/-- An id is used once while it is in the map. -/
theorem use_of_mem {x : ReplayExpiry} (hx : x ∈ g.entries) (hid : x.assertionId = assertionId) :
    g.use now assertionId expiresAt = (.error .assertionReplay, g) := by
  have hfound : g.entries.find? assertionId = some x := Table.find?_eq_some.mpr ⟨hx, hid⟩
  rw [use, hfound]
  rfl

/-- A use that succeeds leaves the id and its expiry in the map. -/
theorem mem_of_use (h : (g.use now assertionId expiresAt).1 = .ok ()) :
    ⟨assertionId, expiresAt⟩ ∈ (g.use now assertionId expiresAt).2.entries := by
  unfold use at h ⊢
  split at h
  · cases h
  · next hnew =>
    rw [if_neg hnew]
    dsimp only at h ⊢
    split at h
    · cases h
    · next hroom =>
      rw [if_neg hroom]
      split at h
      · cases h
      · next entries hinsert => exact (Table.mem_insert? hinsert).mpr (.inl rfl)

/-- A use keeps the entries that expire after its reading. -/
theorem mem_use {x : ReplayExpiry} (hx : x ∈ g.entries) (hlive : now < x.expiresAt) :
    x ∈ (g.use now assertionId expiresAt).2.entries := by
  have hkept : x ∈ (evict now g.expiry g.entries).2 := mem_evict hlive hx
  unfold use
  split
  · exact hx
  · dsimp only
    split
    · exact hkept
    · split
      · exact hkept
      · next hinsert => exact (Table.mem_insert? hinsert).mpr (.inr hkept)

end MemoryReplayGuard

/-! ## The replay guard in the database -/

/-- A row of `bff_actor_assertion_replays`. -/
structure ReplayRow where
  assertionDigest : Bytes
  expiresAt : Instant
  createdAt : Instant
  assertionDigest_length : assertionDigest.length = 32
  createdAt_lt : createdAt < expiresAt

/-- A statement of `Use` that fails. The insert can fail after it has been carried out. -/
inductive ReplayFault where
  | delete
  | insert
  | answer
deriving DecidableEq

/-- `PostgresReplayGuard`: what the service sends to the table. -/
structure PostgresReplayGuard where
  /-- `sha256.Sum256`. -/
  digest : Digest
  /-- The value with which the driver sends a time to a `timestamptz` column, if it is in range. -/
  timestamptz : Time → Option Instant

namespace PostgresReplayGuard

/-- `replayCleanupBatchSize`. -/
def cleanupBatchSize : ℕ := 256

/-- The `DELETE` of `Use`: at most 256 of the rows that have expired, the oldest first. -/
def cleanup (now : Instant) (rows : Table ReplayRow.assertionDigest) :
    Table ReplayRow.assertionDigest :=
  let expired := (rows.rows.filter (·.expiresAt ≤ now)).insertionSort (·.expiresAt ≤ ·.expiresAt)
  let batch := (expired.take cleanupBatchSize).map (·.assertionDigest)
  rows.delete (·.assertionDigest ∈ batch)

/-- The `INSERT` of `Use`. The check of the row comes before the conflict on its key. -/
def insert (g : PostgresReplayGuard) (fault : Option ReplayFault) (createdAt : Instant)
    (assertionId : String) (expiresAt : Instant) (rows : Table ReplayRow.assertionDigest) :
    Except ReplayError Unit × Table ReplayRow.assertionDigest :=
  if h : createdAt < expiresAt then
    match rows.insert?
        ⟨g.digest.sha256 assertionId, expiresAt, createdAt, g.digest.length_sha256 _, h⟩ with
    | none => (.error (if fault = some .answer then .failed else .assertionReplay), rows)
    | some rows => (if fault = some .answer then .error .failed else .ok (), rows)
  else (.error .failed, rows)

/-- `PostgresReplayGuard.Use` at a reading of the clock. -/
def use (g : PostgresReplayGuard) (fault : Option ReplayFault) (now : Time) (assertionId : String)
    (expiresAt : Time) (rows : Table ReplayRow.assertionDigest) :
    Except ReplayError Unit × Table ReplayRow.assertionDigest :=
  if trimSpace assertionId = "" ∨ expiresAt ≤ now then (.error .assertionReplay, rows)
  else if fault = some .delete then (.error .failed, rows)
  else match g.timestamptz now with
  | none => (.error .failed, rows)
  | some createdAt =>
    let rows := cleanup createdAt rows
    if fault = some .insert then (.error .failed, rows)
    else match g.timestamptz expiresAt with
    | none => (.error .failed, rows)
    | some expiresAt => g.insert fault createdAt assertionId expiresAt rows

/-- A reading is before an expiry, as values of the columns. -/
def Before (g : PostgresReplayGuard) (now expiresAt : Time) : Prop :=
  ∀ x y, g.timestamptz now = some x → g.timestamptz expiresAt = some y → x < y

/-- The row under the id of an assertion has its expiry. -/
def Knows (g : PostgresReplayGuard) (rows : Table ReplayRow.assertionDigest) (assertionId : String)
    (expiresAt : Time) : Prop :=
  ∃ r ∈ rows, r.assertionDigest = g.digest.sha256 assertionId ∧
    g.timestamptz expiresAt = some r.expiresAt

/-- The cleanup keeps the rows that expire after its reading. -/
theorem mem_cleanup {now : Instant} {rows : Table ReplayRow.assertionDigest} {r : ReplayRow}
    (hr : r ∈ rows) (hlive : now < r.expiresAt) : r ∈ cleanup now rows := by
  refine Table.mem_delete.mpr ⟨hr, ?_⟩
  rw [decide_eq_false_iff_not]
  intro hbatch
  obtain ⟨x, hx, hdigest⟩ := List.mem_map.mp hbatch
  have hexpired := List.mem_of_mem_take hx
  rw [List.mem_insertionSort, List.mem_filter, decide_eq_true_eq] at hexpired
  have hxr : x = r := Table.eq_of_key hexpired.1 hr hdigest
  rw [hxr] at hexpired
  exact absurd hlive (not_lt.mpr hexpired.2)

section

variable {g : PostgresReplayGuard} {fault : Option ReplayFault} {createdAt expiry : Instant}
  {now expiresAt : Time} {assertionId : String} {rows : Table ReplayRow.assertionDigest}

/-- The insert of an id that has a row does not succeed. -/
theorem insert_of_mem {r : ReplayRow} (hr : r ∈ rows)
    (hid : r.assertionDigest = g.digest.sha256 assertionId) :
    (g.insert fault createdAt assertionId expiry rows).1 ≠ .ok () := by
  intro h
  unfold insert at h
  split at h
  · split at h
    · cases h
    · next hinsert =>
      have hfresh := (Table.insert?_eq_some.mp hinsert).1
      exact Table.find?_eq_none.mp hfresh r hr hid
  · cases h

/-- An insert that succeeds leaves the row. -/
theorem mem_of_insert (h : (g.insert fault createdAt assertionId expiry rows).1 = .ok ()) :
    ∃ r ∈ (g.insert fault createdAt assertionId expiry rows).2,
      r.assertionDigest = g.digest.sha256 assertionId ∧ r.expiresAt = expiry := by
  unfold insert at h ⊢
  split at h
  · next hcheck =>
    rw [dif_pos hcheck]
    split at h
    · cases h
    · next hinsert => exact ⟨_, (Table.mem_insert? hinsert).mpr (.inl rfl), rfl, rfl⟩
  · cases h

/-- An insert keeps the rows. -/
theorem mem_insert {r : ReplayRow} (hr : r ∈ rows) :
    r ∈ (g.insert fault createdAt assertionId expiry rows).2 := by
  unfold insert
  split
  · split
    · exact hr
    · next hinsert => exact (Table.mem_insert? hinsert).mpr (.inr hr)
  · exact hr

/-- What a use that succeeds has done. -/
theorem use_ok (h : (g.use fault now assertionId expiresAt rows).1 = .ok ()) :
    now < expiresAt ∧ ∃ x y, g.timestamptz now = some x ∧ g.timestamptz expiresAt = some y ∧
      g.use fault now assertionId expiresAt rows =
        g.insert fault x assertionId y (cleanup x rows) := by
  unfold use at h ⊢
  -- Each failing branch contradicts success; the goal keeps the same branches.
  split at h
  · cases h
  · next hlive =>
    rw [if_neg hlive]
    split at h
    · cases h
    · next hdelete =>
      rw [if_neg hdelete]
      split at h
      · cases h
      · next x hx =>
        dsimp only at h ⊢
        split at h
        · cases h
        · next hinsert =>
          rw [if_neg hinsert]
          -- Both instants fit a timestamptz here.
          split at h
          · cases h
          · next y hy => exact ⟨not_le.mp fun hle => hlive (.inr hle), x, y, hx, hy, rfl⟩

/-- A use that succeeds leaves its id known. -/
theorem knows_of_use (h : (g.use fault now assertionId expiresAt rows).1 = .ok ()) :
    g.Knows (g.use fault now assertionId expiresAt rows).2 assertionId expiresAt := by
  obtain ⟨-, x, y, -, hy, huse⟩ := use_ok h
  rw [huse] at h ⊢
  obtain ⟨r, hr, hid, hexpiry⟩ := mem_of_insert h
  exact ⟨r, hr, hid, by rw [hy, hexpiry]⟩

/-- A use keeps the ids that expire after its reading. -/
theorem knows_use {other : String} {expires : Time} (hknown : g.Knows rows other expires)
    (hlive : g.Before now expires) :
    g.Knows (g.use fault now assertionId expiresAt rows).2 other expires := by
  obtain ⟨r, hr, hid, hexpiry⟩ := hknown
  unfold use
  split
  · exact ⟨r, hr, hid, hexpiry⟩
  · split
    · exact ⟨r, hr, hid, hexpiry⟩
    · split
      · exact ⟨r, hr, hid, hexpiry⟩
      · next x hx =>
        have hkept : r ∈ cleanup x rows := mem_cleanup hr (hlive x _ hx hexpiry)
        dsimp only
        split
        · exact ⟨r, hkept, hid, hexpiry⟩
        · split
          · exact ⟨r, hkept, hid, hexpiry⟩
          · exact ⟨r, mem_insert hkept, hid, hexpiry⟩

/-- An id is not used again while it is known, nor with an expiry that is not after the reading. -/
theorem use_of_knows {expires : Time} (hknown : g.Knows rows assertionId expires)
    (hlive : expiresAt ≤ now ∨ g.Before now expires) :
    (g.use fault now assertionId expiresAt rows).1 ≠ .ok () := by
  intro h
  obtain ⟨hunexpired, x, y, hx, -, huse⟩ := use_ok h
  obtain ⟨r, hr, hid, hexpiry⟩ := hknown
  have hbefore : g.Before now expires := hlive.resolve_left (not_le.mpr hunexpired)
  have hkept : r ∈ cleanup x rows := mem_cleanup hr (hbefore x _ hx hexpiry)
  rw [huse] at h
  exact insert_of_mem hkept hid h

end

end PostgresReplayGuard

/-! ## Authentication -/

/-- The interface `ReplayGuard`, with states `σ`: `Use` of an id and its expiry, at a reading of the
clock. -/
structure ReplayGuard (σ : Type) where
  use : Option ReplayFault → Time → String → Time → σ → Except ReplayError Unit × σ

/-- The guard in memory; nothing fails there. -/
def memoryReplayGuard : ReplayGuard MemoryReplayGuard where
  use _ now assertionId expiresAt g := g.use now assertionId expiresAt

/-- The guard in the database. -/
def postgresReplayGuard (g : PostgresReplayGuard) :
    ReplayGuard (Table ReplayRow.assertionDigest) where
  use := g.use

/-- The guard of the database uses its own table. -/
theorem postgresReplayGuard_use (g : PostgresReplayGuard) : (postgresReplayGuard g).use = g.use := by
  simp only [postgresReplayGuard]

/-- A call of `Authenticate`, with what it reads: the provider's answer to the credential, the
clock when the assertion is verified and when it is used, and what fails in the database. -/
structure AuthenticateCall where
  workload : Option Principal
  assertion : String
  verifiedAt : Time
  usedAt : Time
  fault : Option ReplayFault

/-- `ErrUnauthenticated` and `ErrAuthenticationUnavailable`. -/
inductive AuthenticateError where
  | unauthenticated
  | unavailable
deriving DecidableEq

/-- The tenant of the actor, if it is the workload's: as identifiers, or else as labels. -/
def canonicalTenantId (workload actor : String) : Option String :=
  match parseIdentifier workload, parseIdentifier actor with
  | some workloadId, some actorId => if actorId = workloadId then some actorId.text else none
  | none, none => if actor = workload then some actor else none
  | _, _ => none

/-- The assertion that a call hands to the replay guard, and the tenant of its actor. -/
def AuthenticateCall.delegated (call : AuthenticateCall) :
    Option (ActorAssertionPayload × String) := do
  let principal ← call.workload
  if call.assertion = "" ∨ ¬principal.hasScope bffActorScope then none
  else
    let payload ← verifyActorAssertion codec config call.assertion call.verifiedAt
    if allAllowed payload.roles allowedRoles ∧ allAllowed payload.scopes allowedScopes then
      let tenantId ← canonicalTenantId principal.tenantId payload.tenantId
      some (payload, tenantId)
    else none

/-- The principal of an accepted assertion. -/
def ActorAssertionPayload.principal (payload : ActorAssertionPayload) (tenantId : String) :
    Principal where
  subjectId := payload.subjectId
  tenantId := tenantId
  roles := allowedSet payload.roles allowedRoles
  scopes := allowedSet payload.scopes allowedScopes
  authenticatedAt := if 0 < (payload.authenticatedAt : ℤ) then timeUnix payload.authenticatedAt else 0

/-- `RequestAuthenticator.Authenticate`. -/
def authenticate {σ : Type} (guard : ReplayGuard σ) (call : AuthenticateCall) (s : σ) :
    Except AuthenticateError Principal × σ :=
  match call.delegated codec config with
  | some (payload, tenantId) =>
    match guard.use call.fault call.usedAt payload.assertionId (timeUnix payload.expiresAt) s with
    | (.ok (), s') => (.ok (payload.principal tenantId), s')
    | (.error .assertionReplay, s') => (.error .unauthenticated, s')
    | (.error .failed, s') => (.error .unavailable, s')
  | none =>
    match call.workload with
    | some principal =>
      if call.assertion = "" ∧ ¬principal.hasScope bffActorScope then (.ok principal, s)
      else (.error .unauthenticated, s)
    | none => (.error .unauthenticated, s)

/-- The ids of the assertions that a sequence of calls is accepted with. -/
def acceptedAssertions {σ : Type} (guard : ReplayGuard σ) : List AuthenticateCall → σ → List String
  | [], _ => []
  | call :: calls, s =>
    let (answer, s') := authenticate codec config guard call s
    let accepted := (call.delegated codec config).filter fun _ => answer.isOk
    (accepted.map (·.1.assertionId)).toList ++ acceptedAssertions guard calls s'

/-! ## Single use -/

section SingleUse

variable {codec config} {σ : Type} {guard : ReplayGuard σ} {call : AuthenticateCall} {s : σ}
  {payload : ActorAssertionPayload} {tenantId : String}

/-- A call that hands nothing to the guard leaves it as it was. -/
theorem authenticate_of_none (h : call.delegated codec config = none) :
    (authenticate codec config guard call s).2 = s := by
  unfold authenticate
  rw [h]
  dsimp only
  split
  · split
    · rfl
    · rfl
  · rfl

/-- The state after a call that hands an assertion to the guard. -/
theorem authenticate_of_delegated (h : call.delegated codec config = some (payload, tenantId)) :
    (authenticate codec config guard call s).2 =
      (guard.use call.fault call.usedAt payload.assertionId (timeUnix payload.expiresAt) s).2 := by
  unfold authenticate
  rw [h]
  dsimp only
  split
  · next heq => rw [heq]
  · next heq => rw [heq]
  · next heq => rw [heq]

/-- Such a call is accepted if the guard accepts the assertion. -/
theorem authenticate_isOk (h : call.delegated codec config = some (payload, tenantId)) :
    (authenticate codec config guard call s).1.isOk = true ↔
      (guard.use call.fault call.usedAt payload.assertionId (timeUnix payload.expiresAt) s).1 =
        .ok () := by
  unfold authenticate
  rw [h]
  dsimp only
  split
  · next heq => simp [heq, Except.isOk, Except.toBool]
  · next heq => simp [heq, Except.isOk, Except.toBool]
  · next heq => simp [heq, Except.isOk, Except.toBool]

/-- A call whose assertion the guard accepts adds its id. -/
theorem acceptedAssertions_cons {s' : σ} {calls : List AuthenticateCall}
    (h : call.delegated codec config = some (payload, tenantId))
    (huse : guard.use call.fault call.usedAt payload.assertionId (timeUnix payload.expiresAt) s =
      (.ok (), s')) :
    acceptedAssertions codec config guard (call :: calls) s =
      payload.assertionId :: acceptedAssertions codec config guard calls s' := by
  have hok : (authenticate codec config guard call s).1.isOk = true := by
    rw [authenticate_isOk h, huse]
  have hstate : (authenticate codec config guard call s).2 = s' := by
    rw [authenticate_of_delegated h, huse]
  rw [acceptedAssertions]
  simp [h, hok, hstate, Option.filter_some]

/-- The authenticator as a guard whose tickets are the ids of assertions. -/
def assertionGuard (codec : AssertionCodec) (config : ActorAssertionConfig) (guard : ReplayGuard σ)
    (Keeps Sees : AuthenticateCall → Time → Prop) : Guard AuthenticateCall σ String Time where
  presents call :=
    (call.delegated codec config).map fun d => (d.1.assertionId, timeUnix d.1.expiresAt)
  passes call s := (authenticate codec config guard call s).1.isOk
  step call s := (authenticate codec config guard call s).2
  Keeps := Keeps
  Sees := Sees

/-- The accepted assertions are the tickets that the guard lets in. -/
theorem acceptedAssertions_eq {Keeps Sees : AuthenticateCall → Time → Prop}
    (calls : List AuthenticateCall) (s : σ) :
    acceptedAssertions codec config guard calls s =
      (assertionGuard codec config guard Keeps Sees).admitted calls s := by
  induction calls generalizing s with
  | nil => rfl
  | cons call calls ih =>
    unfold acceptedAssertions Guard.admitted
    dsimp only
    rw [ih]
    congr 1
    by_cases hpass : (authenticate codec config guard call s).1.isOk = true
    · rcases hd : call.delegated codec config with _ | d
      · simp [assertionGuard, hd]
      · simp [assertionGuard, hd, hpass]
    · simp [assertionGuard, hpass]

/-- What a replay guard does is remembering, with respect to the calls that reach it. -/
theorem remembers_of_use {Keeps Sees : AuthenticateCall → Time → Prop}
    {Knows : σ → String → Time → Prop}
    (hlearn : ∀ fault now i e s, (guard.use fault now i e s).1 = .ok () →
      Knows (guard.use fault now i e s).2 i e)
    (hkeep : ∀ call d, call.delegated codec config = some d → ∀ s i e, Knows s i e → Keeps call e →
      Knows (guard.use call.fault call.usedAt d.1.assertionId (timeUnix d.1.expiresAt) s).2 i e)
    (hrefuse : ∀ call d, call.delegated codec config = some d → ∀ s e,
      Knows s d.1.assertionId e → Sees call e →
        (guard.use call.fault call.usedAt d.1.assertionId (timeUnix d.1.expiresAt) s).1 ≠ .ok ()) :
    (assertionGuard codec config guard Keeps Sees).Remembers Knows where
  -- A passed call has stored its own id until its own expiry.
  learn {call s i e} hpass hpresents := by
    obtain ⟨⟨payload, tenantId⟩, hd, heq⟩ := Option.map_eq_some_iff.mp hpresents
    obtain ⟨rfl, rfl⟩ := Prod.mk.inj heq
    change Knows (authenticate codec config guard call s).2 _ _
    rw [authenticate_of_delegated hd]
    exact hlearn _ _ _ _ _ ((authenticate_isOk hd).mp hpass)
  keep {call s i e} hknown hkeeps := by
    -- A call without an assertion does not reach the guard.
    change Knows (authenticate codec config guard call s).2 _ _
    rcases hd : call.delegated codec config with _ | ⟨payload, tenantId⟩
    · rw [authenticate_of_none hd]
      exact hknown
    · rw [authenticate_of_delegated hd]
      exact hkeep call _ hd s i e hknown hkeeps
  -- A known id makes the store refuse, and with it the whole call.
  refuse {call s i e e'} hknown hpresents hsees := by
    obtain ⟨⟨payload, tenantId⟩, hd, heq⟩ := Option.map_eq_some_iff.mp hpresents
    obtain ⟨rfl, rfl⟩ := Prod.mk.inj heq
    have huse := hrefuse call _ hd s e hknown hsees
    exact Bool.eq_false_iff.mpr fun hpass => huse ((authenticate_isOk hd).mp hpass)

end SingleUse

/-- The guard in memory still has the id of an earlier assertion when it is presented again: every
call between the two that reaches the guard comes before the earlier expiry. -/
def MemoryTimely (calls : List AuthenticateCall) : Prop :=
  ∀ (pre : List AuthenticateCall) (c : AuthenticateCall) (mid : List AuthenticateCall)
    (c' : AuthenticateCall) (post : List AuthenticateCall),
    calls = pre ++ c :: (mid ++ c' :: post) → ∀ d d' : ActorAssertionPayload × String,
    c.delegated codec config = some d → c'.delegated codec config = some d' →
      d'.1.assertionId = d.1.assertionId →
        ∀ x ∈ mid, (x.delegated codec config).isSome = true → x.usedAt < timeUnix d.1.expiresAt

/-- The guard in the database still has the id of an earlier assertion when it is presented again,
by an assertion that has not expired: that call and the calls between the two that reach the guard
come before the earlier expiry. -/
def PostgresTimely (g : PostgresReplayGuard) (calls : List AuthenticateCall) : Prop :=
  ∀ (pre : List AuthenticateCall) (c : AuthenticateCall) (mid : List AuthenticateCall)
    (c' : AuthenticateCall) (post : List AuthenticateCall),
    calls = pre ++ c :: (mid ++ c' :: post) → ∀ d d' : ActorAssertionPayload × String,
    c.delegated codec config = some d → c'.delegated codec config = some d' →
      d'.1.assertionId = d.1.assertionId → timeUnix d'.1.expiresAt ≤ c'.usedAt ∨
        ∀ x ∈ mid ++ [c'], (x.delegated codec config).isSome = true →
          g.Before x.usedAt (timeUnix d.1.expiresAt)

variable {codec config}

/-- The guard in memory accepts no id twice from calls that are timely. -/
theorem memory_nodup {calls : List AuthenticateCall} (h : MemoryTimely codec config calls)
    (g : MemoryReplayGuard) :
    (acceptedAssertions codec config memoryReplayGuard calls g).Nodup := by
  -- The memory guard keeps an id as long as the calls come before its expiry.
  have hremembers : (assertionGuard codec config memoryReplayGuard
      (fun x e => (x.delegated codec config).isSome = true → x.usedAt < e)
      (fun _ _ => True)).Remembers fun g i e => ⟨i, e⟩ ∈ g.entries := by
    refine remembers_of_use ?_ ?_ ?_
    · intro fault now i e g hok
      exact MemoryReplayGuard.mem_of_use hok
    · intro call d hd g i e hknown hkeeps
      exact MemoryReplayGuard.mem_use hknown (hkeeps (by rw [hd]; rfl))
    · intro call d hd g e hknown _ hok
      change (g.use _ _ _).1 = _ at hok
      rw [MemoryReplayGuard.use_of_mem hknown rfl] at hok
      cases hok
  rw [acceptedAssertions_eq]
  refine hremembers.nodup_admitted ?_
  -- Of two calls with one id, timeliness says that the first is still known at the second.
  intro pre c mid c' post hcalls i e e' hc hc'
  obtain ⟨d, hd, heq⟩ := Option.map_eq_some_iff.mp hc
  obtain ⟨d', hd', heq'⟩ := Option.map_eq_some_iff.mp hc'
  obtain ⟨rfl, rfl⟩ := Prod.mk.inj heq
  exact .inr ⟨h pre c mid c' post hcalls d d' hd hd' (Prod.mk.inj heq').1, trivial⟩

/-- The guard in the database accepts no id twice from calls that are timely. -/
theorem postgres_nodup {g : PostgresReplayGuard} {calls : List AuthenticateCall}
    (h : PostgresTimely codec config g calls) (rows : Table ReplayRow.assertionDigest) :
    (acceptedAssertions codec config (postgresReplayGuard g) calls rows).Nodup := by
  -- The table keeps a row for as long as the cleanups come before its expiry.
  have hremembers : (assertionGuard codec config (postgresReplayGuard g)
      (fun x e => (x.delegated codec config).isSome = true → g.Before x.usedAt e)
      (fun x e => g.Before x.usedAt e)).Remembers g.Knows := by
    refine remembers_of_use ?_ ?_ ?_
    · intro fault now i e rows hok
      rw [postgresReplayGuard_use] at hok ⊢
      exact PostgresReplayGuard.knows_of_use hok
    · intro call d hd rows i e hknown hkeeps
      rw [postgresReplayGuard_use]
      exact PostgresReplayGuard.knows_use hknown (hkeeps (by rw [hd]; rfl))
    · intro call d hd rows e hknown hbefore
      rw [postgresReplayGuard_use]
      exact PostgresReplayGuard.use_of_knows hknown (.inr hbefore)
  rw [acceptedAssertions_eq]
  refine hremembers.nodup_admitted ?_
  intro pre c mid c' post hcalls i e e' hc hc'
  obtain ⟨d, hd, heq⟩ := Option.map_eq_some_iff.mp hc
  obtain ⟨d', hd', heq'⟩ := Option.map_eq_some_iff.mp hc'
  obtain ⟨rfl, rfl⟩ := Prod.mk.inj heq
  obtain ⟨hid, rfl⟩ := Prod.mk.inj heq'
  rcases h pre c mid c' post hcalls d d' hd hd' hid with hexpired | hbefore
  · -- The later assertion has expired, so that the guard refuses it whatever the table holds.
    refine .inl fun rows => Bool.eq_false_iff.mpr fun hpass => ?_
    have hok := (authenticate_isOk (s := rows) hd').mp hpass
    rw [postgresReplayGuard_use] at hok
    exact absurd (PostgresReplayGuard.use_ok hok).1 (not_lt.mpr hexpired)
  -- The row has outlived every cleanup up to the second call.
  · refine .inr ⟨fun x hx => hbefore x (List.mem_append_left _ hx), ?_⟩
    exact hbefore c' (List.mem_append_right _ List.mem_cons_self) (by rw [hd']; rfl)

/-- **A delegated actor assertion is accepted at most once** by calls that do not present its id
again after the guard has let go of it. -/
theorem assertion_accepted_once (codec : AssertionCodec) (config : ActorAssertionConfig)
    (calls : List AuthenticateCall) :
    (MemoryTimely codec config calls → ∀ g : MemoryReplayGuard,
      (acceptedAssertions codec config memoryReplayGuard calls g).Nodup) ∧
    (∀ g : PostgresReplayGuard, PostgresTimely codec config g calls →
      ∀ rows, (acceptedAssertions codec config (postgresReplayGuard g) calls rows).Nodup) :=
  ⟨fun h g => memory_nodup h g, fun _ h rows => postgres_nodup h rows⟩

/-! ## An assertion that is accepted twice -/

/-- The bytes of an ASCII text. -/
def ascii (s : String) : Bytes := s.toList.map fun c => c.toNat.toUInt8

/-- A configuration with a clock skew of five seconds. -/
def skewedConfig : ActorAssertionConfig :=
  ⟨"i", "a", ⟨"k", ascii "0123456789abcdef0123456789abcdef"⟩, none, 60 * second, 5 * second⟩

/-- The payload of an assertion that is good for a minute. -/
def minutePayload (assertionId : String) (issuedAt : ℤ) (h : Bigint.Fits issuedAt)
    (h' : Bigint.Fits (issuedAt + 60)) : ActorAssertionPayload :=
  ⟨"i", "a", "k", assertionId, "u", "t", [], [], ⟨issuedAt, h⟩, ⟨issuedAt + 60, h'⟩, .zero⟩

/-- The text of the payload of an assertion with id `x`. -/
def textX : String :=
  "\x7b\"iss\":\"i\",\"aud\":\"a\",\"kid\":\"k\",\"jti\":\"x\",\"sub\":\"u\",\"tenant_id\":\"t\"," ++
    "\"iat\":900000000,\"exp\":900000060\x7d"

/-- The text of the payload of an assertion with id `y`. -/
def textY : String :=
  "\x7b\"iss\":\"i\",\"aud\":\"a\",\"kid\":\"k\",\"jti\":\"y\",\"sub\":\"u\",\"tenant_id\":\"t\"," ++
    "\"iat\":900000050,\"exp\":900000110\x7d"

/-- The signature of `textX`. -/
def signatureX : Bytes :=
  [239, 132, 174, 231, 222, 179, 64, 39, 176, 199, 151, 37, 229, 248, 28, 169, 122, 173, 230, 162,
    28, 63, 3, 46, 24, 121, 108, 239, 130, 129, 181, 118]

/-- The signature of `textY`. -/
def signatureY : Bytes :=
  [27, 253, 204, 85, 210, 159, 226, 103, 175, 82, 185, 153, 189, 204, 83, 209, 23, 60, 26, 78, 152,
    15, 114, 245, 121, 177, 36, 15, 159, 28, 145, 198]

/-- The parts of the two assertions in base64. -/
def encodedX : String × String :=
  ("eyJpc3MiOiJpIiwiYXVkIjoiYSIsImtpZCI6ImsiLCJqdGkiOiJ4Iiwic3ViIjoidSIsInRlbmFudF9pZCI6InQiLCJp" ++
    "YXQiOjkwMDAwMDAwMCwiZXhwIjo5MDAwMDAwNjB9", "74Su596zQCewx5cl5fgcqXqt5qIcPwMuGHls74KBtXY")

@[inherit_doc encodedX]
def encodedY : String × String :=
  ("eyJpc3MiOiJpIiwiYXVkIjoiYSIsImtpZCI6ImsiLCJqdGkiOiJ5Iiwic3ViIjoidSIsInRlbmFudF9pZCI6InQiLCJp" ++
    "YXQiOjkwMDAwMDA1MCwiZXhwIjo5MDAwMDAxMTB9", "G_3MVdKf4mevUrmZvcxT0Rc8Gk6YD3L1ebEkD58ckcY")

/-- The encodings of the two assertions. -/
def twoAssertions : AssertionCodec where
  rawUrlDecode s :=
    if s = encodedX.1 then some (ascii textX) else if s = encodedX.2 then some signatureX
    else if s = encodedY.1 then some (ascii textY) else if s = encodedY.2 then some signatureY
    else none
  unmarshal b :=
    if b = ascii textX then some (minutePayload "x" 900000000 (by decide) (by decide))
    else if b = ascii textY then some (minutePayload "y" 900000050 (by decide) (by decide))
    else none
  hmacSha256 _ b := if b = ascii textX then signatureX else if b = ascii textY then signatureY else []

/-- A call of the browser's backend with an assertion, at a second of the clock. -/
def callAt (encoded : String × String) (seconds : ℤ) : AuthenticateCall where
  workload := some ⟨"bff", "t", ∅, {bffActorScope}, 0⟩
  assertion := encoded.1 ++ "." ++ encoded.2
  verifiedAt := timeUnix seconds
  usedAt := timeUnix seconds
  fault := none

/-- The verification of a text of two parts whose signature is right. -/
theorem verifyActorAssertion_of_signed {body signature : String} {bytes key : Bytes}
    {payload : ActorAssertionPayload} (now : Time)
    (hparts : ∀ s ∈ [body, signature], '.' ∉ s.toList ∧ s.utf8ByteSize ≤ 1024)
    (hbody : codec.rawUrlDecode body = some bytes) (hpayload : codec.unmarshal bytes = some payload)
    (hkey : assertionKey config payload.keyId = some key)
    (hsignature : codec.rawUrlDecode signature = some (codec.hmacSha256 key bytes)) :
    verifyActorAssertion codec config (body ++ "." ++ signature) now =
      if payload.Valid config now then some payload else none := by
  -- The signed text has exactly one dot, so that it splits into its two parts.
  have hsplit : ((body ++ "." ++ signature).toList.splitOn '.').map String.ofList =
      [body, signature] := by
    have hjoin : (body ++ "." ++ signature).toList =
        ['.'].intercalate [body.toList, signature.toList] := by
      simp [List.intercalate]
    rw [hjoin, List.splitOn_intercalate '.']
    · simp
    · intro l hl
      simp only [List.mem_cons, List.not_mem_nil, or_false] at hl
      rcases hl with rfl | rfl
      · exact (hparts body (by simp)).1
      · exact (hparts signature (by simp)).1
    · simp
  have hbodySize := (hparts body (by simp)).2
  have hsignatureSize := (hparts signature (by simp)).2
  unfold verifyActorAssertion
  rw [hsplit]
  dsimp only
  -- Both parts are within the size limit, so that the check before decoding passes.
  rw [if_neg (by omega), hbody]
  simp [hpayload, hkey, hsignature]

/-- The bytes of a text in two parts whose characters are known. -/
theorem ascii_append (l m : List Char) : ascii (String.ofList l ++ String.ofList m) =
    (l ++ m).map fun c => c.toNat.toUInt8 := by
  rw [ascii, String.toList_append, String.toList_ofList, String.toList_ofList]

/-- No dot is in a text in two parts whose characters are known. -/
theorem dot_notMem_append {l m : List Char} (hl : '.' ∉ l) (hm : '.' ∉ m) :
    '.' ∉ (String.ofList l ++ String.ofList m).toList := by
  rw [String.toList_append, String.toList_ofList, String.toList_ofList, List.mem_append, not_or]
  exact ⟨hl, hm⟩

/-- The payload of the assertion with id `x`. -/
def payloadX : ActorAssertionPayload := minutePayload "x" 900000000 (by decide) (by decide)

/-- The payload of the assertion with id `y`. -/
def payloadY : ActorAssertionPayload := minutePayload "y" 900000050 (by decide) (by decide)

/-- The first assertion is accepted while it is valid. -/
theorem verifyActorAssertion_encodedX (now : Time) :
    verifyActorAssertion twoAssertions skewedConfig (encodedX.1 ++ "." ++ encodedX.2) now =
      if payloadX.Valid skewedConfig now then some payloadX else none := by
  have hne : encodedX.2 ≠ encodedX.1 := by decide +kernel
  have hparts : ∀ s ∈ [encodedX.1, encodedX.2], '.' ∉ s.toList ∧ s.utf8ByteSize ≤ 1024 := by
    intro s hs
    simp only [List.mem_cons, List.not_mem_nil, or_false] at hs
    rcases hs with rfl | rfl
    · exact ⟨dot_notMem_append (by decide +kernel) (by decide +kernel), by decide +kernel⟩
    · exact ⟨by decide +kernel, by decide +kernel⟩
  have hbody : twoAssertions.rawUrlDecode encodedX.1 = some (ascii textX) := by
    simp [twoAssertions]
  have hpayload : twoAssertions.unmarshal (ascii textX) = some payloadX := by
    simp [twoAssertions, payloadX]
  refine verifyActorAssertion_of_signed now hparts hbody hpayload (if_pos rfl) ?_
  simp [twoAssertions, hne]

/-- The second assertion is accepted while it is valid. -/
theorem verifyActorAssertion_encodedY (now : Time) :
    verifyActorAssertion twoAssertions skewedConfig (encodedY.1 ++ "." ++ encodedY.2) now =
      if payloadY.Valid skewedConfig now then some payloadY else none := by
  -- The codec of the sample answers by the text it is given, so that the texts must differ.
  have hfacts : encodedY.1 ≠ encodedX.1 ∧ encodedY.1 ≠ encodedX.2 ∧ encodedY.2 ≠ encodedX.1 ∧
      encodedY.2 ≠ encodedX.2 ∧ encodedY.2 ≠ encodedY.1 := by
    decide +kernel
  obtain ⟨hb, hbs, hsb, hs, hsy⟩ := hfacts
  have htext : ascii textY ≠ ascii textX := by
    rw [show ascii textY = _ from ascii_append _ _, show ascii textX = _ from ascii_append _ _]
    decide +kernel
  have hparts : ∀ s ∈ [encodedY.1, encodedY.2], '.' ∉ s.toList ∧ s.utf8ByteSize ≤ 1024 := by
    intro s hs
    simp only [List.mem_cons, List.not_mem_nil, or_false] at hs
    rcases hs with rfl | rfl
    · exact ⟨dot_notMem_append (by decide +kernel) (by decide +kernel), by decide +kernel⟩
    · exact ⟨by decide +kernel, by decide +kernel⟩
  have hbody : twoAssertions.rawUrlDecode encodedY.1 = some (ascii textY) := by
    simp [twoAssertions, hb, hbs]
  have hpayload : twoAssertions.unmarshal (ascii textY) = some payloadY := by
    simp [twoAssertions, htext, payloadY]
  refine verifyActorAssertion_of_signed now hparts hbody hpayload (if_pos rfl) ?_
  simp [twoAssertions, hsb, hs, hsy, htext]

/-- What a call hands to the guard, given what the verification yields. -/
theorem delegated_callAt {encoded : String × String} {seconds : ℤ} {payload : ActorAssertionPayload}
    (hdelimited : encoded.1 ++ "." ++ encoded.2 ≠ "")
    (hverify : verifyActorAssertion codec config (encoded.1 ++ "." ++ encoded.2) (timeUnix seconds) =
      some payload)
    (hplain : payload.roles = [] ∧ payload.scopes = [] ∧ payload.tenantId = "t") :
    (callAt encoded seconds).delegated codec config = some (payload, "t") := by
  obtain ⟨hroles, hscopes, htenant⟩ := hplain
  have htenantId : canonicalTenantId "t" "t" = some "t" := by decide +kernel
  simp [AuthenticateCall.delegated, callAt, hdelimited, Principal.hasScope, hverify, hroles, hscopes,
    htenant, allAllowed, htenantId]

/-- A text with a dot is not empty. -/
theorem append_dot_ne (a b : String) : a ++ "." ++ b ≠ "" := by
  intro h
  simpa using congrArg String.toList h

/-- The first assertion delegates its payload while it is valid. -/
theorem delegated_encodedX {seconds : ℤ} (h : payloadX.Valid skewedConfig (timeUnix seconds)) :
    (callAt encodedX seconds).delegated twoAssertions skewedConfig = some (payloadX, "t") := by
  refine delegated_callAt (append_dot_ne _ _) ?_ ⟨rfl, rfl, rfl⟩
  rw [verifyActorAssertion_encodedX, if_pos h]

/-- The second assertion delegates its payload while it is valid. -/
theorem delegated_encodedY {seconds : ℤ} (h : payloadY.Valid skewedConfig (timeUnix seconds)) :
    (callAt encodedY seconds).delegated twoAssertions skewedConfig = some (payloadY, "t") := by
  refine delegated_callAt (append_dot_ne _ _) ?_ ⟨rfl, rfl, rfl⟩
  rw [verifyActorAssertion_encodedY, if_pos h]

/-- The calls of the sample: `x` within its minute, `y` after it, and `x` again within the skew. -/
def skewedCalls : List AuthenticateCall :=
  [callAt encodedX 900000001, callAt encodedY 900000061, callAt encodedX 900000062]

/-- **An assertion can be accepted twice.** Its id has expired and another call has taken it out of
the memory, while the clock skew still lets it pass. -/
theorem expired_assertion_accepted_again :
    newRequestAuthenticatorWithConfig skewedConfig = some skewedConfig ∧
      (skewedCalls.Pairwise fun c c' => c.verifiedAt ≤ c.usedAt ∧ c.usedAt ≤ c'.verifiedAt) ∧
      acceptedAssertions twoAssertions skewedConfig memoryReplayGuard skewedCalls (.new 10000) =
        ["x", "y", "x"] ∧
      ¬(acceptedAssertions twoAssertions skewedConfig memoryReplayGuard skewedCalls
        (.new 10000)).Nodup := by
  have hvalid : payloadX.Valid skewedConfig (timeUnix 900000001) ∧
      payloadY.Valid skewedConfig (timeUnix 900000061) ∧
      payloadX.Valid skewedConfig (timeUnix 900000062) := by
    decide +kernel
  obtain ⟨h₁, h₂, h₃⟩ := hvalid
  -- The store drops x when y is accepted past the expiry of x, and x then passes again.
  have haccepted : acceptedAssertions twoAssertions skewedConfig memoryReplayGuard skewedCalls
      (.new 10000) = ["x", "y", "x"] := by
    unfold skewedCalls
    rw [acceptedAssertions_cons (delegated_encodedX h₁) rfl,
      acceptedAssertions_cons (delegated_encodedY h₂) rfl,
      acceptedAssertions_cons (delegated_encodedX h₃) rfl]
    rfl
  have hordered : timeUnix 900000001 ≤ timeUnix 900000061 ∧
      timeUnix 900000061 ≤ timeUnix 900000062 := by
    decide +kernel
  refine ⟨by decide +kernel, ?_, haccepted, ?_⟩
  · simp [skewedCalls, callAt, hordered, hordered.1.trans hordered.2]
  · rw [haccepted]
    decide

/-- The driver and the digests of the two ids. -/
def twoDigests : PostgresReplayGuard where
  digest :=
    { sha256 := fun s =>
        if s = "x" then
          [45, 113, 22, 66, 183, 38, 176, 68, 1, 98, 124, 169, 251, 172, 50, 245, 200, 83, 15, 177,
            144, 60, 196, 219, 2, 37, 135, 23, 146, 26, 72, 129]
        else if s = "y" then
          [161, 252, 228, 54, 56, 84, 255, 136, 140, 255, 75, 142, 120, 117, 214, 0, 194, 104, 35,
            144, 65, 42, 140, 247, 155, 55, 208, 177, 17, 72, 176, 250]
        else List.replicate 32 0
      length_sha256 := fun s => by split_ifs <;> rfl }
  timestamptz t := some (t / 1000)

/-- Three calls within the minute of `x`. -/
def timelyCalls : List AuthenticateCall :=
  [callAt encodedX 900000001, callAt encodedY 900000052, callAt encodedX 900000055]

/-- The pairs of a list of three, with what stands between them. -/
theorem pair_of_three {α : Type} {a b c x y : α} {pre mid post : List α}
    (h : [a, b, c] = pre ++ x :: (mid ++ y :: post)) :
    (x = a ∧ mid = [] ∧ y = b) ∨ (x = a ∧ mid = [b] ∧ y = c) ∨ (x = b ∧ mid = [] ∧ y = c) := by
  rcases pre with _ | ⟨_, _ | ⟨_, pre⟩⟩
  · rcases mid with _ | ⟨_, _ | ⟨_, mid⟩⟩
    · simp_all
    · simp_all
    · simp at h
  · rcases mid with _ | ⟨_, mid⟩
    · simp_all
    · simp at h
  · have hlength := congrArg List.length h
    simp only [List.length_cons, List.length_append, List.length_nil] at hlength
    omega

/-- The second of two calls with one assertion is refused by both guards, and the other assertion is
accepted in between. -/
theorem assertion_accepted_once_sample :
    (MemoryTimely twoAssertions skewedConfig timelyCalls ∧
      (acceptedAssertions twoAssertions skewedConfig memoryReplayGuard timelyCalls
        (.new 10000)).Nodup) ∧
    PostgresTimely twoAssertions skewedConfig twoDigests timelyCalls ∧
      (acceptedAssertions twoAssertions skewedConfig (postgresReplayGuard twoDigests) timelyCalls
        .empty).Nodup := by
  have hvalid : payloadX.Valid skewedConfig (timeUnix 900000001) ∧
      payloadY.Valid skewedConfig (timeUnix 900000052) ∧
      payloadX.Valid skewedConfig (timeUnix 900000055) := by
    decide +kernel
  obtain ⟨h₁, h₂, h₃⟩ := hvalid
  have hids : payloadY.assertionId ≠ payloadX.assertionId ∧
      payloadX.assertionId ≠ payloadY.assertionId := by
    decide
  have hearly : timeUnix 900000052 < timeUnix payloadX.expiresAt ∧
      timeUnix 900000052 / 1000 < timeUnix payloadX.expiresAt / 1000 ∧
      timeUnix 900000055 / 1000 < timeUnix payloadX.expiresAt / 1000 := by
    decide +kernel
  -- Only the first and the third call share an id.
  have hmemory : MemoryTimely twoAssertions skewedConfig timelyCalls := by
    intro pre c mid c' post hcalls d d' hd hd' hid
    rcases pair_of_three hcalls with ⟨rfl, rfl, rfl⟩ | ⟨rfl, rfl, rfl⟩ | ⟨rfl, rfl, rfl⟩
    · simp
    · rw [delegated_encodedX h₁] at hd
      obtain rfl := Option.some.inj hd
      intro x hx _
      rw [List.mem_singleton.mp hx]
      exact hearly.1
    · simp
  -- No call falls past the expiry of the assertion, so that no cleanup removes its row.
  have hpostgres : PostgresTimely twoAssertions skewedConfig twoDigests timelyCalls := by
    intro pre c mid c' post hcalls d d' hd hd' hid
    rcases pair_of_three hcalls with ⟨rfl, rfl, rfl⟩ | ⟨rfl, rfl, rfl⟩ | ⟨rfl, rfl, rfl⟩
    · rw [delegated_encodedX h₁] at hd
      rw [delegated_encodedY h₂] at hd'
      obtain rfl := Option.some.inj hd
      obtain rfl := Option.some.inj hd'
      exact absurd hid hids.1
    · rw [delegated_encodedX h₁] at hd
      obtain rfl := Option.some.inj hd
      refine .inr fun x hx _ u v hu hv => ?_
      obtain rfl := Option.some.inj hu
      obtain rfl := Option.some.inj hv
      simp only [List.cons_append, List.nil_append, List.mem_cons, List.not_mem_nil, or_false] at hx
      rcases hx with rfl | rfl
      · exact hearly.2.1
      · exact hearly.2.2
    · rw [delegated_encodedY h₂] at hd
      rw [delegated_encodedX h₃] at hd'
      obtain rfl := Option.some.inj hd
      obtain rfl := Option.some.inj hd'
      exact absurd hid hids.2
  have hsound := assertion_accepted_once twoAssertions skewedConfig timelyCalls
  exact ⟨⟨hmemory, hsound.1 hmemory _⟩, hpostgres, hsound.2 twoDigests hpostgres _⟩

end LedgerSync
