import LedgerSync.ActorAssertions

/-!
# How long an assertion is good

The verification of an assertion compares its times with the clock in 64-bit seconds and its
lifetime with the greatest one in 64-bit nanoseconds. The first comparisons are safe where they wrap
around; the last is not, and a lifetime from 2^63 nanoseconds on can pass. An accepted assertion is
good for no longer than the greatest lifetime and twice the clock skew if and only if its lifetime
fits (`assertion_window_iff`).
-/

namespace LedgerSync

open Lib

/-! ## What is accepted -/

/-- The times of a payload put `now` in its window, in seconds that do not wrap around. -/
structure ActorAssertionPayload.InWindow (payload : ActorAssertionPayload)
    (config : ActorAssertionConfig) (now : Time) : Prop where
  issued : (payload.issuedAt : ℤ) ≤ now.unix + durationSeconds config.clockSkew
  authenticated : (payload.authenticatedAt : ℤ) ≤ now.unix + durationSeconds config.clockSkew
  unexpired : now.unix - durationSeconds config.clockSkew < payload.expiresAt
  positive : 0 < (payload.expiresAt - payload.issuedAt : ℤ)
  lifetime : (payload.expiresAt - payload.issuedAt : ℤ) ≤ durationSeconds config.maxLifetime

/-- The text is a payload for the configuration, with the code of its bytes under the key that it
names. -/
structure ActorAssertionPayload.SignedBy (payload : ActorAssertionPayload) (codec : AssertionCodec)
    (config : ActorAssertionConfig) (raw : String) : Prop where
  signature : ∃ body signature bytes key, raw.toList = body.toList ++ '.' :: signature.toList ∧
    codec.rawUrlDecode body = some bytes ∧ codec.unmarshal bytes = some payload ∧
    assertionKey config payload.keyId = some key ∧
    codec.rawUrlDecode signature = some (codec.hmacSha256 key bytes)
  issuer : payload.issuer = config.issuer
  audience : payload.audience = config.audience

section Verification

variable {codec : AssertionCodec} {config given : ActorAssertionConfig} {raw : String}
  {now later : Time} {payload other : ActorAssertionPayload}

/-- What a verification that succeeds has found. -/
theorem verifyActorAssertion_some (h : verifyActorAssertion codec config raw now = some payload) :
    (∃ body signature bytes key, raw.toList.splitOn '.' = [body, signature] ∧
      codec.rawUrlDecode (String.ofList body) = some bytes ∧ codec.unmarshal bytes = some payload ∧
      assertionKey config payload.keyId = some key ∧
      codec.rawUrlDecode (String.ofList signature) = some (codec.hmacSha256 key bytes)) ∧
      payload.Valid config now := by
  unfold verifyActorAssertion at h
  split at h
  · next body signature hparts =>
    split_ifs at h
    simp only [Option.bind_eq_bind, Option.bind_eq_some_iff, Option.ite_none_right_eq_some,
      Option.some.injEq] at h
    obtain ⟨bytes, hbytes, found, hfound, key, hkey, mac, hmac, ⟨rfl, hvalid⟩, rfl⟩ := h
    obtain ⟨b, rest, hraw, rfl, hrest⟩ := List.map_eq_cons_iff.mp hparts
    obtain ⟨s, none, rfl, rfl, hnone⟩ := List.map_eq_cons_iff.mp hrest
    obtain rfl := List.map_eq_nil_iff.mp hnone
    exact ⟨⟨b, s, bytes, key, hraw, hbytes, hfound, hkey, hmac⟩, hvalid⟩
  · cases h

/-- An assertion that is verified was signed. -/
theorem signedBy_of_verified (h : verifyActorAssertion codec config raw now = some payload) :
    payload.SignedBy codec config raw := by
  obtain ⟨⟨body, signature, bytes, key, hraw, hbytes, hpayload, hkey, hmac⟩, hvalid⟩ :=
    verifyActorAssertion_some h
  have hjoin : ['.'].intercalate (raw.toList.splitOn '.') = raw.toList :=
    List.intercalate_splitOn '.'
  refine ⟨⟨String.ofList body, String.ofList signature, bytes, key, ?_, hbytes, hpayload, hkey, hmac⟩,
    hvalid.2.2.2.2.1, hvalid.2.2.2.2.2.1⟩
  rw [← hjoin, hraw, String.toList_ofList, String.toList_ofList]
  simp [List.intercalate]

/-- A text is verified as one payload, whenever it is. -/
theorem verified_unique (h : verifyActorAssertion codec config raw now = some payload)
    (h' : verifyActorAssertion codec config raw later = some other) : other = payload := by
  obtain ⟨⟨body, signature, bytes, key, hraw, hbytes, hpayload, -⟩, -⟩ := verifyActorAssertion_some h
  obtain ⟨⟨b, s, found, k, hraw', hfound, hother, -⟩, -⟩ := verifyActorAssertion_some h'
  obtain ⟨rfl, -⟩ := List.cons.inj (hraw'.symm.trans hraw)
  obtain rfl := Option.some.inj (hfound.symm.trans hbytes)
  exact Option.some.inj (hother.symm.trans hpayload)

/-- The bounds of a configuration that is accepted. -/
theorem config_bounds (hconfig : newRequestAuthenticatorWithConfig given = some config) :
    (0 < config.maxLifetime ∧ config.maxLifetime ≤ 120 * second) ∧
      0 ≤ config.clockSkew ∧ config.clockSkew ≤ 30 * second := by
  unfold newRequestAuthenticatorWithConfig at hconfig
  simp only at hconfig
  split_ifs at hconfig with hnames hprevious hbounds
  obtain rfl := Option.some.inj hconfig
  simp only [not_or, not_le, not_lt, gt_iff_lt] at hbounds
  exact ⟨⟨hbounds.1, hbounds.2.1⟩, hbounds.2.2.1, hbounds.2.2.2⟩

/-- Only a value that is too large wraps around to a smaller one. -/
theorem int64_le {z : ℤ} (h : -2 ^ 63 ≤ z) : int64 z ≤ z := by
  obtain ⟨k, hk⟩ := @Int.dvd_bmod_sub_self z (2 ^ 64)
  have hlt := @Int.bmod_lt z (2 ^ 64) (Nat.two_pow_pos 64)
  rw [show z.bmod (2 ^ 64) = int64 z from rfl] at hk hlt
  push_cast at hk hlt
  omega

/-- Only a value that is too small wraps around to a larger one. -/
theorem le_int64 {z : ℤ} (h : z < 2 ^ 63) : z ≤ int64 z := by
  obtain ⟨k, hk⟩ := @Int.dvd_bmod_sub_self z (2 ^ 64)
  have hle := @Int.le_bmod z (2 ^ 64) (Nat.two_pow_pos 64)
  rw [show z.bmod (2 ^ 64) = int64 z from rfl] at hk hle
  push_cast at hk hle
  omega

/-- A duration that is not negative has no negative seconds. -/
theorem durationSeconds_nonneg {d : ℤ} (h : 0 ≤ d) : 0 ≤ durationSeconds d :=
  Int.ediv_nonneg h (by decide)

/-- The seconds of a duration are within it. -/
theorem durationSeconds_mul_le (d : ℤ) : durationSeconds d * second ≤ d :=
  Int.ediv_mul_le d (by decide)

/-- The comparisons with the clock hold of the exact values. -/
theorem clock_of_valid (hskew : 0 ≤ config.clockSkew) (hnow : Bigint.Fits now.unix)
    (h : payload.Valid config now) :
    (payload.issuedAt : ℤ) ≤ now.unix + durationSeconds config.clockSkew ∧
      (payload.authenticatedAt : ℤ) ≤ now.unix + durationSeconds config.clockSkew ∧
      now.unix - durationSeconds config.clockSkew < payload.expiresAt := by
  obtain ⟨-, -, -, -, -, -, hissued, hexpires, -, hauthenticated, -⟩ := h
  have hnonneg := durationSeconds_nonneg hskew
  unfold Bigint.Fits at hnow
  have hlatest := @int64_le (now.unix + durationSeconds config.clockSkew) (by omega)
  have hearliest := @le_int64 (now.unix - durationSeconds config.clockSkew) (by omega)
  exact ⟨hissued.trans hlatest, hauthenticated.trans hlatest, hearliest.trans_lt hexpires⟩

/-- A lifetime that fits in nanoseconds is compared exactly. -/
theorem lifetime_of_valid (h : payload.Valid config now)
    (hfits : (payload.expiresAt - payload.issuedAt : ℤ) * second < 2 ^ 63) :
    (payload.expiresAt - payload.issuedAt : ℤ) * second ≤ config.maxLifetime := by
  obtain ⟨-, -, -, -, -, -, -, -, hpositive, -, hlifetime, -⟩ := h
  have hsecond : second = 1000000000 := rfl
  rw [hsecond] at hfits hlifetime ⊢
  rwa [int64_of_fits (z := payload.expiresAt - payload.issuedAt) ⟨by omega, by omega⟩,
    int64_of_fits ⟨by omega, by omega⟩] at hlifetime

/-- Two times at which an assertion is good are closer than its lifetime and twice the skew. -/
theorem window_width {start stop bound : ℤ}
    (hissued : (payload.issuedAt : ℤ) ≤ Time.unix start + durationSeconds config.clockSkew)
    (hexpires : Time.unix stop - durationSeconds config.clockSkew < payload.expiresAt)
    (hlifetime : (payload.expiresAt - payload.issuedAt : ℤ) * second ≤ bound) :
    stop - start < bound + 2 * config.clockSkew := by
  have hskew := durationSeconds_mul_le config.clockSkew
  have hstart : (Time.unix start + unixToInternal) * second ≤ start := by
    rw [Time.unix, sub_add_cancel]
    exact Int.ediv_mul_le start (by decide)
  have hstop : stop < (Time.unix stop + unixToInternal + 1) * second := by
    rw [Time.unix, sub_add_cancel]
    exact Int.lt_ediv_add_one_mul_self stop (by decide)
  have hsecond : second = 1000000000 := rfl
  rw [hsecond] at hskew hstart hstop hlifetime
  omega

end Verification

/-- **How long an accepted assertion is good.** Its times put the clock in its window, it is signed
under the key that it names, and it is accepted for less than the greatest lifetime and twice the
clock skew, if and only if its lifetime fits in 64 bits of nanoseconds. -/
theorem assertion_window_iff {codec : AssertionCodec} {given config : ActorAssertionConfig}
    {raw : String} {now : Time} {payload : ActorAssertionPayload}
    (hconfig : newRequestAuthenticatorWithConfig given = some config)
    (hnow : Bigint.Fits now.unix)
    (h : verifyActorAssertion codec config raw now = some payload) :
    (payload.InWindow config now ∧ payload.SignedBy codec config raw ∧
      ∀ later other, Bigint.Fits (Time.unix later) →
        verifyActorAssertion codec config raw later = some other →
          later - now < config.maxLifetime + 2 * config.clockSkew) ↔
      (payload.expiresAt - payload.issuedAt : ℤ) * second < 2 ^ 63 := by
  obtain ⟨⟨hpositive, hmax⟩, hskew, -⟩ := config_bounds hconfig
  have hvalid := (verifyActorAssertion_some h).2
  obtain ⟨hissued, hauthenticated, hunexpired⟩ := clock_of_valid hskew hnow hvalid
  constructor
  · rintro ⟨hwindow, -⟩
    -- The lifetime is at most ten minutes, which is far below the bound.
    have hbound := hwindow.lifetime
    have hseconds := durationSeconds_mul_le config.maxLifetime
    have hsecond : second = 1000000000 := rfl
    rw [hsecond] at hmax hseconds ⊢
    omega
  -- Below the bound the product is the lifetime in nanoseconds.
  · intro hfits
    have hlifetime := lifetime_of_valid hvalid hfits
    refine ⟨⟨hissued, hauthenticated, hunexpired, ?_, ?_⟩, signedBy_of_verified h, ?_⟩
    · have hordered := hvalid.2.2.2.2.2.2.2.2.1
      omega
    · exact (Int.le_ediv_iff_mul_le (by decide)).mpr hlifetime
    · intro later other hlater hother
      -- One text has one payload, so that both readings lie in one window.
      obtain rfl := verified_unique h hother
      have hlast := (clock_of_valid hskew hlater (verifyActorAssertion_some hother).2).2.2
      exact window_width hissued hlast hlifetime

/-- For the sample assertion both sides of the condition hold. -/
theorem assertion_window_iff_encodedX :
    (payloadX.InWindow skewedConfig (timeUnix 900000001) ∧
      payloadX.SignedBy twoAssertions skewedConfig (encodedX.1 ++ "." ++ encodedX.2) ∧
      ∀ later other, Bigint.Fits (Time.unix later) →
        verifyActorAssertion twoAssertions skewedConfig (encodedX.1 ++ "." ++ encodedX.2) later =
          some other →
          later - timeUnix 900000001 < skewedConfig.maxLifetime + 2 * skewedConfig.clockSkew) ↔
      (payloadX.expiresAt - payloadX.issuedAt : ℤ) * second < 2 ^ 63 :=
  assertion_window_iff (show newRequestAuthenticatorWithConfig skewedConfig = _ by decide +kernel)
    (by decide +kernel) ((verifyActorAssertion_encodedX _).trans (if_pos (by decide +kernel)))

/-! ## An assertion without an end -/

/-- The text of a payload whose lifetime wraps around. -/
def endlessText : String :=
  "\x7b\"iss\":\"i\",\"aud\":\"a\",\"kid\":\"k\",\"jti\":\"x\",\"sub\":\"u\",\"tenant_id\":\"t\"," ++
    "\"iat\":0,\"exp\":9223372037\x7d"

/-- A payload whose lifetime wraps around. -/
def endlessPayload : ActorAssertionPayload :=
  ⟨"i", "a", "k", "x", "u", "t", [], [], .zero, ⟨9223372037, by decide⟩, .zero⟩

/-- The signature of `endlessText`. -/
def endlessSignature : Bytes :=
  [116, 135, 23, 92, 117, 79, 167, 8, 225, 246, 241, 251, 79, 160, 7, 94, 86, 0, 240, 96, 171, 156,
    171, 184, 72, 30, 252, 148, 96, 192, 149, 219]

/-- The parts of the assertion in base64. -/
def endlessEncoded : String × String :=
  ("eyJpc3MiOiJpIiwiYXVkIjoiYSIsImtpZCI6ImsiLCJqdGkiOiJ4Iiwic3ViIjoidSIsInRlbmFudF9pZCI6InQiLCJp" ++
    "YXQiOjAsImV4cCI6OTIyMzM3MjAzN30", "dIcXXHVPpwjh9vH7T6AHXlYA8GCrnKu4SB78lGDAlds")

/-- The encodings of the assertion. -/
def endlessCodec : AssertionCodec where
  rawUrlDecode s :=
    if s = endlessEncoded.1 then some (ascii endlessText)
    else if s = endlessEncoded.2 then some endlessSignature else none
  unmarshal b := if b = ascii endlessText then some endlessPayload else none
  hmacSha256 _ b := if b = ascii endlessText then endlessSignature else []

/-- An assertion that is issued at the start of 1970 and expires in the year 2262 is accepted. -/
theorem assertion_window_not_endless : ¬∀ (codec : AssertionCodec)
    (given config : ActorAssertionConfig) (raw : String) (now : Time)
    (payload : ActorAssertionPayload),
    newRequestAuthenticatorWithConfig given = some config → Bigint.Fits now.unix →
      verifyActorAssertion codec config raw now = some payload →
        payload.InWindow config now ∧ payload.SignedBy codec config raw ∧
          ∀ later other, Bigint.Fits (Time.unix later) →
            verifyActorAssertion codec config raw later = some other →
              later - now < config.maxLifetime + 2 * config.clockSkew := by
  intro h
  have hne : endlessEncoded.2 ≠ endlessEncoded.1 := by decide +kernel
  have hparts : ∀ s ∈ [endlessEncoded.1, endlessEncoded.2],
      '.' ∉ s.toList ∧ s.utf8ByteSize ≤ 1024 := by
    intro s hs
    simp only [List.mem_cons, List.not_mem_nil, or_false] at hs
    rcases hs with rfl | rfl
    · exact ⟨dot_notMem_append (by decide +kernel) (by decide +kernel), by decide +kernel⟩
    · exact ⟨by decide +kernel, by decide +kernel⟩
  -- The payload is signed with the current key and lies in the window that wraps.
  have hverified : verifyActorAssertion endlessCodec skewedConfig
      (endlessEncoded.1 ++ "." ++ endlessEncoded.2) (timeUnix 1784000000) =
        some endlessPayload := by
    have hbody : endlessCodec.rawUrlDecode endlessEncoded.1 = some (ascii endlessText) := by
      simp [endlessCodec]
    have hpayload : endlessCodec.unmarshal (ascii endlessText) = some endlessPayload := by
      simp [endlessCodec]
    have hkey : assertionKey skewedConfig endlessPayload.keyId = some skewedConfig.currentKey.secret :=
      if_pos rfl
    have hsignature : endlessCodec.rawUrlDecode endlessEncoded.2 =
        some (endlessCodec.hmacSha256 skewedConfig.currentKey.secret (ascii endlessText)) := by
      simp [endlessCodec, hne]
    rw [verifyActorAssertion_of_signed _ hparts hbody hpayload hkey hsignature]
    exact if_pos (by decide +kernel)
  -- The claimed bound on the lifetime fails for it.
  have hwindow := (h endlessCodec skewedConfig _ _ _ _ (by decide +kernel)
    (by decide +kernel) hverified).1.lifetime
  exact absurd hwindow (by decide)

end LedgerSync
