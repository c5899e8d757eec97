import LedgerSync.Lib.Base64
import LedgerSync.Lib.GoTime
import LedgerSync.Lib.JsonText
import LedgerSync.TransferReceipts

/-!
# Consistency requirements

The tokens of `internal/application/consistency`, with which a caller demands at least some version
of a balance. A token is the JSON text of the requirement in base64, a dot, and the base64 of its
HMAC under a key that the text names. A verifier that keeps the key of the issuer reads back what
was issued, whatever else the two disagree about, until the requirement expires
(`issued_requirement_verifies`).
-/

namespace LedgerSync

open Lib

/-! ## Keys -/

/-- A result that is a value. -/
theorem toOption_isSome {ε α : Type} {x : Except ε α} (h : x.toOption.isSome = true) :
    ∃ a, x = .ok a := by
  rcases x with e | a
  · cases h
  · exact ⟨a, rfl⟩

/-- HMAC with SHA-256. -/
structure Hmac where
  sha256 : Bytes → Bytes → Bytes
  /-- A code has 32 bytes. -/
  length_sha256 : ∀ key message, (sha256 key message).length = 32

/-- `sign`. -/
def sign (hmac : Hmac) (secret : Bytes) (payload : List Char) : List Char :=
  rawUrlEncode (hmac.sha256 secret (encodeRunes payload))

/-- `Key`. -/
structure SigningKey where
  id : String
  secret : Bytes

/-- The key has a name, and a secret of at least 32 bytes. -/
def SigningKey.Usable (k : SigningKey) : Prop := trimSpace k.id ≠ "" ∧ 32 ≤ k.secret.length

/-- Whether a key can be used can be decided. -/
instance SigningKey.Usable.decidable (k : SigningKey) : Decidable k.Usable :=
  inferInstanceAs (Decidable (_ ∧ _))

/-- `Issuer`, without its clock: the key that signs, the secrets that are kept to verify with, and
the nanoseconds for which a requirement holds. -/
structure Issuer where
  current : SigningKey
  verifyKeys : String → Option Bytes
  ttl : ℤ
  current_kept : verifyKeys current.id = some current.secret
  ttl_pos : 0 < ttl

/-- The secrets together with those of previous keys. -/
def keepKeys (verifyKeys : String → Option Bytes) :
    List SigningKey → Except String (String → Option Bytes)
  | [] => .ok verifyKeys
  | key :: rest =>
    if ¬key.Usable then .error "previous consistency signing key is invalid"
    else if (verifyKeys key.id).isSome then .error "consistency signing key IDs must be unique"
    else keepKeys (Function.update verifyKeys key.id (some key.secret)) rest

/-- A secret that is kept stays. -/
theorem keepKeys_kept {verifyKeys verifyKeys' : String → Option Bytes} {previous : List SigningKey}
    {id : String} {secret : Bytes} (h : keepKeys verifyKeys previous = .ok verifyKeys')
    (hid : verifyKeys id = some secret) : verifyKeys' id = some secret := by
  induction previous generalizing verifyKeys with
  | nil =>
    cases h
    exact hid
  | cons key rest ih =>
    rw [keepKeys] at h
    split_ifs at h with hunusable hused
    refine ih h ?_
    have hne : id ≠ key.id := by
      rintro rfl
      rw [hid] at hused
      exact hused rfl
    rw [Function.update_of_ne hne]
    exact hid

/-- The secret of a previous key is kept. -/
theorem keepKeys_previous {verifyKeys verifyKeys' : String → Option Bytes}
    {previous : List SigningKey} (h : keepKeys verifyKeys previous = .ok verifyKeys') :
    ∀ key ∈ previous, verifyKeys' key.id = some key.secret := by
  induction previous generalizing verifyKeys with
  | nil => exact fun _ hkey => absurd hkey List.not_mem_nil
  | cons key rest ih =>
    rw [keepKeys] at h
    split_ifs at h with hunusable hused
    intro k hk
    rcases List.mem_cons.mp hk with rfl | hk
    · exact keepKeys_kept h (Function.update_self k.id _ _)
    · exact ih h k hk

/-- A key that was never given is not kept. -/
theorem keepKeys_unknown {verifyKeys verifyKeys' : String → Option Bytes}
    {previous : List SigningKey} {id : String} (h : keepKeys verifyKeys previous = .ok verifyKeys')
    (hid : verifyKeys id = none) (hprevious : ∀ key ∈ previous, key.id ≠ id) :
    verifyKeys' id = none := by
  induction previous generalizing verifyKeys with
  | nil =>
    cases h
    exact hid
  | cons key rest ih =>
    rw [keepKeys] at h
    split_ifs at h with hunusable hused
    refine ih h ?_ fun k hk => hprevious k (List.mem_cons_of_mem key hk)
    rw [Function.update_of_ne (hprevious key List.mem_cons_self).symm]
    exact hid

/-- `10 * time.Minute`. -/
def defaultTtl : ℤ := 600000000000

/-- The time for which a requirement holds: the given one when it is positive. -/
def ttlOrDefault (ttl : ℤ) : ℤ := if 0 < ttl then ttl else defaultTtl

/-- A time to live is positive. -/
theorem ttlOrDefault_pos (ttl : ℤ) : 0 < ttlOrDefault ttl := by
  unfold ttlOrDefault
  split_ifs with hpos
  · exact hpos
  · decide

/-- `NewIssuer`. -/
def newIssuer (current : SigningKey) (previous : List SigningKey) (ttl : ℤ) :
    Except String Issuer :=
  if ¬current.Usable then
    .error "a consistency signing key with at least 32 bytes is required"
  else
    match h : keepKeys (Function.update (fun _ => none) current.id (some current.secret))
        previous with
    | .error message => .error message
    | .ok verifyKeys => .ok {
        current, verifyKeys
        ttl := ttlOrDefault ttl
        current_kept := keepKeys_kept h (Function.update_self current.id _ _)
        ttl_pos := ttlOrDefault_pos ttl }

section Keys

variable {current : SigningKey} {previous : List SigningKey} {ttl : ℤ} {v : Issuer}

/-- The secrets of an issuer that was made. -/
theorem newIssuer_ok (h : newIssuer current previous ttl = .ok v) :
    keepKeys (Function.update (fun _ => none) current.id (some current.secret)) previous =
      .ok v.verifyKeys := by
  unfold newIssuer at h
  split_ifs at h
  split at h
  · cases h
  · rename_i hkept
    cases h
    exact hkept

/-- A verifier keeps the keys that it was made with. -/
theorem newIssuer_kept (h : newIssuer current previous ttl = .ok v) {key : SigningKey}
    (hkey : key ∈ current :: previous) : v.verifyKeys key.id = some key.secret := by
  rcases List.mem_cons.mp hkey with rfl | hkey
  · exact keepKeys_kept (newIssuer_ok h) (Function.update_self key.id _ _)
  · exact keepKeys_previous (newIssuer_ok h) key hkey

/-- A verifier knows no other keys. -/
theorem newIssuer_unknown (h : newIssuer current previous ttl = .ok v) {id : String}
    (hid : ∀ key ∈ current :: previous, key.id ≠ id) : v.verifyKeys id = none := by
  refine keepKeys_unknown (newIssuer_ok h) ?_ fun key hkey =>
    hid key (List.mem_cons_of_mem current hkey)
  rw [Function.update_of_ne (hid current List.mem_cons_self).symm]

end Keys

/-! ## Requirements -/

/-- `Requirement`; an instant is a number of nanoseconds, and zero is the zero time. -/
structure Requirement where
  tenantId : String := ""
  accountId : String := ""
  minimumVersion : Bigint := .zero
  issuedAt : ℤ := 0
  expiresAt : ℤ := 0
  keyId : String := ""
deriving DecidableEq

/-- The errors of the package. -/
inductive RequirementError where
  /-- `ErrInvalidRequirement`, "invalid consistency requirement". -/
  | invalid
  /-- `ErrExpiredRequirement`, "expired consistency requirement". -/
  | expired
  /-- "encode consistency requirement": a time has a year that is not written with four digits. -/
  | encode
deriving DecidableEq

/-- The fields of a requirement. -/
inductive RequirementField where
  | tenantId | accountId | minimumVersion | issuedAt | expiresAt | keyId
deriving DecidableEq

namespace RequirementField

/-- The fields in their order. -/
def all : List RequirementField :=
  [tenantId, accountId, minimumVersion, issuedAt, expiresAt, keyId]

/-- The key of a field. -/
def name : RequirementField → String
  | tenantId => "tenant_id"
  | accountId => "account_id"
  | minimumVersion => "minimum_version"
  | issuedAt => "issued_at"
  | expiresAt => "expires_at"
  | keyId => "kid"

/-- The field of a key. -/
def ofKey? (key : String) : Option RequirementField :=
  all.find? fun f => foldName f.name = foldName key

end RequirementField

/-- A time needs no escape. -/
theorem plain_rfc3339Nano (n : ℤ) : ∀ c ∈ rfc3339Nano n, c ≠ '"' ∧ c ≠ '\\' ∧ 32 ≤ c.toNat := by
  intro c hc
  rw [rfc3339Nano, List.mem_append] at hc
  rcases hc with hc | hc
  · rcases isStampChar_stampBody hc with hdigit | hother
    · by_cases hzero : c = '0'
      · subst hzero
        decide
      · obtain ⟨k, hk, rfl⟩ := digit_cases hdigit hzero
        interval_cases k <;> decide
    · simp only [List.mem_cons, List.not_mem_nil, or_false] at hother
      rcases hother with rfl | rfl | rfl | rfl <;> decide
  · rw [List.mem_singleton.mp hc]
    decide

namespace Requirement

/-- A field as `json.Marshal` writes it. -/
def field (r : Requirement) : RequirementField → JsonScalar
  | .tenantId => .string r.tenantId.toList
  | .accountId => .string r.accountId.toList
  | .minimumVersion => .number r.minimumVersion
  | .issuedAt => .plain (rfc3339Nano r.issuedAt) (plain_rfc3339Nano _)
  | .expiresAt => .plain (rfc3339Nano r.expiresAt) (plain_rfc3339Nano _)
  | .keyId => .string r.keyId.toList

/-- `json.Marshal`. -/
def marshal (r : Requirement) : Except RequirementError (List Char) :=
  if HasWrittenYear r.issuedAt ∧ HasWrittenYear r.expiresAt then
    .ok (objectText (RequirementField.all.map fun f => (f.name, r.field f)))
  else .error .encode

/-- A text field after a value was decoded into it. -/
def textMember (current : String) : JsonMember → Option String
  | .string raw => some (unquote raw)
  | .literal text => if text = "null".toList then some current else none
  | .nested => none

/-- An integer field after a value was decoded into it. -/
def intMember (current : Bigint) : JsonMember → Option Bigint
  | .literal text =>
    if text = "null".toList then some current
    else (parseInt64 (String.ofList text)).bind Bigint.ofInt?
  | _ => none

/-- A time field after a value was decoded into it; the quoted text is not unescaped. -/
def timeMember (current : ℤ) : JsonMember → Option ℤ
  | .string raw => parseGoTime raw
  | .literal text => if text = "null".toList then some current else none
  | .nested => none

/-- One field decoded. -/
def set (r : Requirement) (f : RequirementField) (v : JsonMember) : Option Requirement :=
  match f with
  | .tenantId => (textMember r.tenantId v).map fun x => { r with tenantId := x }
  | .accountId => (textMember r.accountId v).map fun x => { r with accountId := x }
  | .minimumVersion => (intMember r.minimumVersion v).map fun x => { r with minimumVersion := x }
  | .issuedAt => (timeMember r.issuedAt v).map fun x => { r with issuedAt := x }
  | .expiresAt => (timeMember r.expiresAt v).map fun x => { r with expiresAt := x }
  | .keyId => (textMember r.keyId v).map fun x => { r with keyId := x }

/-- `json.Unmarshal`. -/
def unmarshal (text : List Char) : Option Requirement :=
  (membersOf text).bind fun members =>
    members.foldlM (fun r m =>
      match RequirementField.ofKey? (unquote m.1) with
      | some f => r.set f m.2
      | none => some r) {}

/-- The fields are read back. -/
theorem unmarshal_marshal {r : Requirement} {text : List Char} (h : r.marshal = .ok text) :
    unmarshal text = some r := by
  unfold marshal at h
  split_ifs at h with hyears
  obtain rfl := Except.ok.inj h
  -- No two members share a name.
  have hkey : ∀ f : RequirementField, RequirementField.ofKey? f.name = some f := by
    intro f
    cases f <;> decide +kernel
  -- A decimal number is not the word for no value, and it is read back.
  have hversion : ∀ current, intMember current (.literal (decimal r.minimumVersion).toList) =
      some r.minimumVersion := by
    intro current
    have hne : (decimal r.minimumVersion).toList ≠ "null".toList := by
      intro heq
      have hread := parseInt64_decimal r.minimumVersion.inRange.1 r.minimumVersion.inRange.2
      rw [String.toList_inj.mp heq] at hread
      cases hread
    rw [intMember, if_neg hne, String.ofList_toList,
      parseInt64_decimal r.minimumVersion.inRange.1 r.minimumVersion.inRange.2, Option.bind_some]
    exact Bigint.ofInt?_eq_some.mpr rfl
  unfold unmarshal
  rw [membersOf_objectText, Option.bind_some]
  simp only [RequirementField.all, List.map_cons, List.map_nil, fieldRead, field, JsonScalar.string,
    JsonScalar.number, JsonScalar.plain, List.foldlM_cons, List.foldlM_nil, hkey, set, textMember,
    timeMember, unquote_quoted, hversion, parseGoTime_rfc3339Nano hyears.1,
    parseGoTime_rfc3339Nano hyears.2, Option.map_some]
  rfl

end Requirement

/-! ## Tokens -/

/-- `Issue`, where the clock says `now`. -/
def Issuer.issue (i : Issuer) (hmac : Hmac) (now : ℤ) (tenantId accountId : String)
    (minimumVersion : Bigint) : Except RequirementError (List Char) :=
  if tenantId = "" ∨ accountId = "" ∨ (minimumVersion : ℤ) < 0 then .error .invalid
  else do
    let payload ← Requirement.marshal
      { tenantId, accountId, minimumVersion, issuedAt := now, expiresAt := now + i.ttl,
        keyId := i.current.id }
    let encoded := rawUrlEncode (encodeRunes payload)
    .ok (encoded ++ '.' :: sign hmac i.current.secret encoded)

/-- The requirement that a token carries, when it is signed with a key that is kept. -/
def Issuer.signed (i : Issuer) (hmac : Hmac) (raw : List Char) : Option Requirement :=
  match raw.splitOn '.' with
  | [payload, signature] =>
    if payload = [] ∨ signature = [] then none
    else do
      let bytes ← rawUrlDecode? payload
      let r ← Requirement.unmarshal (runes bytes)
      let secret ← i.verifyKeys r.keyId
      if signature = sign hmac secret payload then some r else none
  | _ => none

/-- The fields of a requirement make sense. -/
def Requirement.Valid (r : Requirement) : Prop :=
  r.tenantId ≠ "" ∧ r.accountId ≠ "" ∧ 0 ≤ (r.minimumVersion : ℤ) ∧ r.issuedAt ≠ 0 ∧
    r.expiresAt ≠ 0 ∧ r.issuedAt < r.expiresAt

/-- Whether a requirement is valid can be decided. -/
instance Requirement.Valid.decidable (r : Requirement) : Decidable r.Valid :=
  inferInstanceAs (Decidable (_ ∧ _))

/-- `Verify`, where the clock says `now`. -/
def Issuer.verify (i : Issuer) (hmac : Hmac) (now : ℤ) (raw : List Char) :
    Except RequirementError Requirement :=
  match i.signed hmac raw with
  | none => .error .invalid
  | some r =>
    if ¬r.Valid then .error .invalid
    else if ¬now < r.expiresAt then .error .expired
    else .ok r

section Tokens

variable {hmac : Hmac} {i v : Issuer} {issued now : ℤ} {tenantId accountId : String}
  {token : List Char} {version : Bigint} {r : Requirement}

/-- A signature is not empty. -/
theorem sign_ne_nil (secret : Bytes) (payload : List Char) : sign hmac secret payload ≠ [] := by
  intro h
  have hlength := hmac.length_sha256 secret (encodeRunes payload)
  rw [rawUrlEncode_eq_nil.mp h] at hlength
  cases hlength

/-- The parts of a token that was issued. -/
theorem issue_ok (h : i.issue hmac issued tenantId accountId version = .ok token) :
    tenantId ≠ "" ∧ accountId ≠ "" ∧ 0 ≤ (version : ℤ) ∧ ∃ text,
      Requirement.marshal ⟨tenantId, accountId, version, issued, issued + i.ttl, i.current.id⟩ =
        .ok text ∧
      token = rawUrlEncode (encodeRunes text) ++
        '.' :: sign hmac i.current.secret (rawUrlEncode (encodeRunes text)) := by
  unfold Issuer.issue at h
  split_ifs at h with hrefused
  rw [not_or, not_or, not_lt] at hrefused
  rcases hmarshal : Requirement.marshal
    ⟨tenantId, accountId, version, issued, issued + i.ttl, i.current.id⟩ with e | text
  · rw [hmarshal] at h
    cases h
  · rw [hmarshal] at h
    exact ⟨hrefused.1, hrefused.2.1, hrefused.2.2, text, rfl, (Except.ok.inj h).symm⟩

/-- A token is read back under the key that it names. -/
theorem signed_token {text : List Char} (hmarshal : r.marshal = .ok text) :
    v.signed hmac (rawUrlEncode (encodeRunes text) ++
      '.' :: sign hmac i.current.secret (rawUrlEncode (encodeRunes text))) =
    (v.verifyKeys r.keyId).bind fun secret =>
      if sign hmac i.current.secret (rawUrlEncode (encodeRunes text)) =
        sign hmac secret (rawUrlEncode (encodeRunes text)) then some r else none := by
  -- The dot occurs in neither part, so that the text falls into these two.
  have hdot : base64UrlValue? '.' = none := by decide
  have hsplit := List.splitOn_append_cons_self_of_not_mem
    (not_mem_rawUrlEncode hdot (encodeRunes text))
    (sign hmac i.current.secret (rawUrlEncode (encodeRunes text)))
  have hsign : '.' ∉ sign hmac i.current.secret (rawUrlEncode (encodeRunes text)) :=
    not_mem_rawUrlEncode hdot _
  rw [List.splitOn_eq_singleton hsign] at hsplit
  -- The empty text is no requirement.
  have hpayload : rawUrlEncode (encodeRunes text) ≠ [] := by
    intro hnil
    have hread := Requirement.unmarshal_marshal hmarshal
    rw [← runes_encodeRunes text, rawUrlEncode_eq_nil.mp hnil] at hread
    cases hread
  unfold Issuer.signed
  rw [hsplit]
  simp only
  rw [if_neg (not_or.mpr ⟨hpayload, sign_ne_nil _ _⟩), rawUrlDecode?_rawUrlEncode]
  simp only [Option.bind_eq_bind, Option.bind_some, runes_encodeRunes,
    Requirement.unmarshal_marshal hmarshal]

/-- Whoever keeps the key of an issuer reads back what was issued. -/
theorem verify_token (hissued : 0 < issued)
    (hkept : v.verifyKeys i.current.id = some i.current.secret)
    (h : i.issue hmac issued tenantId accountId version = .ok token) :
    v.verify hmac now token =
      if now < issued + i.ttl then
        .ok ⟨tenantId, accountId, version, issued, issued + i.ttl, i.current.id⟩
      else .error .expired := by
  obtain ⟨htenant, haccount, hversion, text, hmarshal, rfl⟩ := issue_ok h
  have hpos := i.ttl_pos
  have hvalid : Requirement.Valid
      ⟨tenantId, accountId, version, issued, issued + i.ttl, i.current.id⟩ :=
    ⟨htenant, haccount, hversion, by dsimp only; omega, by dsimp only; omega, by dsimp only; omega⟩
  unfold Issuer.verify
  rw [signed_token hmarshal, hkept, Option.bind_some, if_pos rfl]
  simp only
  rw [if_neg (not_not.mpr hvalid)]
  by_cases hlive : now < issued + i.ttl
  · rw [if_neg (not_not.mpr hlive), if_pos hlive]
  · rw [if_pos hlive, if_neg hlive]

end Tokens

/-- A verifier that was given the key of an issuer, as its own or as a previous one, reads back from
a token what was issued at every time before the requirement expires, and then says that it expired.
A verifier that was given no key of this name refuses the token. -/
theorem issued_requirement_verifies (hmac : Hmac) (i v : Issuer) (current : SigningKey)
    (previous : List SigningKey) (ttl : ℤ) (hv : newIssuer current previous ttl = .ok v)
    (tenantId accountId : String) (version : Bigint) (issued : ℤ) (hissued : 0 < issued)
    (token : List Char) (h : i.issue hmac issued tenantId accountId version = .ok token) (now : ℤ) :
    (i.current ∈ current :: previous → v.verify hmac now token =
      if now < issued + i.ttl then
        .ok ⟨tenantId, accountId, version, issued, issued + i.ttl, i.current.id⟩
      else .error .expired) ∧
    ((∀ key ∈ current :: previous, key.id ≠ i.current.id) →
      v.verify hmac now token = .error .invalid) := by
  refine ⟨fun hkey => verify_token hissued (newIssuer_kept hv hkey) h, fun hid => ?_⟩
  obtain ⟨-, -, -, text, hmarshal, rfl⟩ := issue_ok h
  unfold Issuer.verify
  rw [signed_token hmarshal, newIssuer_unknown hv hid, Option.bind_none]

namespace Sample

/-- The codes of HMAC-SHA-256 of the signed texts of the samples, under a secret of ones. -/
def codes : List (String × Bytes) :=
  [("eyJ0ZW5hbnRfaWQiOiJ0ZW5hbnQiLCJhY2NvdW50X2lkIjoiYWNjb3VudCIsIm1pbmltdW1fdmVyc2lvbiI6MS" ++
      "wiaXNzdWVkX2F0IjoiMTk5Ny0wNS0yM1QxNjowMDowMFoiLCJleHBpcmVzX2F0IjoiMTk5Ny0wNS0yM1QxNjox" ++
      "MDowMFoiLCJraWQiOiIyMDI2LTAxIn0",
      [160, 93, 127, 185, 157, 124, 85, 218, 36, 239, 94, 224, 223, 30, 51, 122, 235, 253, 54, 184,
       179, 220, 81, 72, 26, 111, 190, 36, 79, 85, 168, 219]),
    ("eyJ0ZW5hbnRfaWQiOiIwMDAwMDAwMC0wMDAwLTAwMDAtMDAwMC0wMDAwMDAwMDAwMDEiLCJhY2NvdW50X2lkIj" ++
      "oiMDAwMDAwMDAtMDAwMC0wMDAwLTAwMDAtMDAwMDAwMDAwMDBhIiwibWluaW11bV92ZXJzaW9uIjoxLCJpc3N1" ++
      "ZWRfYXQiOiIxOTk3LTA1LTIzVDE2OjAwOjAwWiIsImV4cGlyZXNfYXQiOiIxOTk3LTA1LTIzVDE2OjEwOjAwWi" ++
      "IsImtpZCI6IjIwMjYtMDEifQ",
      [228, 133, 41, 23, 49, 13, 225, 62, 143, 72, 53, 251, 182, 84, 36, 2, 76, 73, 152, 27, 101,
       176, 236, 167, 125, 84, 103, 133, 28, 231, 116, 44])]

/-- The text of ASCII bytes. -/
def asciiText (bytes : Bytes) : String := String.ofList (bytes.map fun b => Char.ofNat b.toNat)

/-- HMAC-SHA-256 on these texts. -/
def hmac : Hmac where
  sha256 key message :=
    ((codes.find? fun c => key = List.replicate 32 1 ∧ asciiText message = c.1).map
      Prod.snd).getD (List.replicate 32 0)
  length_sha256 key message := by
    have hall : ∀ c ∈ codes, c.2.length = 32 := by decide
    rcases hfind : codes.find? fun c => key = List.replicate 32 1 ∧ asciiText message = c.1 with _ | c
    · rw [hfind]
      rfl
    · rw [hfind]
      exact hall c (List.mem_of_find?_eq_some hfind)

/-- A key of a name. -/
def signingKey (id : String) : SigningKey := ⟨id, List.replicate 32 1⟩

/-- An instant of the year 1997. -/
def issuedAt : ℤ := 63000000000000000000

/-- The sample was issued after the zero time. -/
theorem issuedAt_pos : 0 < issuedAt := by decide

/-- An issuer that was given no previous keys. -/
def issuer : Issuer where
  current := signingKey "2026-01"
  verifyKeys id := if id = "2026-01" then some (signingKey "2026-01").secret else none
  ttl := defaultTtl
  current_kept := rfl
  ttl_pos := ttlOrDefault_pos 0

/-- The next key is used while the previous one is kept. -/
theorem rotated :
    (newIssuer (signingKey "2026-02") [signingKey "2026-01"] 0).toOption.isSome = true ∧
    (issuer.issue hmac issuedAt "tenant" "account" .one).toOption.isSome = true := by
  decide +kernel

end Sample

/-- A token is verified after the keys were rotated. -/
theorem issued_requirement_verifies_sample : ∃ v token,
    newIssuer (Sample.signingKey "2026-02") [Sample.signingKey "2026-01"] 0 = .ok v ∧
    Sample.issuer.issue Sample.hmac Sample.issuedAt "tenant" "account" .one = .ok token ∧
    v.verify Sample.hmac Sample.issuedAt token = .ok ⟨"tenant", "account", .one, Sample.issuedAt,
      Sample.issuedAt + defaultTtl, "2026-01"⟩ := by
  obtain ⟨hv, htoken⟩ := Sample.rotated
  obtain ⟨v, hv⟩ := toOption_isSome hv
  obtain ⟨token, htoken⟩ := toOption_isSome htoken
  obtain ⟨hverifies, -⟩ := issued_requirement_verifies Sample.hmac Sample.issuer v _ _ _ hv _ _ _ _
    Sample.issuedAt_pos token htoken Sample.issuedAt
  refine ⟨v, token, hv, htoken, (hverifies (by simp [Sample.issuer])).trans (if_pos ?_)⟩
  exact Int.lt_add_of_pos_right _ (ttlOrDefault_pos 0)

end LedgerSync
