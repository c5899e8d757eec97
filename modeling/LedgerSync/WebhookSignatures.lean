import LedgerSync.SpreadsheetCells
import LedgerSync.Lib.Framing
import LedgerSync.Lib.GoTime
import LedgerSync.Lib.JsonScanner

/-!
# What webhook signatures bind

The delivery dispatcher signs the stamp, the id of the delivery, its payload and the id of the key
with dots between them, and the verification dispatcher does the same with the body that it makes of
the challenge. A dot also stands in fractions of seconds, in payloads and in ids of keys. The stamp
still ends at its only `Z`, an id of a job has no dot, and nothing but blanks follows a JSON object
inside a payload that `json.Valid` accepts, so the signed bytes determine the four fields
(`signed_bytes_bind`), and with them the body of the request (`dispatched_body_bound`,
`verified_body_bound`).
-/

namespace LedgerSync

open Lib

/-! ## Strings and bytes -/

/-- `strings.TrimSpace(s) == ""`. -/
def GoString.blank (s : GoString) : Bool := s.all fun r => isSpace r.rune

/-- Bytes as the JSON scanner sees them, one character each. -/
def scannedText (b : Bytes) : List Char := b.map fun x => Char.ofNat x.toNat

/-- The separator of the signed fields. -/
def dotByte : UInt8 := 0x2e

/-- `stamp + "." + id + "." + payload + "." + keyId`. -/
def signedMessage (stamp id payload keyId : Bytes) : Bytes :=
  stamp ++ [dotByte] ++ id ++ [dotByte] ++ payload ++ [dotByte] ++ keyId

/-- The bytes of a clock reading as both dispatchers write it. -/
def stampBytes (now : ℤ) : Bytes := utf8 (String.ofList (rfc3339Nano now))

/-- Why a request is not sent. -/
inductive SigningError where
  | incomplete
  | endpoint
  | nonPublic
  | keyUnavailable
deriving DecidableEq

/-- What `url.Parse` tells of a URL. -/
structure ParsedUrl where
  scheme : GoString
  hostname : GoString
  hasUser : Bool
  port : GoString

/-- What `netip.ParseAddr` tells of an address. -/
structure ParsedAddr where
  isPrivate : Bool
  isLoopback : Bool
  isLinkLocalUnicast : Bool
  isMulticast : Bool
  isUnspecified : Bool

/-- The parts of Go's library that read URLs and addresses. -/
structure NetLibrary where
  /-- `url.Parse`. -/
  parseUrl : GoString → Option ParsedUrl
  /-- `netip.ParseAddr`. -/
  parseAddr : GoString → Option ParsedAddr

/-- A request that carries a signature. -/
structure SignedRequest where
  url : GoString
  body : Bytes
  headers : List (String × Bytes)

/-- `KeyResolver.Resolve`, and the length that both dispatchers ask of a key. -/
def signingKey (resolve : GoString → Option Bytes) (reference : GoString) :
    Except SigningError Bytes :=
  match resolve reference with
  | none => .error .keyUnavailable
  | some key => if key.length < 32 then .error .keyUnavailable else .ok key

/-- `"v1=" + hex.EncodeToString(mac.Sum(nil))`, where `hmacSha256` is the HMAC with SHA-256. -/
def signatureHeader (hmacSha256 : Bytes → Bytes → Bytes) (key message : Bytes) : Bytes :=
  utf8 "v1=" ++ utf8 (String.ofList (hexEncode (hmacSha256 key message)))

/-! ## The delivery dispatcher -/

/-- `Delivery`. -/
structure Delivery where
  id : GoString
  eventId : GoString
  eventType : GoString
  endpointUrl : GoString
  signingKeyReference : GoString
  signingKeyId : GoString
  payload : Bytes

/-- `maxPayloadBytes`. -/
def maxPayloadBytes : ℕ := 256 * 1024

/-- `validateDelivery`. -/
def validateDelivery (lib : NetLibrary) (d : Delivery) : Except SigningError Unit :=
  if d.id.blank ∨ d.eventId.blank ∨ d.eventType.blank ∨ d.signingKeyReference.blank ∨
      d.signingKeyId.blank ∨ d.payload.length = 0 ∨ maxPayloadBytes < d.payload.length ∨
      jsonValid (scannedText d.payload) = false then .error .incomplete
  else match lib.parseUrl d.endpointUrl with
    | none => .error .endpoint
    | some endpoint =>
      if endpoint.scheme.bytes ≠ utf8 "https" ∨ endpoint.hostname = [] ∨ endpoint.hasUser ∨
          (endpoint.port ≠ [] ∧ endpoint.port.bytes ≠ utf8 "443") then .error .endpoint
      else if (lib.parseAddr endpoint.hostname).any fun a => a.isPrivate || a.isLoopback ||
          a.isLinkLocalUnicast || a.isMulticast || a.isUnspecified then .error .nonPublic
      else .ok ()

/-- `message` of `Dispatch`. -/
def Delivery.message (d : Delivery) (now : ℤ) : Bytes :=
  signedMessage (stampBytes now) d.id.bytes d.payload d.signingKeyId.bytes

/-- `Dispatch`, up to the request that it sends. -/
def dispatch (lib : NetLibrary) (hmacSha256 : Bytes → Bytes → Bytes)
    (resolve : GoString → Option Bytes) (now : ℤ) (d : Delivery) :
    Except SigningError SignedRequest := do
  validateDelivery lib d
  let key ← signingKey resolve d.signingKeyReference
  .ok {
    url := d.endpointUrl
    body := d.payload
    headers := [("Content-Type", utf8 "application/json"),
      ("User-Agent", utf8 "LedgerSync-Webhooks/1"),
      ("X-LedgerSync-Delivery-ID", d.id.bytes), ("X-LedgerSync-Event-ID", d.eventId.bytes),
      ("X-LedgerSync-Event-Type", d.eventType.bytes), ("X-LedgerSync-Timestamp", stampBytes now),
      ("X-LedgerSync-Key-ID", d.signingKeyId.bytes),
      ("X-LedgerSync-Signature", signatureHeader hmacSha256 key (d.message now))] }

/-! ## The verification dispatcher -/

/-- `Job` of the verification; the challenge as the string that is made of it. -/
structure ChallengeJob where
  id : GoString
  endpointUrl : GoString
  signingKeyReference : GoString
  signingKeyId : GoString
  challenge : GoString
  expiresAt : ℤ

/-- The checks of `Verify` before it resolves the key. -/
def ChallengeJob.validate (lib : NetLibrary) (j : ChallengeJob) : Except SigningError Unit :=
  if j.id.blank ∨ j.endpointUrl.blank ∨ j.signingKeyReference.blank ∨ j.signingKeyId.blank ∨
      j.challenge.bytes.length < 32 ∨ 255 < j.challenge.bytes.length then .error .incomplete
  else match lib.parseUrl j.endpointUrl with
    | none => .error .endpoint
    | some endpoint =>
      if endpoint.scheme.bytes ≠ utf8 "https" ∨ endpoint.hostname = [] ∨ endpoint.hasUser then
        .error .endpoint
      else .ok ()

/-- A rune inside a string that `json.Marshal` writes. -/
def jsonRune : GoRune → Bytes
  | .byte _ => utf8 "\\ufffd"
  | .char c =>
    if c = '"' ∨ c = '\\' then utf8 "\\" ++ String.utf8EncodeChar c
    else if c = '\x08' then utf8 "\\b"
    else if c = '\x0c' then utf8 "\\f"
    else if c = '\n' then utf8 "\\n"
    else if c = '\r' then utf8 "\\r"
    else if c = '\t' then utf8 "\\t"
    else if c.toNat < 0x20 ∨ c = '<' ∨ c = '>' ∨ c = '&' then
      utf8 (String.ofList ("\\u00".toList ++ hexDigits 2 c.toNat))
    else if c = '\u2028' then utf8 "\\u2028"
    else if c = '\u2029' then utf8 "\\u2029"
    else String.utf8EncodeChar c

/-- A string that `json.Marshal` writes. -/
def jsonQuoted (s : GoString) : Bytes := utf8 "\"" ++ s.flatMap jsonRune ++ utf8 "\""

/-- `body` of `Verify`. -/
def ChallengeJob.body (j : ChallengeJob) : Bytes :=
  utf8 "\x7b\"challenge\":" ++ jsonQuoted j.challenge ++ utf8 ",\"expires_at\":" ++
    jsonQuoted ((rfc3339Nano j.expiresAt).map .char) ++ utf8 "\x7d"

/-- What `Verify` signs. -/
def ChallengeJob.message (j : ChallengeJob) (now : ℤ) : Bytes :=
  signedMessage (stampBytes now) j.id.bytes j.body j.signingKeyId.bytes

/-- `Verify`, up to the request that it sends. -/
def verify (lib : NetLibrary) (hmacSha256 : Bytes → Bytes → Bytes)
    (resolve : GoString → Option Bytes) (now : ℤ) (j : ChallengeJob) :
    Except SigningError SignedRequest := do
  j.validate lib
  let key ← signingKey resolve j.signingKeyReference
  .ok {
    url := j.endpointUrl
    body := j.body
    headers := [("Content-Type", utf8 "application/json"),
      ("User-Agent", utf8 "LedgerSync-Webhook-Verification/1"),
      ("X-LedgerSync-Verification-ID", j.id.bytes), ("X-LedgerSync-Timestamp", stampBytes now),
      ("X-LedgerSync-Key-ID", j.signingKeyId.bytes),
      ("X-LedgerSync-Signature", signatureHeader hmacSha256 key (j.message now))] }

/-! ## The stamp -/

/-- The stamp is a text without `Z` and a `Z`. -/
theorem stampBytes_eq (now : ℤ) :
    stampBytes now = (stampBody now).flatMap String.utf8EncodeChar ++ [0x5a] := by
  unfold stampBytes utf8 rfc3339Nano
  rw [String.toList_ofList, List.flatMap_append]
  rfl

/-- The body of a stamp has no `Z`. -/
theorem zed_not_mem_stampBody (now : ℤ) :
    (0x5a : UInt8) ∉ (stampBody now).flatMap String.utf8EncodeChar := by
  intro h
  obtain ⟨c, hc, hbyte⟩ := List.mem_flatMap.mp h
  have hnat : c.toNat = 90 := toNat_of_mem_utf8EncodeChar hbyte (by decide)
  have hz : c = 'Z' := Char.toNat_inj.mp hnat
  rw [hz] at hc
  rcases isStampChar_stampBody hc with hdigit | hmem
  · exact absurd hdigit (by decide)
  · exact absurd hmem (by decide)

/-- A stamp and a dot in front of a text are known from the whole. -/
theorem stamp_append_inj {s t : ℤ} {l m : Bytes}
    (h : stampBytes s ++ dotByte :: l = stampBytes t ++ dotByte :: m) :
    stampBytes s = stampBytes t ∧ l = m := by
  simp only [stampBytes_eq, List.append_assoc, List.singleton_append] at h
  obtain ⟨hbody, hrest⟩ :=
    cons_append_inj (zed_not_mem_stampBody s) (zed_not_mem_stampBody t) h
  rw [stampBytes_eq, stampBytes_eq, hbody]
  exact ⟨rfl, (List.cons.inj hrest).2⟩

/-! ## The payload -/

/-- A JSON object and a dot in front of a text are known from the whole. -/
theorem object_append_inj {p q l m : Bytes} (hp : IsJsonObject (scannedText p))
    (hq : IsJsonObject (scannedText q)) (h : p ++ dotByte :: l = q ++ dotByte :: m) :
    p = q ∧ l = m := by
  -- The longer of two different objects would be the shorter one with a dot behind it.
  have hlonger : ∀ {p q c : Bytes} {b : UInt8}, IsJsonObject (scannedText p) →
      IsJsonObject (scannedText q) → b = dotByte → q ≠ p ++ b :: c := by
    rintro p q c b hp hq rfl rfl
    have hinvalid : jsonValid (scannedText p ++ '.' :: scannedText c) = false :=
      jsonValid_object_append hp (by decide)
    have hsplit : scannedText (p ++ dotByte :: c) = scannedText p ++ '.' :: scannedText c := by
      unfold scannedText
      rw [List.map_append, List.map_cons]
      rfl
    rw [IsJsonObject, hsplit, hinvalid] at hq
    exact Bool.false_ne_true hq.1
  rcases List.append_eq_append_iff.mp h with ⟨c, hqc, hc⟩ | ⟨c, hpc, hc⟩
  · rcases c with _ | ⟨b, c⟩
    · rw [List.append_nil] at hqc
      exact ⟨hqc.symm, (List.cons.inj hc).2⟩
    · exact absurd hqc (hlonger hp hq (List.cons.inj hc).1.symm)
  · rcases c with _ | ⟨b, c⟩
    · rw [List.append_nil] at hpc
      exact ⟨hpc, (List.cons.inj hc).2.symm⟩
    · exact absurd hpc (hlonger hq hp (List.cons.inj hc).1.symm)

/-- The signed bytes determine the four fields. -/
theorem signedMessage_inj {s t : ℤ} {id id' payload payload' keyId keyId' : Bytes}
    (hid : dotByte ∉ id) (hid' : dotByte ∉ id') (hp : IsJsonObject (scannedText payload))
    (hp' : IsJsonObject (scannedText payload'))
    (h : signedMessage (stampBytes s) id payload keyId =
      signedMessage (stampBytes t) id' payload' keyId') :
    stampBytes s = stampBytes t ∧ id = id' ∧ payload = payload' ∧ keyId = keyId' := by
  unfold signedMessage at h
  simp only [List.append_assoc, List.singleton_append] at h
  obtain ⟨hstamp, hrest⟩ := stamp_append_inj h
  obtain ⟨hids, hrest⟩ := cons_append_inj hid hid' hrest
  obtain ⟨hpayload, hkey⟩ := object_append_inj hp hp' hrest
  exact ⟨hstamp, hids, hpayload, hkey⟩

/-! ## The body of a verification -/

/-- The pieces of a text inside quotes. -/
def IsStringText (b : Bytes) : Prop :=
  ∃ pieces : List (List Char), (∀ p ∈ pieces, StringPiece p) ∧ scannedText b = pieces.flatten

/-- Texts inside of strings join to one. -/
theorem isStringText_append {a b : Bytes} (ha : IsStringText a) (hb : IsStringText b) :
    IsStringText (a ++ b) := by
  obtain ⟨ps, hps, has⟩ := ha
  obtain ⟨qs, hqs, hbs⟩ := hb
  refine ⟨ps ++ qs, fun p hp => ?_, ?_⟩
  · rcases List.mem_append.mp hp with hp | hp
    · exact hps p hp
    · exact hqs p hp
  · rw [List.flatten_append, ← has, ← hbs]
    exact List.map_append

/-- A piece of a string is such a text. -/
theorem isStringText_piece {b : Bytes} (h : StringPiece (scannedText b)) : IsStringText b :=
  ⟨[scannedText b], by simpa using h, by simp⟩

/-- A character that needs no escape. -/
theorem isStringText_char {c : Char} (quote : c ≠ '"') (backslash : c ≠ '\\')
    (control : 32 ≤ c.toNat) : IsStringText (String.utf8EncodeChar c) := by
  refine ⟨(String.utf8EncodeChar c).map fun b => [Char.ofNat b.toNat], fun p hp => ?_, ?_⟩
  · obtain ⟨b, hb, rfl⟩ := List.mem_map.mp hp
    have hvalid : b.toNat.isValidChar := .inl (by have := b.toNat_lt; omega)
    have hnat : (Char.ofNat b.toNat).toNat = b.toNat := by
      unfold Char.ofNat
      rw [dif_pos hvalid]
      rfl
    -- A byte of ASCII is the character itself.
    have hbyte : b.toNat < 128 → c.toNat = b.toNat := toNat_of_mem_utf8EncodeChar hb
    refine .plain ?_ ?_ ?_
    · intro h
      rw [h] at hnat
      have hnat : b.toNat = 34 := hnat.symm
      exact quote (Char.toNat_inj.mp ((hbyte (by omega)).trans hnat))
    · intro h
      rw [h] at hnat
      have hnat : b.toNat = 92 := hnat.symm
      exact backslash (Char.toNat_inj.mp ((hbyte (by omega)).trans hnat))
    · rw [hnat]
      by_contra hlow
      have := hbyte (by omega)
      omega
  · unfold scannedText
    induction String.utf8EncodeChar c with
    | nil => rfl
    | cons b bs ih =>
      rw [List.map_cons, List.map_cons, List.flatten_cons, ih]
      rfl

/-- Whether a text is an escape of four hexadecimal digits. -/
def isUnicodeEscape (b : Bytes) : Bool :=
  match scannedText b with
  | ['\\', 'u', w, x, y, z] => [w, x, y, z].all isJsonHex
  | _ => false

/-- An escape of a code unit is such a text. -/
theorem isStringText_escape {b : Bytes} (h : isUnicodeEscape b = true) : IsStringText b := by
  unfold isUnicodeEscape at h
  split at h
  · next w x y z heq =>
    refine isStringText_piece ?_
    rw [heq]
    exact .unicode (List.all_eq_true.mp h)
  · cases h

/-- The escapes of the ASCII characters are escapes. -/
theorem isUnicodeEscape_low : ∀ n < 128,
    isUnicodeEscape (utf8 (String.ofList ("\\u00".toList ++ hexDigits 2 n))) = true := by
  unfold utf8
  simp only [String.toList_ofList]
  decide +kernel

/-- A rune is written as a text inside quotes. -/
theorem isStringText_jsonRune (r : GoRune) : IsStringText (jsonRune r) := by
  -- Each rune is a plain character or one of the escapes.
  cases r with
  | byte b =>
    have hreplaced : isUnicodeEscape (utf8 "\\ufffd") = true := by decide
    exact isStringText_escape hreplaced
  | char c =>
    simp only [jsonRune]
    split_ifs with hquote hb hf hn hr ht hlow hline hparagraph
    · rcases hquote with rfl | rfl
      · exact isStringText_piece (.escape (by decide))
      · exact isStringText_piece (.escape (by decide))
    · exact isStringText_piece (.escape (by decide))
    · exact isStringText_piece (.escape (by decide))
    · exact isStringText_piece (.escape (by decide))
    · exact isStringText_piece (.escape (by decide))
    · exact isStringText_piece (.escape (by decide))
    · refine isStringText_escape (isUnicodeEscape_low _ ?_)
      rcases hlow with hlow | rfl | rfl | rfl
      · omega
      · decide
      · decide
      · decide
    · exact isStringText_escape (by decide)
    · exact isStringText_escape (by decide)
    · rw [not_or] at hquote hlow
      exact isStringText_char hquote.1 hquote.2 (Nat.not_lt.mp hlow.1)

/-- A text that was written for JSON is inside of a string. -/
theorem isStringText_runes (s : GoString) : IsStringText (s.flatMap jsonRune) := by
  induction s with
  | nil => exact ⟨[], by simp, rfl⟩
  | cons r s ih =>
    rw [List.flatMap_cons]
    exact isStringText_append (isStringText_jsonRune r) ih

/-- The body is a JSON object. -/
theorem isJsonObject_body (j : ChallengeJob) : IsJsonObject (scannedText j.body) := by
  -- The two values are quoted texts, and the rest is fixed.
  obtain ⟨challenge, hchallenge, hchallengeText⟩ := isStringText_runes j.challenge
  obtain ⟨expires, hexpires, hexpiresText⟩ :=
    isStringText_runes ((rfc3339Nano j.expiresAt).map .char)
  -- The scanner walks over braces, names and values in turn.
  have hbody : scannedText j.body = '\x7b' :: '"' ::
      (("challenge".toList.map ([·])).flatten ++ '"' :: ':' :: '"' :: (challenge.flatten ++ '"' ::
        ',' :: '"' :: (("expires_at".toList.map ([·])).flatten ++ '"' :: ':' :: '"' ::
          (expires.flatten ++ ['"', '\x7d'])))) := by
    have hopen : scannedText (utf8 "\x7b\"challenge\":") = '\x7b' :: '"' ::
        (("challenge".toList.map ([·])).flatten ++ ['"', ':']) := by decide +kernel
    have hmiddle : scannedText (utf8 ",\"expires_at\":") = ',' :: '"' ::
        (("expires_at".toList.map ([·])).flatten ++ ['"', ':']) := by decide +kernel
    have hquote : scannedText (utf8 "\"") = ['"'] := by decide +kernel
    have hclose : scannedText (utf8 "\x7d") = ['\x7d'] := by decide +kernel
    have happend : ∀ a b : Bytes, scannedText (a ++ b) = scannedText a ++ scannedText b :=
      fun _ _ => List.map_append
    unfold ChallengeJob.body jsonQuoted
    simp only [happend, hopen, hmiddle, hquote, hclose, hchallengeText, hexpiresText,
      List.append_assoc, List.cons_append, List.nil_append]
  have hname : ∀ name : String, (name.toList.all fun c =>
      c ≠ '"' ∧ c ≠ '\\' ∧ 32 ≤ c.toNat) = true → ∀ p ∈ name.toList.map ([·]), StringPiece p := by
    intro name h p hp
    obtain ⟨c, hc, rfl⟩ := List.mem_map.mp hp
    obtain ⟨quote, backslash, control⟩ := of_decide_eq_true (List.all_eq_true.mp h c hc)
    exact .plain quote backslash control
  -- Read from the left, the body begins with a brace.
  have hbrace : ((scannedText j.body).dropWhile isJsonSpace).head? = some '\x7b' := by
    rw [hbody, List.dropWhile_cons_of_neg (by decide), List.head?_cons]
  refine ⟨?_, hbrace⟩
  rw [hbody, jsonValid]
  have hopen : (⟨.beginValue, []⟩ : Scanner).step '\x7b' =
      some ⟨.beginStringOrEmpty, [.objectKey]⟩ := rfl
  have hcomma : (⟨.endValue, [.objectValue]⟩ : Scanner).step ',' =
      some ⟨.beginString, [.objectKey]⟩ := rfl
  rw [Scanner.accepts_cons hopen, Scanner.accepts_name (hname "challenge" (by decide)) (.inr rfl),
    Scanner.accepts_string hchallenge, Scanner.accepts_cons hcomma,
    Scanner.accepts_name (hname "expires_at" (by decide)) (.inl rfl),
    Scanner.accepts_string hexpires]
  rfl

/-! ## What the dispatchers sign -/

/-- An accepted payload is a JSON text. -/
theorem jsonValid_of_validateDelivery {lib : NetLibrary} {d : Delivery}
    (h : validateDelivery lib d = .ok ()) : jsonValid (scannedText d.payload) = true := by
  unfold validateDelivery at h
  split at h
  · cases h
  · next hcomplete =>
    simp only [not_or, Bool.not_eq_false] at hcomplete
    exact hcomplete.2.2.2.2.2.2.2

section Signing

variable {lib : NetLibrary} {hmacSha256 : Bytes → Bytes → Bytes} {resolve : GoString → Option Bytes}
  {now : ℤ} {r : SignedRequest}

/-- A key that signs was resolved and has 32 octets at least. -/
theorem signingKey_ok {reference : GoString} {key : Bytes}
    (h : signingKey resolve reference = .ok key) :
    resolve reference = some key ∧ 32 ≤ key.length := by
  unfold signingKey at h
  split at h
  · cases h
  · next found hfound =>
    split at h
    · cases h
    · next hlength => exact ⟨Except.ok.inj h ▸ hfound, Except.ok.inj h ▸ Nat.not_lt.mp hlength⟩

/-- A request of the delivery dispatcher carries the payload of a valid delivery and the signature
of its message. -/
theorem dispatch_signs {d : Delivery} (h : dispatch lib hmacSha256 resolve now d = .ok r) :
    validateDelivery lib d = .ok () ∧ r.body = d.payload ∧
      ∃ key, resolve d.signingKeyReference = some key ∧ 32 ≤ key.length ∧
        ("X-LedgerSync-Signature", signatureHeader hmacSha256 key (d.message now)) ∈ r.headers := by
  unfold dispatch at h
  rcases hvalid : validateDelivery lib d with e | u
  · rw [hvalid] at h
    cases h
  rcases hkey : signingKey resolve d.signingKeyReference with e | key
  · rw [hvalid, hkey] at h
    cases h
  rw [hvalid, hkey] at h
  obtain ⟨hresolve, hlength⟩ := signingKey_ok hkey
  rw [← Except.ok.inj h]
  exact ⟨rfl, rfl, key, hresolve, hlength, by simp⟩

/-- A request of the verification dispatcher carries the body and the signature of its message. -/
theorem verify_signs {j : ChallengeJob} (h : verify lib hmacSha256 resolve now j = .ok r) :
    j.validate lib = .ok () ∧ r.body = j.body ∧
      ∃ key, resolve j.signingKeyReference = some key ∧ 32 ≤ key.length ∧
        ("X-LedgerSync-Signature", signatureHeader hmacSha256 key (j.message now)) ∈ r.headers := by
  unfold verify at h
  rcases hvalid : j.validate lib with e | u
  · rw [hvalid] at h
    cases h
  rcases hkey : signingKey resolve j.signingKeyReference with e | key
  · rw [hvalid, hkey] at h
    cases h
  rw [hvalid, hkey] at h
  obtain ⟨hresolve, hlength⟩ := signingKey_ok hkey
  rw [← Except.ok.inj h]
  exact ⟨rfl, rfl, key, hresolve, hlength, by simp⟩

end Signing

/-! ## What a signature binds -/

/-- The first character of the payload that is no blank opens an object. -/
def Delivery.OpensObject (d : Delivery) : Prop :=
  ((scannedText d.payload).dropWhile isJsonSpace).head? = some '\x7b'

/-- Stamps are texts. -/
theorem rfc3339Nano_of_stampBytes {s t : ℤ} (h : stampBytes s = stampBytes t) :
    rfc3339Nano s = rfc3339Nano t :=
  String.ofList_injective (utf8_inj.mp h)

/-- The message of a delivery determines its four fields. -/
theorem Delivery.message_inj {lib lib' : NetLibrary} {d e : Delivery} {s t : ℤ}
    (hd : validateDelivery lib d = .ok ()) (he : validateDelivery lib' e = .ok ())
    (hid : dotByte ∉ d.id.bytes) (hid' : dotByte ∉ e.id.bytes) (hopen : d.OpensObject)
    (hopen' : e.OpensObject) (h : d.message s = e.message t) :
    rfc3339Nano s = rfc3339Nano t ∧ d.id.bytes = e.id.bytes ∧ d.payload = e.payload ∧
      d.signingKeyId.bytes = e.signingKeyId.bytes := by
  have hobject : IsJsonObject (scannedText d.payload) := ⟨jsonValid_of_validateDelivery hd, hopen⟩
  have hobject' : IsJsonObject (scannedText e.payload) :=
    ⟨jsonValid_of_validateDelivery he, hopen'⟩
  obtain ⟨hstamp, hrest⟩ := signedMessage_inj hid hid' hobject hobject' h
  exact ⟨rfc3339Nano_of_stampBytes hstamp, hrest⟩

/-- The message of a verification determines its four fields. -/
theorem ChallengeJob.message_inj {i j : ChallengeJob} {s t : ℤ} (hid : dotByte ∉ i.id.bytes)
    (hid' : dotByte ∉ j.id.bytes) (h : i.message s = j.message t) :
    rfc3339Nano s = rfc3339Nano t ∧ i.id.bytes = j.id.bytes ∧ i.body = j.body ∧
      i.signingKeyId.bytes = j.signingKeyId.bytes := by
  obtain ⟨hstamp, hrest⟩ :=
    signedMessage_inj hid hid' (isJsonObject_body i) (isJsonObject_body j) h
  exact ⟨rfc3339Nano_of_stampBytes hstamp, hrest⟩

/-- **What the receiver of a delivery can rely on.** The request carries a signature under a key of
at least 32 bytes, and every other request of the dispatcher for which the same bytes are signed has
the same body. -/
theorem dispatched_body_bound {lib : NetLibrary} {hmacSha256 : Bytes → Bytes → Bytes}
    {resolve : GoString → Option Bytes} {s : ℤ} {d : Delivery} {r : SignedRequest}
    (h : dispatch lib hmacSha256 resolve s d = .ok r) (hid : dotByte ∉ d.id.bytes)
    (hopen : d.OpensObject) :
    ∃ key, 32 ≤ key.length ∧
      ("X-LedgerSync-Signature", signatureHeader hmacSha256 key (d.message s)) ∈ r.headers ∧
        ∀ e t r', dispatch lib hmacSha256 resolve t e = .ok r' → dotByte ∉ e.id.bytes →
          e.OpensObject → e.message t = d.message s → r'.body = r.body := by
  obtain ⟨hvalid, hbody, key, -, hlength, hsigned⟩ := dispatch_signs h
  refine ⟨key, hlength, hsigned, fun e t r' h' hid' hopen' hmessage => ?_⟩
  obtain ⟨hvalid', hbody', -⟩ := dispatch_signs h'
  obtain ⟨-, -, hpayload, -⟩ := Delivery.message_inj hvalid' hvalid hid' hid hopen' hopen hmessage
  rw [hbody, hbody', hpayload]

/-- **What the receiver of a challenge can rely on**, in the same way. -/
theorem verified_body_bound {lib : NetLibrary} {hmacSha256 : Bytes → Bytes → Bytes}
    {resolve : GoString → Option Bytes} {s : ℤ} {j : ChallengeJob} {r : SignedRequest}
    (h : verify lib hmacSha256 resolve s j = .ok r) (hid : dotByte ∉ j.id.bytes) :
    ∃ key, 32 ≤ key.length ∧
      ("X-LedgerSync-Signature", signatureHeader hmacSha256 key (j.message s)) ∈ r.headers ∧
        ∀ i t r', verify lib hmacSha256 resolve t i = .ok r' → dotByte ∉ i.id.bytes →
          i.message t = j.message s → r'.body = r.body := by
  obtain ⟨-, hbody, key, -, hlength, hsigned⟩ := verify_signs h
  refine ⟨key, hlength, hsigned, fun i t r' h' hid' hmessage => ?_⟩
  obtain ⟨-, hbody', -⟩ := verify_signs h'
  obtain ⟨-, -, hsame, -⟩ := ChallengeJob.message_inj hid' hid hmessage
  rw [hbody, hbody', hsame]

/-- Two deliveries, or two verifications, for which the same bytes are signed have the same stamp,
id, payload and id of the key. The ids have no dot, and the payloads of the deliveries are objects.
-/
theorem signed_bytes_bind (lib : NetLibrary) (s t : ℤ) :
    (∀ d e : Delivery, validateDelivery lib d = .ok () → validateDelivery lib e = .ok () →
      dotByte ∉ d.id.bytes → dotByte ∉ e.id.bytes → d.OpensObject → e.OpensObject →
      d.message s = e.message t →
        rfc3339Nano s = rfc3339Nano t ∧ d.id.bytes = e.id.bytes ∧ d.payload = e.payload ∧
          d.signingKeyId.bytes = e.signingKeyId.bytes) ∧
    (∀ i j : ChallengeJob, dotByte ∉ i.id.bytes → dotByte ∉ j.id.bytes →
      i.message s = j.message t →
        rfc3339Nano s = rfc3339Nano t ∧ i.id.bytes = j.id.bytes ∧ i.body = j.body ∧
          i.signingKeyId.bytes = j.signingKeyId.bytes) := by
  constructor
  · intro _ _ hd he hid hid' hopen hopen' h
    exact Delivery.message_inj hd he hid hid' hopen hopen' h
  · intro _ _ hid hid' h
    exact ChallengeJob.message_inj hid hid' h

/-- An ASCII text as a Go string. -/
def sampleText (s : String) : GoString := s.toList.map .char

/-- A library that knows one URL, whose host is a name. -/
def sampleNet : NetLibrary where
  parseUrl s := if s = sampleText "https://hooks.example/x" then
    some ⟨sampleText "https", sampleText "hooks.example", false, []⟩ else none
  parseAddr _ := none

/-- A delivery of an event whose payload has dots and whose key has one. -/
def sampleDelivery (event : String) : Delivery where
  id := sampleText "3f"
  eventId := sampleText event
  eventType := sampleText "transfer.posted.v1"
  endpointUrl := sampleText "https://hooks.example/x"
  signingKeyReference := sampleText "vault/a"
  signingKeyId := sampleText "k.1"
  payload := utf8 " \x7b\"a\":1.5,\"b\":\".\"\x7d"

/-- The two sample deliveries have the same payload, as what was signed for them shows. -/
theorem signed_bytes_bind_sample :
    (sampleDelivery "e1").payload = (sampleDelivery "e2").payload :=
  have hvalid : ∀ event ∈ ["e1", "e2"],
      validateDelivery sampleNet (sampleDelivery event) = .ok () := by decide +kernel
  have hdot : dotByte ∉ (sampleDelivery "e1").id.bytes := by decide +kernel
  have hopen : ((scannedText (sampleDelivery "e1").payload).dropWhile isJsonSpace).head? =
    some '\x7b' := by decide +kernel
  have hmessage : (sampleDelivery "e1").message 0 = (sampleDelivery "e2").message 0 := by
    unfold sampleDelivery Delivery.message
    rfl
  ((signed_bytes_bind sampleNet 0 0).1 (sampleDelivery "e1") (sampleDelivery "e2")
    (hvalid "e1" (by simp)) (hvalid "e2" (by simp)) hdot hdot hopen hopen hmessage).2.2.1

end LedgerSync
