import LedgerSync.Funding
import LedgerSync.Lib.Framing
import LedgerSync.LiveRooms

/-!
# Request fingerprints

A service digests the fields of a request before it calls a stored procedure, and the procedure
digests its arguments again: a request under a key that is taken is a repetition when the two
fingerprints are the same. The transfers join their fields with line breaks, the requests of finance
join them with zero bytes, and the other commands write the length of each field before it.

The digest is a function that a set of texts is not confused by: no function to 32 bytes is one to
one on all texts.
-/

namespace LedgerSync

open Lib

/-! ## Digests -/

/-- SHA-256. -/
structure Sha256 where
  /-- The digest of some bytes. -/
  sum : Bytes → Bytes
  /-- A digest has 32 bytes. -/
  length_sum : ∀ b, (sum b).length = 32

/-- The digest function of the database. -/
def Sha256.digest (h : Sha256) : Digest := ⟨fun s => h.sum (utf8 s), fun s => h.length_sum (utf8 s)⟩

/-- `controlled_fingerprint_parts_v1`. A part that is null is left out; there is no digest without
parts. -/
def Sha256.fingerprintPartsV1 (h : Sha256) (parts : List (Option String)) : Option Bytes :=
  match parts.filterMap id with
  | [] => none
  | values =>
    (hexDecode? ("00".toList.intercalate (values.map fun v => hexEncode (utf8 v)))).map h.sum

/-- `sha256.Sum256([]byte(strings.Join(fields, "\x00")))`. -/
def Sha256.joined (h : Sha256) (fields : List String) : Bytes :=
  h.sum (utf8 ("\x00".intercalate fields))

/-- A text without a zero byte. -/
def NulFree (s : String) : Prop := '\x00' ∉ s.toList

/-! ## Transfers -/

namespace Transfers

/-- The errors of the service. -/
inductive Error where
  | invalidIdempotencyKey
  | invalidRequest
  | invalidCommand
  /-- An argument that the database cannot read. -/
  | encoding

/-- The text of an `identifier.UUID`, which is empty where there is none. -/
def identifierText : Option Uuid → String
  | none => ""
  | some u => u.text

/-- `IdempotencyRequest`. -/
structure IdempotencyRequest where
  tenantId : Option Uuid
  actorSubjectId : String
  operation : String
  key : String
  debitAccountId : Option Uuid
  creditAccountId : Option Uuid
  amount : Money

/-- `Fingerprint`. -/
def fingerprint (h : Sha256) (r : IdempotencyRequest) : Except Error Bytes :=
  if ¬IsKey (trimSpace r.key) then .error .invalidIdempotencyKey
  else if r.operation ≠ transfersCreateV1 ∨ r.tenantId = none ∨ trimSpace r.actorSubjectId = "" ∨
      r.debitAccountId = none ∨ r.creditAccountId = none ∨ r.debitAccountId = r.creditAccountId ∨
      ¬0 < (r.amount.minor : ℤ) then .error .invalidRequest
  else .ok (h.sum (utf8 ("\n".intercalate [identifierText r.tenantId, r.actorSubjectId, r.operation,
    identifierText r.debitAccountId, identifierText r.creditAccountId, r.amount.currency.code,
    r.amount.minor.text])))

/-- `Command`. -/
structure Command where
  tenantId : Option Uuid
  actorSubjectId : String
  debitAccountId : Option Uuid
  creditAccountId : Option Uuid
  amount : Money
  idempotencyKey : String
  requestReference : String
  correlationId : String
  occurredAt : Option Timestamp

/-- `normalize`. -/
def Command.normalize (c : Command) : Command :=
  { c with
    actorSubjectId := trimSpace c.actorSubjectId
    idempotencyKey := trimSpace c.idempotencyKey
    requestReference := toLower (trimSpace c.requestReference)
    correlationId := trimSpace c.correlationId }

/-- `validateCommand`. -/
def Command.validate (c : Command) : Except Error Unit :=
  if c.tenantId = none ∨ c.actorSubjectId = "" ∨ c.debitAccountId = none ∨
      c.creditAccountId = none ∨ c.debitAccountId = c.creditAccountId then .error .invalidCommand
  else if ¬0 < (c.amount.minor : ℤ) then .error .invalidCommand
  else if ¬IsKey (trimSpace c.idempotencyKey) then .error .invalidIdempotencyKey
  else if c.requestReference ≠ "" ∧ ¬IsLiveUuid (toLower (trimSpace c.requestReference)) then
    .error .invalidCommand
  else .ok ()

/-- The fields of a command that its fingerprint is of. -/
def Command.identity (c : Command) : IdempotencyRequest where
  tenantId := c.tenantId
  actorSubjectId := c.actorSubjectId
  operation := transfersCreateV1
  key := c.idempotencyKey
  debitAccountId := c.debitAccountId
  creditAccountId := c.creditAccountId
  amount := c.amount

/-- The correlation of a command, which the repository generates where there is none. -/
def Command.correlation? (c : Command) (generated : Uuid) : Option Uuid :=
  if c.correlationId = "" then some generated else Uuid.ofText? c.correlationId

/-- The arguments with which the repository calls `controlled_submit_transfer_v1`. -/
def Command.arguments (c : Command) (requestFingerprint : Bytes) (pilotCurrency : String)
    (generated : Uuid) (clock : Timestamp) : Option TransferRequest := do
  let tenantId ← c.tenantId
  let debitAccountId ← c.debitAccountId
  let creditAccountId ← c.creditAccountId
  let correlationId ← c.correlation? generated
  pure ⟨tenantId, c.actorSubjectId, debitAccountId, creditAccountId, c.amount.minor,
    c.amount.currency.code, c.idempotencyKey, requestFingerprint, correlationId, pilotCurrency,
    c.occurredAt.getD clock⟩

/-- `Service.Submit`, up to the call of the stored procedure. -/
def submit (h : Sha256) (pilotCurrency : String) (generated : Uuid) (clock : Timestamp)
    (c : Command) : Except Error TransferRequest := do
  let c := c.normalize
  c.validate
  let f ← fingerprint h c.identity
  match c.arguments f pilotCurrency generated clock with
  | none => .error .encoding
  | some p => pure p

end Transfers

/-! ## Finance -/

namespace Funding

/-- `RequestCommand`. -/
structure RequestCommand where
  tenantId : String
  actorSubjectId : String
  destinationAccountId : String
  amount : Money
  externalReference : String
  evidenceReference : String
  idempotencyKey : String
  correlationId : String
  requestedAt : Option Timestamp

/-- `normalizeRequest`. -/
def RequestCommand.normalize (c : RequestCommand) : RequestCommand :=
  { c with
    tenantId := trimSpace c.tenantId
    actorSubjectId := trimSpace c.actorSubjectId
    destinationAccountId := trimSpace c.destinationAccountId
    externalReference := trimSpace c.externalReference
    evidenceReference := trimSpace c.evidenceReference
    idempotencyKey := trimSpace c.idempotencyKey
    correlationId := trimSpace c.correlationId }

/-- The fields of `requestFingerprint`. -/
def RequestCommand.fields (c : RequestCommand) : List String :=
  [c.tenantId, c.actorSubjectId, c.destinationAccountId, c.amount.currency.code, c.amount.minor.text,
    c.externalReference, c.evidenceReference]

/-- `requestFingerprint`. -/
def requestFingerprint (h : Sha256) (c : RequestCommand) : Bytes := h.joined c.fields

/-- `Service.Request`, up to the call of the stored procedure. -/
def request (h : Sha256) (clock : Timestamp) (c : RequestCommand) : Option FundingRequest :=
  let c := c.normalize
  if c.tenantId = "" ∨ c.actorSubjectId = "" ∨ c.destinationAccountId = "" ∨
      c.externalReference = "" ∨ c.evidenceReference = "" ∨ c.idempotencyKey.utf8ByteSize < 16 ∨
      c.correlationId = "" ∨ ¬0 < (c.amount.minor : ℤ) then none
  else do
    let tenant ← Uuid.ofText? c.tenantId
    let destination ← Uuid.ofText? c.destinationAccountId
    let correlation ← Uuid.ofText? c.correlationId
    pure ⟨tenant, c.actorSubjectId, destination, c.amount.currency.code, c.amount.minor,
      c.externalReference, c.evidenceReference, c.idempotencyKey, requestFingerprint h c,
      correlation, c.requestedAt.getD clock⟩

/-- `CompensationCommand`. -/
structure CompensationCommand where
  tenantId : String
  actorSubjectId : String
  fundingEventId : String
  reasonCode : String
  operatorNote : String
  idempotencyKey : String
  correlationId : String
  occurredAt : Option Timestamp

/-- `normalizeCompensation`, without the clock. -/
def CompensationCommand.normalize (c : CompensationCommand) : CompensationCommand :=
  { c with
    tenantId := trimSpace c.tenantId
    actorSubjectId := trimSpace c.actorSubjectId
    fundingEventId := trimSpace c.fundingEventId
    reasonCode := trimSpace c.reasonCode
    operatorNote := trimSpace c.operatorNote
    idempotencyKey := trimSpace c.idempotencyKey
    correlationId := trimSpace c.correlationId }

/-- The fields of `compensationFingerprint`. -/
def CompensationCommand.fields (c : CompensationCommand) : List String :=
  [c.tenantId, c.actorSubjectId, c.fundingEventId, c.reasonCode, c.operatorNote]

/-- `compensationFingerprint`. -/
def compensationFingerprint (h : Sha256) (c : CompensationCommand) : Bytes := h.joined c.fields

/-- `Service.Compensate`, up to the call of the stored procedure. -/
def compensate (h : Sha256) (clock : Timestamp) (c : CompensationCommand) :
    Option CompensationRequest :=
  let c := c.normalize
  if c.tenantId = "" ∨ c.actorSubjectId = "" ∨ c.fundingEventId = "" ∨ c.reasonCode = "" ∨
      c.operatorNote = "" ∨ c.idempotencyKey.utf8ByteSize < 16 ∨ c.correlationId = "" then none
  else do
    let tenant ← Uuid.ofText? c.tenantId
    let original ← Uuid.ofText? c.fundingEventId
    let correlation ← Uuid.ofText? c.correlationId
    pure ⟨tenant, c.actorSubjectId, original, c.reasonCode, c.operatorNote, c.idempotencyKey,
      compensationFingerprint h c, correlation, c.occurredAt.getD clock⟩

end Funding

namespace Corrections

/-- `RequestCommand`. -/
structure RequestCommand where
  tenantId : String
  actorSubjectId : String
  originalTransferId : String
  reasonCode : String
  operatorNote : String
  idempotencyKey : String
  correlationId : String
  stepUpAuthenticatedAt : Option Timestamp
  requestedAt : Option Timestamp

/-- The command with its texts trimmed. -/
def RequestCommand.normalize (c : RequestCommand) : RequestCommand :=
  { c with
    tenantId := trimSpace c.tenantId
    actorSubjectId := trimSpace c.actorSubjectId
    originalTransferId := trimSpace c.originalTransferId
    reasonCode := trimSpace c.reasonCode
    operatorNote := trimSpace c.operatorNote
    idempotencyKey := trimSpace c.idempotencyKey
    correlationId := trimSpace c.correlationId }

/-- The fields of the fingerprint. -/
def RequestCommand.fields (c : RequestCommand) : List String :=
  [c.tenantId, c.actorSubjectId, c.originalTransferId, c.reasonCode, c.operatorNote]

/-- The fingerprint of a request. -/
def requestFingerprint (h : Sha256) (c : RequestCommand) : Bytes := h.joined c.fields

/-- `Service.Request`, up to the call of the stored procedure. -/
def request (h : Sha256) (clock : Timestamp) (c : RequestCommand) : Option CorrectionRequest :=
  let c := c.normalize
  if c.tenantId = "" ∨ c.actorSubjectId = "" ∨ c.originalTransferId = "" ∨ c.operatorNote = "" ∨
      500 < c.operatorNote.utf8ByteSize ∨ c.idempotencyKey.utf8ByteSize < 16 ∨
      255 < c.idempotencyKey.utf8ByteSize ∨ c.correlationId = "" ∨
      trimSpace c.reasonCode ∉ correctionReasons then none
  else do
    let tenant ← Uuid.ofText? c.tenantId
    let original ← Uuid.ofText? c.originalTransferId
    let correlation ← Uuid.ofText? c.correlationId
    pure ⟨tenant, c.actorSubjectId, original, c.reasonCode, c.operatorNote, c.idempotencyKey,
      requestFingerprint h c, correlation, c.requestedAt.getD clock, c.stepUpAuthenticatedAt⟩

end Corrections

/-! ## Other commands -/

namespace Idempotency

/-- A Go string: bytes, whose number is an `int`. -/
structure Text where
  bytes : Bytes
  short : bytes.length < 2 ^ 63

/-- `writeField`. -/
def writeField (value : Text) : Bytes := frame 8 value.bytes

/-- `Fingerprint`. -/
def fingerprint (h : Sha256) (fields : List Text) : Bytes := h.sum (fields.flatMap writeField)

end Idempotency

/-! ## Digests of joined fields -/

section Digests

variable {h : Sha256} {texts : Set Bytes}

/-- Texts that the digest does not confuse are the same when their digests are. -/
theorem Sha256.sum_inj (hsha : Set.InjOn h.sum texts) {s t : String} (hs : utf8 s ∈ texts)
    (ht : utf8 t ∈ texts) : h.sum (utf8 s) = h.sum (utf8 t) ↔ s = t := by
  constructor
  · intro hsum
    exact utf8_inj.mp (hsha hs ht hsum)
  · rintro rfl
    rfl

/-- Fields without a zero byte are known from what they are joined to. -/
theorem joined_inj {fields fields' : List String} (hfree : ∀ f ∈ fields, NulFree f)
    (hfree' : ∀ f ∈ fields', NulFree f) (hne : fields ≠ []) (hne' : fields' ≠ [])
    (heq : "\x00".intercalate fields = "\x00".intercalate fields') : fields = fields' := by
  have hlist := congrArg String.toList heq
  rw [String.toList_intercalate, String.toList_intercalate] at hlist
  have hmap : fields.map String.toList = fields'.map String.toList := by
    refine intercalate_inj (x := '\x00') (fun f hf => ?_) (fun f hf => ?_) (by simpa using hne)
      (by simpa using hne') hlist
    · obtain ⟨s, hs, rfl⟩ := List.mem_map.mp hf
      exact hfree s hs
    · obtain ⟨s, hs, rfl⟩ := List.mem_map.mp hf
      exact hfree' s hs
  exact List.map_injective_iff.mpr (fun _ _ => String.toList_inj.mp) hmap

/-- Joined fields have the same digest exactly when they are the same. -/
theorem Sha256.joined_eq_iff (hsha : Set.InjOn h.sum texts) {fields fields' : List String}
    (hfree : ∀ f ∈ fields, NulFree f) (hfree' : ∀ f ∈ fields', NulFree f) (hne : fields ≠ [])
    (hne' : fields' ≠ []) (ht : utf8 ("\x00".intercalate fields) ∈ texts)
    (ht' : utf8 ("\x00".intercalate fields') ∈ texts) :
    h.joined fields = h.joined fields' ↔ fields = fields' := by
  unfold Sha256.joined
  rw [Sha256.sum_inj hsha ht ht']
  constructor
  · exact joined_inj hfree hfree' hne hne'
  · rintro rfl
    rfl

/-- The database digests the same bytes as the services. -/
theorem Sha256.fingerprintPartsV1_eq (parts : List String) (hne : parts ≠ []) :
    h.fingerprintPartsV1 (parts.map some) = some (h.joined parts) := by
  have hvalues : (parts.map some).filterMap id = parts := by
    simp
  have hzero : "00".toList = hexEncode [0] := by decide
  unfold Sha256.fingerprintPartsV1
  rw [hvalues]
  rcases parts with _ | ⟨s, parts⟩
  · exact absurd rfl hne
  · show (hexDecode? ("00".toList.intercalate ((s :: parts).map fun v => hexEncode (utf8 v)))).map
      h.sum = _
    have hmap : ((s :: parts).map fun v => hexEncode (utf8 v)) =
        ((s :: parts).map utf8).map hexEncode := by
      rw [List.map_map]
      rfl
    rw [hmap, hzero, hexDecode?_intercalate, ← utf8_intercalate (show utf8 "\x00" = [0] by decide)]
    rfl

end Digests

/-! ## Transfers -/

section Submissions

variable {h : Sha256} {texts : Set Bytes}

/-- A text that was trimmed of every space has no blank at its ends. -/
theorem trimmed_trimSpace (s : String) : Trimmed (trimSpace s) := by
  have hblank : isSpace ' ' = true := by decide
  constructor
  · intro hhead
    rw [isSpace_of_head hhead] at hblank
    cases hblank
  · intro hlast
    rw [isSpace_of_last hlast] at hblank
    cases hblank

/-- A line break does not occur in the decimal text of a positive number. -/
theorem not_mem_text {b : Bigint} (hpos : 0 < (b : ℤ)) : '\n' ∉ b.text.toList := by
  obtain ⟨n, hn⟩ := Int.eq_ofNat_of_zero_le hpos.le
  rw [Bigint.text, hn]
  intro hmem
  have hdigit := Nat.isDigit_of_mem_toDigits (b := 10) (by decide) (by decide)
    (by simpa [decimal] using hmem)
  exact absurd hdigit (by decide)

/-- The text of a valid request tells its fields. The actor may hold line breaks: the identifier of
the tenant has a fixed length, and so have the fields after the actor, but for the amount, which is
all that follows the last line break. -/
theorem TransferRequest.canonical_inj {p q : TransferRequest} (hp : p.WellFormed)
    (hq : q.WellFormed) (heq : p.canonical = q.canonical) :
    p.tenantId = q.tenantId ∧ p.actorSubjectId = q.actorSubjectId ∧
      p.debitAccountId = q.debitAccountId ∧ p.creditAccountId = q.creditAccountId ∧
      p.currency = q.currency ∧ p.amount = q.amount := by
  obtain ⟨-, -, hpamount, hpcurrency, -⟩ := hp
  obtain ⟨-, -, hqamount, hqcurrency, -⟩ := hq
  -- All identifiers have the same length, and so do all currencies.
  have hlength : ∀ u v : Uuid, u.text.toList.length = v.text.toList.length := fun u v => by
    rw [Uuid.length_text, Uuid.length_text]
  have hlist := congrArg String.toList heq
  simp only [canonical, String.toList_intercalate, List.map_cons, List.map_nil,
    List.intercalate_cons_cons, List.intercalate_singleton] at hlist
  have hbreak : "\n".toList = ['\n'] := rfl
  -- The amount is behind the last line break, so that it is split off first.
  have hsplit : ∀ t a o d c u m : List Char,
      t ++ ['\n'] ++ (a ++ ['\n'] ++ (o ++ ['\n'] ++ (d ++ ['\n'] ++ (c ++ ['\n'] ++
        (u ++ ['\n'] ++ m))))) =
      (t ++ (['\n'] ++ a ++ (['\n'] ++ o ++ ['\n'] ++ d ++ ['\n'] ++ c ++ ['\n'] ++ u))) ++
        '\n' :: m := by
    intro t a o d c u m
    simp
  rw [hbreak, hsplit, hsplit] at hlist
  -- The rest is cut from both ends by the known lengths; the actor is what remains.
  obtain ⟨hlist, hamount⟩ := append_cons_inj (not_mem_text hpamount) (not_mem_text hqamount) hlist
  obtain ⟨htenant, hlist⟩ := List.append_inj hlist (hlength _ _)
  obtain ⟨hactor, hlist⟩ := List.append_inj' hlist (by
    simp [Uuid.length_text, hpcurrency.1, hqcurrency.1])
  obtain ⟨hlist, hcurrency⟩ := List.append_inj' hlist (hpcurrency.1.trans hqcurrency.1.symm)
  obtain ⟨hlist, hcredit⟩ := List.append_inj' (List.append_cancel_right hlist) (hlength _ _)
  obtain ⟨-, hdebit⟩ := List.append_inj' (List.append_cancel_right hlist) (hlength _ _)
  exact ⟨Uuid.text_inj.mp (String.toList_inj.mp htenant),
    String.toList_inj.mp (List.append_cancel_left hactor),
    Uuid.text_inj.mp (String.toList_inj.mp hdebit), Uuid.text_inj.mp (String.toList_inj.mp hcredit),
    String.toList_inj.mp hcurrency, Bigint.text_inj (String.toList_inj.mp hamount)⟩

/-- The digest of the text of a valid request tells its fields. -/
theorem TransferRequest.digest_eq_iff (hsha : Set.InjOn h.sum texts) {p q : TransferRequest}
    (hp : p.WellFormed) (hq : q.WellFormed) (hptext : utf8 p.canonical ∈ texts)
    (hqtext : utf8 q.canonical ∈ texts) :
    h.digest.sha256 p.canonical = h.digest.sha256 q.canonical ↔
      p.tenantId = q.tenantId ∧ p.actorSubjectId = q.actorSubjectId ∧
        p.debitAccountId = q.debitAccountId ∧ p.creditAccountId = q.creditAccountId ∧
        p.currency = q.currency ∧ p.amount = q.amount := by
  show h.sum (utf8 p.canonical) = h.sum (utf8 q.canonical) ↔ _
  rw [Sha256.sum_inj hsha hptext hqtext]
  constructor
  · exact canonical_inj hp hq
  · rintro ⟨htenant, hactor, hdebit, hcredit, hcurrency, hamount⟩
    rw [canonical, canonical, htenant, hactor, hdebit, hcredit, hcurrency, hamount]

namespace Transfers

/-- What the service submits. -/
structure Submitted (h : Sha256) (pilotCurrency : String) (c : Command) (p : TransferRequest) :
    Prop where
  tenant : c.tenantId = some p.tenantId
  actor : p.actorSubjectId = trimSpace c.actorSubjectId
  debit : c.debitAccountId = some p.debitAccountId
  credit : c.creditAccountId = some p.creditAccountId
  amount : p.amount = c.amount.minor
  currency : p.currency = c.amount.currency.code
  key : p.idempotencyKey = trimSpace c.idempotencyKey
  pilot : p.pilotCurrency = pilotCurrency
  named : p.actorSubjectId ≠ ""
  distinct : p.debitAccountId ≠ p.creditAccountId
  positive : 0 < (p.amount : ℤ)
  keyed : IsKey (trimSpace p.idempotencyKey)
  fingerprint : p.requestFingerprint = h.sum (utf8 p.canonical)

/-- A command that is submitted makes the request that was submitted. -/
theorem submit_ok {pilotCurrency : String} {generated : Uuid} {clock : Timestamp} {c : Command}
    {p : TransferRequest} (hsubmit : submit h pilotCurrency generated clock c = .ok p) :
    Submitted h pilotCurrency c p := by
  unfold submit at hsubmit
  simp only [bind, Except.bind, pure, Except.pure] at hsubmit
  -- Each step of the submission succeeded.
  rcases hvalid : c.normalize.validate with e | u
  · rw [hvalid] at hsubmit
    cases hsubmit
  rcases hfingerprint : Transfers.fingerprint h c.normalize.identity with e | f
  · rw [hvalid, hfingerprint] at hsubmit
    cases hsubmit
  rcases harguments : c.normalize.arguments f pilotCurrency generated clock with _ | q
  · rw [hvalid, hfingerprint] at hsubmit
    simp only [harguments] at hsubmit
    cases hsubmit
  rw [hvalid, hfingerprint] at hsubmit
  simp only [harguments] at hsubmit
  obtain rfl := Except.ok.inj hsubmit
  unfold Command.arguments at harguments
  simp only [Option.bind_eq_bind, Option.bind_eq_some_iff, Option.pure_def,
    Option.some.injEq] at harguments
  obtain ⟨tenantId, htenant, debit, hdebit, credit, hcredit, correlation, -, rfl⟩ := harguments
  unfold Command.validate at hvalid
  split_ifs at hvalid with hids hamount hkey
  unfold Transfers.fingerprint at hfingerprint
  split_ifs at hfingerprint
  push Not at hids
  -- Equal identifiers would have the same text.
  have hdistinct : debit ≠ credit := by
    rintro rfl
    exact hids.2.2.2.2 (hdebit.trans hcredit.symm)
  refine ⟨htenant, rfl, hdebit, hcredit, rfl, rfl, rfl, rfl, hids.2.1, hdistinct, hamount, hkey, ?_⟩
  rw [← Except.ok.inj hfingerprint]
  show h.sum (utf8 ("\n".intercalate [identifierText c.normalize.tenantId, _, _,
    identifierText c.normalize.debitAccountId, identifierText c.normalize.creditAccountId, _, _])) = _
  rw [htenant, hdebit, hcredit]
  rfl

/-- What the service submits passes the input check of the procedure. -/
theorem Submitted.wellFormed {pilotCurrency : String} {c : Command} {p : TransferRequest}
    (hp : Submitted h pilotCurrency c p) (hpilot : IsCurrency pilotCurrency)
    (hcurrency : c.amount.currency ∈ supportedCurrencies) : p.WellFormed := by
  have hcodes : ∀ x ∈ supportedCurrencies, IsCurrency x.code := by decide
  have hkey : IsKey p.idempotencyKey := by
    have hkeyed := hp.keyed
    rwa [hp.key, trimSpace_trimSpace, ← hp.key] at hkeyed
  refine ⟨hp.distinct, ⟨hp.named, hp.actor ▸ trimmed_trimSpace _⟩, hp.positive,
    hp.currency ▸ hcodes _ hcurrency, hp.pilot ▸ hpilot, hkey, ?_⟩
  rw [hp.fingerprint]
  exact h.length_sum _

end Transfers

end Submissions

/-! ## Finance -/

/-- The parts that `controlled_request_funding_v1` digests. -/
def FundingRequest.parts (p : FundingRequest) : List String :=
  [p.tenant.text, p.actor, p.destination.text, p.currency, p.amount.text, p.external, p.evidence]

/-- The parts that `controlled_request_funding_compensation_v1` digests. -/
def CompensationRequest.parts (p : CompensationRequest) : List String :=
  [p.tenant.text, p.actor, p.original.text, p.reason, p.note]

/-- The parts that `controlled_request_correction_v1` digests. -/
def CorrectionRequest.parts (p : CorrectionRequest) : List String :=
  [p.tenant.text, p.actor, p.original.text, p.reason, p.note]

section Finance

variable {h : Sha256} {d : Digest} {sess : Session} {s s' : Db} {r : Uuid × Bool}

/-- A funding request that returns was well formed. -/
theorem FundingRequest.wellFormed_of_ok {p : FundingRequest} {ids : FundingRequestIds}
    (hok : controlledRequestFundingV1 d sess p ids s = .ok (r, s')) : p.WellFormed d := by
  unfold controlledRequestFundingV1 at hok
  rw [Txn.get_bind_ok, Txn.raiseIf_bind_ok, Txn.raiseIf_bind_ok] at hok
  exact not_not.mp hok.2.1

/-- A request for a compensation that returns was well formed. -/
theorem CompensationRequest.wellFormed_of_ok {p : CompensationRequest} {ids : EvidenceIds}
    (hok : controlledRequestFundingCompensationV1 d sess p ids s = .ok (r, s')) :
    p.WellFormed d := by
  unfold controlledRequestFundingCompensationV1 at hok
  rw [Txn.get_bind_ok, Txn.raiseIf_bind_ok, Txn.raiseIf_bind_ok] at hok
  exact not_not.mp hok.2.1

/-- A request for a correction that returns was well formed. -/
theorem CorrectionRequest.wellFormed_of_ok {p : CorrectionRequest} {ids : EvidenceIds}
    (hok : controlledRequestCorrectionV1 d sess p ids s = .ok (r, s')) : p.WellFormed d := by
  unfold controlledRequestCorrectionV1 at hok
  rw [Txn.get_bind_ok, Txn.raiseIf_bind_ok, Txn.raiseIf_bind_ok] at hok
  exact not_not.mp hok.2.1

/-- What the service asks the database to fund. -/
theorem Funding.request_eq_some {clock : Timestamp} {c : Funding.RequestCommand}
    {p : FundingRequest} (hrequest : Funding.request h clock c = some p) :
    p.fingerprint = Funding.requestFingerprint h c.normalize ∧
      (c.normalize.tenantId = p.tenant.text →
        c.normalize.destinationAccountId = p.destination.text → c.normalize.fields = p.parts) := by
  unfold Funding.request at hrequest
  dsimp only at hrequest
  split_ifs at hrequest
  simp only [Option.bind_eq_bind, Option.bind_eq_some_iff, Option.pure_def, Option.some.injEq]
    at hrequest
  obtain ⟨tenant, -, destination, -, correlation, -, rfl⟩ := hrequest
  refine ⟨rfl, fun htenant hdestination => ?_⟩
  unfold Funding.RequestCommand.fields FundingRequest.parts
  rw [htenant, hdestination]

/-- What the service asks the database to compensate. -/
theorem Funding.compensate_eq_some {clock : Timestamp} {c : Funding.CompensationCommand}
    {p : CompensationRequest} (hrequest : Funding.compensate h clock c = some p) :
    p.fingerprint = Funding.compensationFingerprint h c.normalize ∧
      (c.normalize.tenantId = p.tenant.text → c.normalize.fundingEventId = p.original.text →
        c.normalize.fields = p.parts) := by
  unfold Funding.compensate at hrequest
  dsimp only at hrequest
  split_ifs at hrequest
  simp only [Option.bind_eq_bind, Option.bind_eq_some_iff, Option.pure_def, Option.some.injEq]
    at hrequest
  obtain ⟨tenant, -, original, -, correlation, -, rfl⟩ := hrequest
  refine ⟨rfl, fun htenant horiginal => ?_⟩
  unfold Funding.CompensationCommand.fields CompensationRequest.parts
  rw [htenant, horiginal]

/-- What the service asks the database to correct. -/
theorem Corrections.request_eq_some {clock : Timestamp} {c : Corrections.RequestCommand}
    {p : CorrectionRequest} (hrequest : Corrections.request h clock c = some p) :
    p.fingerprint = Corrections.requestFingerprint h c.normalize ∧
      (c.normalize.tenantId = p.tenant.text → c.normalize.originalTransferId = p.original.text →
        c.normalize.fields = p.parts) := by
  unfold Corrections.request at hrequest
  dsimp only at hrequest
  split_ifs at hrequest
  simp only [Option.bind_eq_bind, Option.bind_eq_some_iff, Option.pure_def, Option.some.injEq]
    at hrequest
  obtain ⟨tenant, -, original, -, correlation, -, rfl⟩ := hrequest
  refine ⟨rfl, fun htenant horiginal => ?_⟩
  unfold Corrections.RequestCommand.fields CorrectionRequest.parts
  rw [htenant, horiginal]

end Finance

/-! ## The contract -/

/-- The fingerprints that the services send and those that the database computes. The texts are
those that SHA-256 does not confuse. -/
structure FingerprintsIdentify (h : Sha256) (texts : Set Bytes) : Prop where
  /-- A submission of the service carries the digest that the procedure computes. -/
  transfer_agrees : ∀ pilotCurrency generated clock c p,
    Transfers.submit h pilotCurrency generated clock c = .ok p →
    p.requestFingerprint = h.digest.sha256 p.canonical
  /-- It passes the input check of the procedure. -/
  transfer_valid : ∀ pilotCurrency generated clock c p, IsCurrency pilotCurrency →
    c.amount.currency ∈ supportedCurrencies →
    Transfers.submit h pilotCurrency generated clock c = .ok p → p.WellFormed
  /-- Valid submissions have the same fingerprint exactly when they are of the same payment. -/
  transfer_identifies : ∀ p q : TransferRequest, p.WellFormed → q.WellFormed →
    p.requestFingerprint = h.digest.sha256 p.canonical →
    q.requestFingerprint = h.digest.sha256 q.canonical →
    utf8 p.canonical ∈ texts → utf8 q.canonical ∈ texts →
    (p.requestFingerprint = q.requestFingerprint ↔
      p.tenantId = q.tenantId ∧ p.actorSubjectId = q.actorSubjectId ∧
        p.debitAccountId = q.debitAccountId ∧ p.creditAccountId = q.creditAccountId ∧
        p.currency = q.currency ∧ p.amount = q.amount)
  /-- The fingerprint of a funding request that the database accepts, or whose identifiers are
  written as the database writes them, is the one that the database computes. -/
  funding_agrees : ∀ clock c p, Funding.request h clock c = some p →
    ((c.normalize.tenantId = p.tenant.text ∧ c.normalize.destinationAccountId = p.destination.text) ∨
      ∃ sess ids s r s', controlledRequestFundingV1 h.digest sess p ids s = .ok (r, s')) →
    h.fingerprintPartsV1 (p.parts.map some) = some (Funding.requestFingerprint h c.normalize)
  /-- So is that of a compensation request. -/
  compensation_agrees : ∀ clock c p, Funding.compensate h clock c = some p →
    ((c.normalize.tenantId = p.tenant.text ∧ c.normalize.fundingEventId = p.original.text) ∨
      ∃ sess ids s r s',
        controlledRequestFundingCompensationV1 h.digest sess p ids s = .ok (r, s')) →
    h.fingerprintPartsV1 (p.parts.map some) = some (Funding.compensationFingerprint h c.normalize)
  /-- So is that of a correction request. -/
  correction_agrees : ∀ clock c p, Corrections.request h clock c = some p →
    ((c.normalize.tenantId = p.tenant.text ∧ c.normalize.originalTransferId = p.original.text) ∨
      ∃ sess ids s r s', controlledRequestCorrectionV1 h.digest sess p ids s = .ok (r, s')) →
    h.fingerprintPartsV1 (p.parts.map some) = some (Corrections.requestFingerprint h c.normalize)
  /-- The database has the same digest for lists of parts exactly when they are the same. -/
  parts_identify : ∀ parts parts' : List String, (∀ x ∈ parts, NulFree x) →
    (∀ x ∈ parts', NulFree x) → utf8 ("\x00".intercalate parts) ∈ texts →
    utf8 ("\x00".intercalate parts') ∈ texts →
    (h.fingerprintPartsV1 (parts.map some) = h.fingerprintPartsV1 (parts'.map some) ↔
      parts = parts')
  /-- Funding requests have the same fingerprint exactly when they have the same fields. -/
  funding_identifies : ∀ c c' : Funding.RequestCommand, (∀ x ∈ c.fields, NulFree x) →
    (∀ x ∈ c'.fields, NulFree x) → utf8 ("\x00".intercalate c.fields) ∈ texts →
    utf8 ("\x00".intercalate c'.fields) ∈ texts →
    (Funding.requestFingerprint h c = Funding.requestFingerprint h c' ↔ c.fields = c'.fields)
  /-- So have compensation requests. -/
  compensation_identifies : ∀ c c' : Funding.CompensationCommand, (∀ x ∈ c.fields, NulFree x) →
    (∀ x ∈ c'.fields, NulFree x) → utf8 ("\x00".intercalate c.fields) ∈ texts →
    utf8 ("\x00".intercalate c'.fields) ∈ texts →
    (Funding.compensationFingerprint h c = Funding.compensationFingerprint h c' ↔
      c.fields = c'.fields)
  /-- So have correction requests. -/
  correction_identifies : ∀ c c' : Corrections.RequestCommand, (∀ x ∈ c.fields, NulFree x) →
    (∀ x ∈ c'.fields, NulFree x) → utf8 ("\x00".intercalate c.fields) ∈ texts →
    utf8 ("\x00".intercalate c'.fields) ∈ texts →
    (Corrections.requestFingerprint h c = Corrections.requestFingerprint h c' ↔
      c.fields = c'.fields)
  /-- Lists of texts with their lengths have the same fingerprint exactly when they are the same. -/
  fields_identify : ∀ l m : List Idempotency.Text, l.flatMap Idempotency.writeField ∈ texts →
    m.flatMap Idempotency.writeField ∈ texts →
    (Idempotency.fingerprint h l = Idempotency.fingerprint h m ↔ l = m)

section Contract

variable {h : Sha256} {texts : Set Bytes}

/-- The digest of the database for parts that are not joined to the same text differs. -/
theorem Sha256.fingerprintPartsV1_eq_iff (hsha : Set.InjOn h.sum texts) {parts parts' : List String}
    (hfree : ∀ x ∈ parts, NulFree x) (hfree' : ∀ x ∈ parts', NulFree x)
    (ht : utf8 ("\x00".intercalate parts) ∈ texts)
    (ht' : utf8 ("\x00".intercalate parts') ∈ texts) :
    h.fingerprintPartsV1 (parts.map some) = h.fingerprintPartsV1 (parts'.map some) ↔
      parts = parts' := by
  by_cases hne : parts = []
  · subst hne
    by_cases hne' : parts' = []
    · simp [hne']
    · rw [fingerprintPartsV1_eq parts' hne']
      exact ⟨fun heq => (nomatch heq), fun heq => absurd heq.symm hne'⟩
  · by_cases hne' : parts' = []
    · subst hne'
      rw [fingerprintPartsV1_eq parts hne]
      exact ⟨fun heq => (nomatch heq), fun heq => absurd heq hne⟩
    · rw [fingerprintPartsV1_eq parts hne, fingerprintPartsV1_eq parts' hne', Option.some.injEq]
      exact Sha256.joined_eq_iff hsha hfree hfree' hne hne' ht ht'

/-- Texts with their lengths are known from the bytes that are digested. -/
theorem Idempotency.fields_inj {l m : List Idempotency.Text}
    (heq : l.flatMap Idempotency.writeField = m.flatMap Idempotency.writeField) : l = m := by
  have hshort : ∀ l : List Idempotency.Text, ∀ f ∈ l.map Idempotency.Text.bytes,
      f.length < 256 ^ 8 := by
    intro l f hf
    obtain ⟨x, -, rfl⟩ := List.mem_map.mp hf
    exact x.short.trans (by norm_num)
  have hframes : ∀ l : List Idempotency.Text, l.flatMap Idempotency.writeField =
      (l.map Idempotency.Text.bytes).flatMap (frame 8) := by
    intro l
    rw [List.flatMap_map]
    rfl
  rw [hframes, hframes] at heq
  have hbytes := frames_inj (by norm_num) (hshort l) (hshort m) heq
  refine List.map_injective_iff.mpr (fun x y hxy => ?_) hbytes
  cases x
  cases y
  congr

end Contract

/-- **Fingerprints identify requests.** The services and the database compute the same fingerprints,
and fingerprints are the same exactly when the requests are, for texts that SHA-256 does not
confuse. -/
theorem fingerprints_identify (h : Sha256) (texts : Set Bytes) (hsha : Set.InjOn h.sum texts) :
    FingerprintsIdentify h texts where
  transfer_agrees _ _ _ _ _ hsubmit := (Transfers.submit_ok hsubmit).fingerprint
  transfer_valid _ _ _ _ _ hpilot hcurrency hsubmit :=
    (Transfers.submit_ok hsubmit).wellFormed hpilot hcurrency
  transfer_identifies p q hp hq hpf hqf hptext hqtext := by
    rw [hpf, hqf]
    exact TransferRequest.digest_eq_iff hsha hp hq hptext hqtext
  funding_agrees clock c p hrequest hcase := by
    -- The digest covers the fields as the service has sent them.
    obtain ⟨hsent, hfields⟩ := Funding.request_eq_some hrequest
    rw [Sha256.fingerprintPartsV1_eq p.parts (List.cons_ne_nil _ _), Option.some.injEq]
    rcases hcase with ⟨htenant, hdestination⟩ | ⟨sess, ids, s, r, s', hok⟩
    · rw [Funding.requestFingerprint, hfields htenant hdestination]
    · rw [← hsent]
      exact (FundingRequest.wellFormed_of_ok hok).2.2.2.2.2.2.2.2.symm
  compensation_agrees clock c p hrequest hcase := by
    obtain ⟨hsent, hfields⟩ := Funding.compensate_eq_some hrequest
    rw [Sha256.fingerprintPartsV1_eq p.parts (List.cons_ne_nil _ _), Option.some.injEq]
    rcases hcase with ⟨htenant, horiginal⟩ | ⟨sess, ids, s, r, s', hok⟩
    · rw [Funding.compensationFingerprint, hfields htenant horiginal]
    · rw [← hsent]
      exact (CompensationRequest.wellFormed_of_ok hok).2.2.2.2.2.2.symm
  correction_agrees clock c p hrequest hcase := by
    obtain ⟨hsent, hfields⟩ := Corrections.request_eq_some hrequest
    rw [Sha256.fingerprintPartsV1_eq p.parts (List.cons_ne_nil _ _), Option.some.injEq]
    rcases hcase with ⟨htenant, horiginal⟩ | ⟨sess, ids, s, r, s', hok⟩
    · rw [Corrections.requestFingerprint, hfields htenant horiginal]
    · rw [← hsent]
      exact (CorrectionRequest.wellFormed_of_ok hok).2.2.2.2.2.symm
  parts_identify _ _ hfree hfree' ht ht' :=
    Sha256.fingerprintPartsV1_eq_iff hsha hfree hfree' ht ht'
  funding_identifies _ _ hfree hfree' ht ht' :=
    Sha256.joined_eq_iff hsha hfree hfree' (List.cons_ne_nil _ _) (List.cons_ne_nil _ _) ht ht'
  compensation_identifies _ _ hfree hfree' ht ht' :=
    Sha256.joined_eq_iff hsha hfree hfree' (List.cons_ne_nil _ _) (List.cons_ne_nil _ _) ht ht'
  correction_identifies _ _ hfree hfree' ht ht' :=
    Sha256.joined_eq_iff hsha hfree hfree' (List.cons_ne_nil _ _) (List.cons_ne_nil _ _) ht ht'
  fields_identify l m hl hm := by
    constructor
    · intro hsum
      exact Idempotency.fields_inj (hsha hl hm hsum)
    · rintro rfl
      rfl

namespace Sample

/-- SHA-256 of the texts of the transfers of 100 and 200. -/
def sha256 : Sha256 where
  sum b :=
    if b = utf8 (canonical "100") then fingerprint100
    else if b = utf8 (canonical "200") then fingerprint200
    else List.replicate 32 0
  length_sum b := by
    split_ifs <;> rfl

/-- The texts of these two. -/
def transferTexts : Set Bytes := {utf8 (canonical "100"), utf8 (canonical "200")}

/-- A transfer of 200. -/
def transferRequest200 : TransferRequest :=
  request (big 200) fingerprint200 "sample-transfer-02" (hour 1)

end Sample

/-- The fingerprints of the transfers of 100 and 200 differ, as their amounts do. -/
theorem fingerprints_identify_sample :
    Sample.transferRequest.requestFingerprint ≠ Sample.transferRequest200.requestFingerprint := by
  -- The two digests are the real ones of the two texts.
  have hsum : Sample.sha256.sum (utf8 (Sample.canonical "100")) = Sample.fingerprint100 ∧
      Sample.sha256.sum (utf8 (Sample.canonical "200")) = Sample.fingerprint200 := by
    decide +kernel
  have htexts : Sample.transferRequest.canonical = Sample.canonical "100" ∧
      Sample.transferRequest200.canonical = Sample.canonical "200" := by
    decide +kernel
  -- On the two texts the digest is injective, as the two values differ.
  have hsha : Set.InjOn Sample.sha256.sum Sample.transferTexts := by
    have hne : Sample.fingerprint100 ≠ Sample.fingerprint200 := by decide
    refine Set.injOn_pair.mpr fun heq => ?_
    rw [hsum.1, hsum.2] at heq
    exact absurd heq hne
  have hvalid : Sample.transferRequest.WellFormed ∧ Sample.transferRequest200.WellFormed := by
    decide +kernel
  -- Both requests carry the digest of their own text.
  have hsent : Sample.transferRequest.requestFingerprint =
        Sample.sha256.digest.sha256 Sample.transferRequest.canonical ∧
      Sample.transferRequest200.requestFingerprint =
        Sample.sha256.digest.sha256 Sample.transferRequest200.canonical := by
    decide +kernel
  intro hsame
  have hfields := ((fingerprints_identify Sample.sha256 Sample.transferTexts hsha).transfer_identifies
    Sample.transferRequest Sample.transferRequest200 hvalid.1 hvalid.2 hsent.1 hsent.2
    (by rw [htexts.1]; exact Set.mem_insert _ _)
    (by rw [htexts.2]; exact Set.mem_insert_of_mem _ (Set.mem_singleton _))).mp hsame
  exact absurd hfields.2.2.2.2.2 (by decide)

end LedgerSync
