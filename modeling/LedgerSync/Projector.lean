import LedgerSync.Statements

/-!
# Decoding balance events

The consumer of the event stream, `internal/application/projection`: how it reads a stored balance
event, and that it reads back what every producer wrote. The producers build the payload of the
first version, the trigger of the outbox may turn it into the second, and holds write the second
themselves.
-/

namespace LedgerSync

open Lib

/-! ## The decoder -/

/-- `outbox.Event`, as far as the projector reads it. -/
structure StreamEvent where
  id : String
  tenantId : String
  accountId : String
  eventType : String
  aggregateVersion : ℤ
  payload : Json

/-- An outbox row as it is published; an absent account is the empty text. -/
def OutboxEvent.published (e : OutboxEvent) : StreamEvent where
  id := e.id.text
  tenantId := e.tenantId.text
  accountId := (e.accountId.map Uuid.text).getD ""
  eventType := e.eventType
  aggregateVersion := e.aggregateVersion
  payload := e.payload

/-- `accounts.Balance`; the time is in nanoseconds. -/
structure CachedBalance where
  tenantId : String
  accountId : String
  currency : String
  available : ℤ
  ledger : ℤ
  version : ℤ
  asOf : ℤ
deriving DecidableEq

/-- The payload of a balance event, after `json.Unmarshal`. -/
structure BalancePayload where
  eventId : String
  eventType : String
  accountId : String
  currency : String
  availableMinor : String
  ledgerMinor : String
  reservedMinor : String
  balanceVersion : String
  occurredAt : String

/-- A text field of a payload: an absent field and a null leave the empty text, and any other kind
of value is an error. -/
def Json.textField (doc : Json) (k : String) : Except String String :=
  match doc.get? k with
  | none => .ok ""
  | some .null => .ok ""
  | some (.str s) => .ok s
  | some _ => .error "decode balance event payload"

/-- `json.Unmarshal` into the payload. -/
def unmarshalPayload (doc : Json) : Except String BalancePayload := do
  let eventId ← doc.textField "event_id"
  let eventType ← doc.textField "event_type"
  let accountId ← doc.textField "account_id"
  let currency ← doc.textField "currency"
  let availableMinor ← doc.textField "available_minor"
  let ledgerMinor ← doc.textField "ledger_minor"
  let reservedMinor ← doc.textField "reserved_minor"
  let balanceVersion ← doc.textField "balance_version"
  let occurredAt ← doc.textField "occurred_at"
  pure ⟨eventId, eventType, accountId, currency, availableMinor, ledgerMinor, reservedMinor,
    balanceVersion, occurredAt⟩

/-- A condition that must not hold. -/
def refuseIf (c : Prop) [Decidable c] (message : String) : Except String Unit :=
  if c then .error message else .ok ()

/-- `strconv.ParseInt(text, 10, 64)`, with a condition on the number. -/
def parseChecked (text : String) (ok : ℤ → Bool) (message : String) : Except String ℤ :=
  match parseInt64 text with
  | some n => if ok n then .ok n else .error message
  | none => .error message

/-- The ledger amount: an event of the first version has nothing reserved, and one of the second
carries all three amounts. -/
def decodeLedger (e : StreamEvent) (p : BalancePayload) (available : ℤ) : Except String ℤ :=
  if e.eventType = balanceChangedV2 then do
    let ledger ← parseChecked p.ledgerMinor (fun n => available ≤ n)
      "invalid reserved balance ledger"
    let _ ← parseChecked p.reservedMinor (fun n => 0 ≤ n ∧ ledger - available = n)
      "invalid reserved balance equation"
    pure ledger
  else pure available

/-- `decodeBalance`. -/
def decodeBalance (e : StreamEvent) : Except String CachedBalance := do
  refuseIf ((e.eventType ≠ balanceChangedV1 ∧ e.eventType ≠ balanceChangedV2) ∨ e.id = "" ∨
    e.tenantId = "" ∨ e.accountId = "" ∨ e.aggregateVersion < 0) "invalid balance event envelope"
  let p ← unmarshalPayload e.payload
  refuseIf (p.eventId ≠ e.id ∨ p.eventType ≠ e.eventType ∨ p.accountId ≠ e.accountId)
    "balance event envelope does not match payload"
  let available ← parseChecked p.availableMinor (fun n => 0 ≤ n)
    "balance event has invalid available_minor"
  let ledger ← decodeLedger e p available
  let version ← parseChecked p.balanceVersion (fun n => 0 ≤ n ∧ n = e.aggregateVersion)
    "balance event has invalid balance_version"
  match parseRfc3339 p.occurredAt with
  | some asOf =>
    if p.currency.utf8ByteSize = 3 then
      pure ⟨e.tenantId, e.accountId, p.currency.toUpper, available, ledger, version, asOf⟩
    else .error "balance event has invalid currency or occurred_at"
  | none => .error "balance event has invalid currency or occurred_at"

/-! ## Reading back what was written -/

/-- A check that does not hold refuses nothing. -/
theorem refuseIf_of_not {c : Prop} [Decidable c] (h : ¬c) (message : String) :
    refuseIf c message = .ok () :=
  if_neg h

/-- A `bigint` that passes the check is read back from its text. -/
theorem parseChecked_text {b : Bigint} {ok : ℤ → Bool} {message : String} (h : ok b = true) :
    parseChecked b.text ok message = .ok (b : ℤ) := by
  have hparse : parseInt64 b.text = some (b : ℤ) := parseInt64_decimal b.inRange.1 b.inRange.2
  simp [parseChecked, hparse, h]

/-- The text of an identifier is not empty. -/
theorem Uuid.text_ne_empty (u : Uuid) : u.text ≠ "" := by
  intro h
  have hread := u.ofText?_text
  rw [h, show Uuid.ofText? "" = none by decide] at hread
  cases hread

/-- A currency is upper case already, and it has three bytes. -/
theorem IsCurrency.toUpper {s : String} (h : IsCurrency s) :
    s.toUpper = s ∧ s.utf8ByteSize = 3 := by
  have hrange : ∀ c ∈ s.toList, c.toNat ≤ 90 := fun c hc => (h.2 c hc).2
  constructor
  · apply String.toList_injective
    rw [String.toUpper, String.toList_map]
    refine (List.map_congr_left fun c hc => dif_neg ?_).trans (List.map_id _)
    rintro ⟨hlo, -⟩
    have hlower : 97 ≤ c.toNat := hlo
    have := hrange c hc
    omega
  · rw [utf8ByteSize_of_ascii fun c hc => (hrange c hc).trans_lt (by decide), h.1]

/-- The record that the projector makes of a balance. -/
def Balance.cached (b : Balance) (tenant : Uuid) (currency : String) (asOf : ℤ) : CachedBalance :=
  ⟨tenant.text, b.accountId.text, currency, b.available, b.ledger, b.version, asOf⟩

/-- A balance of an account that may not go negative, next to its reserved amount. -/
structure Balance.Sound (b : Balance) : Prop where
  nonneg : 0 ≤ (b.available : ℤ)
  le : (b.available : ℤ) ≤ b.ledger

/-- What is reserved of a sound balance is read back from its text. -/
theorem Balance.Sound.reserved_text {b : Balance} (h : b.Sound) :
    parseInt64 (decimal (b.ledger - b.available)) = some ((b.ledger : ℤ) - b.available) := by
  have := h.nonneg
  have := h.le
  have := b.ledger.inRange
  exact parseInt64_decimal (by omega) (by omega)

/-- An event of the kind that the projector applies, `account.balance.changed`. -/
def OutboxEvent.IsBalance (e : OutboxEvent) : Prop :=
  e.eventType = balanceChangedV1 ∨ e.eventType = balanceChangedV2

/-- Whether an event is of balances can be decided. -/
instance (e : OutboxEvent) : Decidable e.IsBalance := inferInstanceAs (Decidable (_ ∨ _))

/-- A stored balance event that the projector turns into the record of a balance. -/
structure OutboxEvent.Reports (e : OutboxEvent) (b : Balance) (tenant : Uuid) (currency : String) :
    Prop where
  account : e.accountId = some b.accountId
  isBalance : e.IsBalance
  version : e.aggregateVersion = b.version
  decodes : ∃ asOf, decodeBalance e.published = .ok (b.cached tenant currency asOf)

/-- The columns that a payload names its command by. -/
def causes : List String := ["transfer_id", "funding_event_id", "opening_import_id"]

/-- An event of the first version, as the producers build it. -/
structure OutboxEvent.Announces (e : OutboxEvent) (b : Balance) (tenant : Uuid) (currency : String)
    (occurredAt : Timestamp) : Prop where
  tenant : e.tenantId = tenant
  account : e.accountId = some b.accountId
  eventType : e.eventType = balanceChangedV1
  version : e.aggregateVersion = b.version
  payload : ∃ cause ∈ causes, ∃ causeId amount,
    e.payload = balancePayload e.id b.accountId cause causeId currency b occurredAt amount

section Decode

variable {e e' : OutboxEvent} {b : Balance} {tenant : Uuid} {currency : String}
  {occurredAt : Timestamp}

/-- What the projector reads from a payload of the first version. -/
theorem unmarshal_balancePayload {eventId account causeId : Uuid} {cause : String}
    (hcause : cause ∈ causes) (amount : Option ℤ) :
    unmarshalPayload (balancePayload eventId account cause causeId currency b occurredAt amount) =
      .ok ⟨eventId.text, balanceChangedV1, account.text, currency, b.available.text, "", "",
        b.version.text, utcText occurredAt⟩ := by
  simp only [causes, List.mem_cons, List.not_mem_nil, or_false] at hcause
  rcases hcause with rfl | rfl | rfl <;> cases amount <;> rfl

/-- What the projector reads from a payload that the trigger has enriched. -/
theorem unmarshal_enriched {eventId account causeId : Uuid} {cause : String}
    (hcause : cause ∈ causes) (amount : Option ℤ) :
    unmarshalPayload ((balancePayload eventId account cause causeId currency b occurredAt
      amount).merge (.obj [("event_type", .str balanceChangedV2), ("ledger_minor", .str b.ledger.text),
        ("reserved_minor", .str (decimal (b.ledger - b.available)))])) =
      .ok ⟨eventId.text, balanceChangedV2, account.text, currency, b.available.text,
        b.ledger.text, decimal (b.ledger - b.available), b.version.text, utcText occurredAt⟩ := by
  simp only [causes, List.mem_cons, List.not_mem_nil, or_false] at hcause
  rcases hcause with rfl | rfl | rfl <;> cases amount <;> rfl

/-- A payload that carries the amounts of a balance is decoded to it. -/
theorem reports_of_payload {p : BalancePayload} (hcurrency : IsCurrency p.currency)
    (htype : e.IsBalance) (haccount : e.accountId = some b.accountId)
    (hversion : e.aggregateVersion = b.version)
    (hpayload : unmarshalPayload e.payload = .ok p) (hid : p.eventId = e.id.text)
    (heventType : p.eventType = e.eventType) (haccountText : p.accountId = b.accountId.text)
    (havailable : p.availableMinor = b.available.text) (hnonneg : 0 ≤ (b.available : ℤ))
    (hledger : decodeLedger e.published p b.available = .ok (b.ledger : ℤ))
    (hversionText : p.balanceVersion = b.version.text)
    (htime : ∃ n, parseRfc3339 p.occurredAt = some n) : e.Reports b e.tenantId p.currency := by
  obtain ⟨n, hn⟩ := htime
  refine ⟨haccount, htype, hversion, n, ?_⟩
  have hpublished : e.published.accountId = b.accountId.text := by
    rw [OutboxEvent.published, haccount]
    rfl
  -- The envelope is complete, so that the first check passes.
  have henvelope : ¬((e.published.eventType ≠ balanceChangedV1 ∧
      e.published.eventType ≠ balanceChangedV2) ∨ e.published.id = "" ∨ e.published.tenantId = "" ∨
      e.published.accountId = "" ∨ e.published.aggregateVersion < 0) := by
    have hpos : ¬e.aggregateVersion < 0 := by
      rw [hversion]
      exact not_lt.mpr b.version_nonneg
    rintro (⟨h₁, h₂⟩ | h | h | h | h)
    · exact htype.elim h₁ h₂
    · exact Uuid.text_ne_empty _ h
    · exact Uuid.text_ne_empty _ h
    · exact Uuid.text_ne_empty _ (hpublished.symm.trans h)
    · exact hpos h
  -- The payload repeats the envelope.
  have hmatch : ¬(p.eventId ≠ e.published.id ∨ p.eventType ≠ e.published.eventType ∨
      p.accountId ≠ e.published.accountId) := by
    rintro (h | h | h)
    · exact h hid
    · exact h heventType
    · exact h (haccountText.trans hpublished.symm)
  -- The three amounts are decimal texts, which are read back.
  have hread : parseChecked p.balanceVersion
      (fun n => 0 ≤ n ∧ n = e.published.aggregateVersion)
      "balance event has invalid balance_version" = .ok (b.version : ℤ) := by
    rw [hversionText]
    exact parseChecked_text (decide_eq_true ⟨b.version_nonneg, hversion.symm⟩)
  have hread' : parseChecked p.availableMinor (fun n => 0 ≤ n)
      "balance event has invalid available_minor" = .ok (b.available : ℤ) := by
    rw [havailable]
    exact parseChecked_text (decide_eq_true hnonneg)
  unfold decodeBalance
  rw [refuseIf_of_not henvelope, show e.published.payload = e.payload from rfl, hpayload]
  simp only [bind, Except.bind, refuseIf_of_not hmatch, hread, hread', hledger, hn,
    hcurrency.toUpper.1, hcurrency.toUpper.2, if_true]
  rw [hpublished]
  rfl

/-- The trigger leaves the event of a balance that has nothing reserved. -/
theorem OutboxEvent.Announces.reports (h : e.Announces b tenant currency occurredAt)
    (hsound : b.Sound) (hcurrency : IsCurrency currency) (heq : b.ledger = b.available) :
    e.Reports b tenant currency := by
  obtain ⟨cause, hcause, causeId, amount, hpayload⟩ := h.payload
  have hread := @unmarshal_balancePayload b currency occurredAt e.id b.accountId causeId _ hcause
    amount
  rw [← hpayload] at hread
  rw [← h.tenant]
  refine reports_of_payload hcurrency (.inl h.eventType) h.account h.version hread rfl
    h.eventType.symm rfl rfl hsound.nonneg ?_ rfl (parseRfc3339_utcText occurredAt)
  rw [decodeLedger, if_neg, heq]
  · rfl
  · change ¬e.eventType = balanceChangedV2
    rw [h.eventType]
    decide

/-- The ledger amount of an event of the second version. -/
theorem decodeLedger_v2 {x : StreamEvent} {p : BalancePayload} (hsound : b.Sound)
    (htype : x.eventType = balanceChangedV2) (hledger : p.ledgerMinor = b.ledger.text)
    (hreserved : p.reservedMinor = decimal (b.ledger - b.available)) :
    decodeLedger x p b.available = .ok (b.ledger : ℤ) := by
  have hread : parseChecked p.reservedMinor
      (fun n => 0 ≤ n ∧ (b.ledger : ℤ) - b.available = n) "invalid reserved balance equation" =
      .ok ((b.ledger : ℤ) - b.available) := by
    rw [hreserved, parseChecked, hsound.reserved_text]
    exact if_pos (decide_eq_true ⟨sub_nonneg.mpr hsound.le, rfl⟩)
  have hread' : parseChecked p.ledgerMinor (fun n => (b.available : ℤ) ≤ n)
      "invalid reserved balance ledger" = .ok (b.ledger : ℤ) := by
    rw [hledger]
    exact parseChecked_text (decide_eq_true hsound.le)
  rw [decodeLedger, if_pos htype]
  simp only [bind, Except.bind, hread', hread]
  rfl

/-- What the trigger stores for an announced balance. -/
theorem OutboxEvent.Announces.enriched {s : Db} (h : e.Announces b tenant currency occurredAt)
    (hb : s.balances.find? b.accountId = some b) :
    enrichReservedBalanceEventV1 s e = some (if b.ledger ≠ b.available then
      { e with
        eventType := balanceChangedV2
        payload := e.payload.merge (.obj [("event_type", .str balanceChangedV2),
          ("ledger_minor", .str b.ledger.text),
          ("reserved_minor", .str (decimal (b.ledger - b.available)))]) }
      else e) := by
  unfold enrichReservedBalanceEventV1
  split
  · rename_i hnone
    cases h.account.symm.trans hnone
  · rename_i account hsome
    obtain rfl := Option.some.inj (h.account.symm.trans hsome)
    rw [if_pos h.eventType, hb]
    rfl

/-- An announced balance is reported by the event that the trigger stores. -/
theorem OutboxEvent.Announces.stored {s : Db} (h : e.Announces b tenant currency occurredAt)
    (hb : s.balances.find? b.accountId = some b)
    (he : enrichReservedBalanceEventV1 s e = some e') (hcurrency : IsCurrency currency) :
    e'.accountId = some b.accountId ∧ e'.IsBalance ∧ (b.Sound → e'.Reports b tenant currency) := by
  have hstored := Option.some.inj (he.symm.trans (h.enriched hb))
  -- The event that is stored carries what is reserved, if anything is.
  split_ifs at hstored with heq
  · -- Something is reserved: the payload takes its event type and two more amounts.
    obtain ⟨cause, hcause, causeId, amount, hpayload⟩ := h.payload
    subst hstored
    refine ⟨h.account, .inr rfl, fun hsound => ?_⟩
    have hread := @unmarshal_enriched b currency occurredAt e.id b.accountId causeId _ hcause amount
    rw [← hpayload] at hread
    have hreports := reports_of_payload (e := { e with
      eventType := balanceChangedV2
      payload := e.payload.merge (.obj [("event_type", .str balanceChangedV2),
        ("ledger_minor", .str b.ledger.text),
        ("reserved_minor", .str (decimal (b.ledger - b.available)))]) }) hcurrency (.inr rfl)
      h.account h.version hread rfl rfl rfl rfl hsound.nonneg (decodeLedger_v2 hsound rfl rfl rfl)
      rfl (parseRfc3339_utcText occurredAt)
    rw [← h.tenant]
    exact hreports
  -- Nothing is reserved, and the event is stored as it is.
  · subst hstored
    exact ⟨h.account, .inl h.eventType, fun hsound =>
      h.reports hsound hcurrency (not_ne_iff.mp heq)⟩

end Decode

end LedgerSync
