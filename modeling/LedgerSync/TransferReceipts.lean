import Mathlib.Data.String.Basic
import LedgerSync.BalanceEvents
import LedgerSync.Idempotency
import LedgerSync.Lib.SortedMap
import LedgerSync.Money
import LedgerSync.StatementParsers

/-!
# Stored transfer outcomes

The database writes the outcome of a transfer as a document, and the services decode it with checks
of their own: every amount is a canonical decimal text within 64 bits, and the posted amount of a
receipt is its available and its reserved amount (`TransferResult.unmarshalJSON`). Every outcome
that is stored decodes (`stored_outcomes_decode`), also when the transfer was that of a capture.
-/

namespace LedgerSync

open Lib

/-! ## Results of the services -/

/-- `Balance` of a receipt. -/
structure ReceiptBalance where
  accountId : String
  currency : String
  postedMinor : Bigint
  availableMinor : String
  reservedMinor : String
  version : Bigint
  asOf : String
deriving DecidableEq

/-- `Result`. Neither map is nil in a result that was decoded. -/
structure TransferResult where
  transferId : String
  status : String
  currency : String
  amountMinor : Bigint
  occurredAt : String
  minimumBalanceVersions : SortedMap String Bigint
  balances : SortedMap String ReceiptBalance
  rejectionCode : String

/-- `balanceJSON`. -/
structure EncodedBalance where
  accountId : String := ""
  currency : String := ""
  postedMinor : String := ""
  availableMinor : String := ""
  reservedMinor : String := ""
  version : String := ""
  asOf : String := ""

/-- `resultJSON`; a nil map is one without entries. -/
structure EncodedResult where
  transferId : String := ""
  status : String := ""
  currency : String := ""
  amountMinor : String := ""
  occurredAt : String := ""
  minimumBalanceVersions : SortedMap String String := .empty
  balances : SortedMap String EncodedBalance := .empty
  rejectionCode : String := ""

/-! ## Encoding -/

/-- A text field that is left out when it is empty. -/
def omitEmpty (name value : String) : List (String × Json) :=
  if value = "" then [] else [(name, .str value)]

/-- A balance as `json.Marshal` writes it. -/
def ReceiptBalance.marshalJSON (b : ReceiptBalance) : Json :=
  .obj ([("account_id", .str b.accountId), ("currency", .str b.currency),
      ("posted_minor", .str b.postedMinor.text)] ++
    omitEmpty "available_minor" b.availableMinor ++ omitEmpty "reserved_minor" b.reservedMinor ++
    [("version", .str b.version.text), ("as_of", .str b.asOf)])

/-- `MarshalJSON`. -/
def TransferResult.marshalJSON (r : TransferResult) : Json :=
  .obj ([("transfer_id", .str r.transferId), ("status", .str r.status),
      ("currency", .str r.currency), ("amount_minor", .str r.amountMinor.text),
      ("occurred_at", .str r.occurredAt), ("minimum_balance_versions",
        .obj (r.minimumBalanceVersions.entries.map fun x => (x.1, .str x.2.text)))] ++
    (if r.balances.entries.length = 0 then []
      else [("balances", .obj (r.balances.entries.map fun x => (x.1, x.2.marshalJSON)))]) ++
    omitEmpty "rejection_code" r.rejectionCode)

/-! ## Decoding -/

/-- The errors of `UnmarshalJSON`. -/
inductive ReceiptError where
  | json
  | amountMinor
  | minimumBalanceVersion
  | postedMinor
  | balanceVersion
  | availableMinor
  | reservationEquation
deriving DecidableEq

/-- A value that was read, or an error. -/
def decoded {α : Type} (value : Option α) (e : ReceiptError) : Except ReceiptError α :=
  match value with
  | some a => .ok a
  | none => .error e

/-- `parseFinancialInt`. -/
def parseFinancialInt (value : String) (allowZero : Bool) : Option Bigint :=
  if value = "" ∨ (1 < value.utf8ByteSize ∧ value.toList.head? = some '0') ∨ trimSpace value ≠ value
  then none
  else if ¬∀ digit ∈ value.toList, digit.isDigit = true then none
  else ((parseInt64 value).bind Bigint.ofInt?).filter fun parsed =>
    0 ≤ (parsed : ℤ) ∧ (allowZero = true ∨ (parsed : ℤ) ≠ 0)

/-- `foldRune`, as far as it can give an ASCII character. -/
def foldRune (c : Char) : Char :=
  if 'a' ≤ c ∧ c ≤ 'z' then Char.ofNat (c.toNat - 32)
  else if c = '\u017f' then 'S'
  else if c = '\u212a' then 'K'
  else c

/-- `json.Unmarshal` matches a key with a field whatever the case of its letters. -/
def foldName (name : String) : List Char := name.toList.map foldRune

/-- A text field after a value was decoded into it; a null leaves it as it is. -/
def textField (current : String) : Json → Except ReceiptError String
  | .str s => .ok s
  | .null => .ok current
  | _ => .error .json

/-- A map after a value was decoded into it, where the entries start from `zero`. -/
def mapField {α : Type} (decode : Json → Except ReceiptError α) (current : SortedMap String α) :
    Json → Except ReceiptError (SortedMap String α)
  | .obj fields => current.insertAll decode fields
  | .null => .ok .empty
  | _ => .error .json

/-- The fields of `balanceJSON`. -/
inductive BalanceField where
  | accountId | currency | postedMinor | availableMinor | reservedMinor | version | asOf
deriving DecidableEq

namespace BalanceField

/-- The fields in their order. -/
def all : List BalanceField :=
  [accountId, currency, postedMinor, availableMinor, reservedMinor, version, asOf]

/-- The key of a field. -/
def name : BalanceField → String
  | accountId => "account_id"
  | currency => "currency"
  | postedMinor => "posted_minor"
  | availableMinor => "available_minor"
  | reservedMinor => "reserved_minor"
  | version => "version"
  | asOf => "as_of"

/-- The field of a key. -/
def ofKey? (key : String) : Option BalanceField :=
  all.find? fun f => foldName f.name = foldName key

end BalanceField

/-- One field of `balanceJSON` decoded. -/
def EncodedBalance.set (b : EncodedBalance) (f : BalanceField) (v : Json) :
    Except ReceiptError EncodedBalance :=
  match f with
  | .accountId => return { b with accountId := ← textField b.accountId v }
  | .currency => return { b with currency := ← textField b.currency v }
  | .postedMinor => return { b with postedMinor := ← textField b.postedMinor v }
  | .availableMinor => return { b with availableMinor := ← textField b.availableMinor v }
  | .reservedMinor => return { b with reservedMinor := ← textField b.reservedMinor v }
  | .version => return { b with version := ← textField b.version v }
  | .asOf => return { b with asOf := ← textField b.asOf v }

/-- The members of an object decoded into the fields that they match. -/
def decodeFields {E F : Type} (ofKey? : String → Option F)
    (set : E → F → Json → Except ReceiptError E) (e : E) (members : List (String × Json)) :
    Except ReceiptError E :=
  members.foldlM (fun e member =>
    match ofKey? member.1 with
    | some f => set e f member.2
    | none => pure e) e

/-- A `balanceJSON` decoded. -/
def EncodedBalance.decode : Json → Except ReceiptError EncodedBalance
  | .obj members => decodeFields BalanceField.ofKey? EncodedBalance.set {} members
  | .null => .ok {}
  | _ => .error .json

/-- A text entry of a map. -/
def textEntry : Json → Except ReceiptError String := textField ""

/-- The fields of `resultJSON`. -/
inductive ResultField where
  | transferId | status | currency | amountMinor | occurredAt | minimumBalanceVersions | balances
  | rejectionCode
deriving DecidableEq

namespace ResultField

/-- The fields in their order. -/
def all : List ResultField :=
  [transferId, status, currency, amountMinor, occurredAt, minimumBalanceVersions, balances,
    rejectionCode]

/-- The key of a field. -/
def name : ResultField → String
  | transferId => "transfer_id"
  | status => "status"
  | currency => "currency"
  | amountMinor => "amount_minor"
  | occurredAt => "occurred_at"
  | minimumBalanceVersions => "minimum_balance_versions"
  | balances => "balances"
  | rejectionCode => "rejection_code"

/-- The field of a key. -/
def ofKey? (key : String) : Option ResultField :=
  all.find? fun f => foldName f.name = foldName key

end ResultField

/-- One field of `resultJSON` decoded. -/
def EncodedResult.set (r : EncodedResult) (f : ResultField) (v : Json) :
    Except ReceiptError EncodedResult :=
  match f with
  | .transferId => return { r with transferId := ← textField r.transferId v }
  | .status => return { r with status := ← textField r.status v }
  | .currency => return { r with currency := ← textField r.currency v }
  | .amountMinor => return { r with amountMinor := ← textField r.amountMinor v }
  | .occurredAt => return { r with occurredAt := ← textField r.occurredAt v }
  | .minimumBalanceVersions =>
    return { r with
      minimumBalanceVersions := ← mapField textEntry r.minimumBalanceVersions v }
  | .balances => return { r with balances := ← mapField EncodedBalance.decode r.balances v }
  | .rejectionCode => return { r with rejectionCode := ← textField r.rejectionCode v }

/-- A `resultJSON` decoded by `json.Unmarshal`. -/
def EncodedResult.decode : Json → Except ReceiptError EncodedResult
  | .obj members => decodeFields ResultField.ofKey? EncodedResult.set {} members
  | .null => .ok {}
  | _ => .error .json

/-- The check of the amounts of a balance, which old receipts do not have. -/
def EncodedBalance.checkReservation (b : EncodedBalance) (posted : Bigint) :
    Except ReceiptError Unit :=
  if b.availableMinor ≠ "" ∨ b.reservedMinor ≠ "" then do
    let available ← decoded (parseFinancialInt b.availableMinor true) .availableMinor
    let reserved ← decoded (parseFinancialInt b.reservedMinor true) .reservationEquation
    if (posted : ℤ) < available ∨ (posted : ℤ) - available ≠ reserved then
      .error .reservationEquation
    else .ok ()
  else .ok ()

/-- The numbers of a balance. -/
def EncodedBalance.balance (b : EncodedBalance) : Except ReceiptError ReceiptBalance := do
  let posted ← decoded (parseFinancialInt b.postedMinor true) .postedMinor
  let version ← decoded (parseFinancialInt b.version true) .balanceVersion
  b.checkReservation posted
  pure ⟨b.accountId, b.currency, posted, b.availableMinor, b.reservedMinor, version, b.asOf⟩

/-- The number of a minimum balance version. -/
def minimumVersion (value : String) : Except ReceiptError Bigint :=
  decoded (parseFinancialInt value true) .minimumBalanceVersion

/-- `UnmarshalJSON`. -/
def TransferResult.unmarshalJSON (data : Json) : Except ReceiptError TransferResult := do
  let encoded ← EncodedResult.decode data
  let amount ← decoded (parseFinancialInt encoded.amountMinor false) .amountMinor
  let versions ← SortedMap.empty.insertAll minimumVersion encoded.minimumBalanceVersions.entries
  let balances ← SortedMap.empty.insertAll EncodedBalance.balance encoded.balances.entries
  pure {
    transferId := encoded.transferId
    status := encoded.status
    currency := encoded.currency
    amountMinor := amount
    occurredAt := encoded.occurredAt
    minimumBalanceVersions := versions
    balances := balances
    rejectionCode := encoded.rejectionCode }

/-! ## What was written is read back -/

/-- The canonical text of a number that is not negative is accepted. -/
theorem parseFinancialInt_text {b : Bigint} {allowZero : Bool} (h : 0 ≤ (b : ℤ))
    (hzero : allowZero = true ∨ (b : ℤ) ≠ 0) : parseFinancialInt b.text allowZero = some b := by
  obtain ⟨n, hn⟩ := Int.eq_ofNat_of_zero_le h
  have htext : b.text.toList = Nat.toDigits 10 n := by
    rw [Bigint.text, hn]
    exact String.toList_ofList
  have hdigits : ∀ c ∈ b.text.toList, c.isDigit = true := by
    rw [htext]
    exact fun c hc => Nat.isDigit_of_mem_toDigits (by decide) (by decide) hc
  have hne : b.text ≠ "" := by
    intro hempty
    rw [hempty] at htext
    exact Nat.toDigits_ne_nil htext.symm
  -- Only zero has a leading zero.
  have hcanonical : ¬(1 < b.text.utf8ByteSize ∧ b.text.toList.head? = some '0') := by
    rintro ⟨hsize, hhead⟩
    rcases Nat.eq_zero_or_pos n with rfl | hpos
    · rw [show b.text = "0" by rw [Bigint.text, hn]; rfl] at hsize
      exact absurd hsize (by decide)
    · have hlt : n < 2 ^ 63 := by
        have := b.inRange.2
        omega
      have hshape := toDigits_isPositiveDigits hpos hlt
      rw [← htext] at hshape
      rcases htoList : b.text.toList with _ | ⟨c, cs⟩
      · rw [htoList] at hhead
        cases hhead
      · rw [htoList] at hhead hshape
        exact hshape.2.1 (Option.some.inj hhead)
  have htrim : trimSpace b.text = b.text := by
    refine trimSpace_of_ends (fun c hc => ?_) fun c hc => ?_
    · exact Money.isSpace_of_digit (hdigits c (List.mem_of_head? hc))
    · exact Money.isSpace_of_digit (hdigits c (List.mem_of_getLast? hc))
  have hshape : ¬(b.text = "" ∨ (1 < b.text.utf8ByteSize ∧ b.text.toList.head? = some '0') ∨
      trimSpace b.text ≠ b.text) := by
    rintro (hbad | hbad | hbad)
    · exact hne hbad
    · exact hcanonical hbad
    · exact hbad htrim
  have hread : (parseInt64 b.text).bind Bigint.ofInt? = some b := castBigint_decimal b
  unfold parseFinancialInt
  rw [if_neg hshape, if_neg (not_not.mpr hdigits), hread, Option.filter_some,
    if_pos (decide_eq_true ⟨h, hzero⟩)]

/-- A number that was accepted is not negative, and not zero unless zero is allowed. -/
theorem parseFinancialInt_range {value : String} {allowZero : Bool} {b : Bigint}
    (h : parseFinancialInt value allowZero = some b) :
    0 ≤ (b : ℤ) ∧ (allowZero = true ∨ (b : ℤ) ≠ 0) := by
  unfold parseFinancialInt at h
  split_ifs at h
  exact of_decide_eq_true (Option.filter_eq_some_iff.mp h).2

/-- A value that can be decoded is its own. -/
theorem decoded_ok {α : Type} {value : Option α} {e : ReceiptError} {a : α} :
    decoded value e = .ok a ↔ value = some a := by
  rcases value with _ | b
  · exact iff_of_false (fun h => (nomatch h)) (fun h => (nomatch h))
  · exact ⟨fun h => congrArg some (Except.ok.inj h), fun h => congrArg Except.ok (Option.some.inj h)⟩

/-- The receipt has no split of its posted amount, as old receipts, or it has the right one. -/
def ReceiptBalance.Split (b : ReceiptBalance) : Prop :=
  (b.availableMinor = "" ∧ b.reservedMinor = "") ∨
    ∃ available reserved, parseFinancialInt b.availableMinor true = some available ∧
      parseFinancialInt b.reservedMinor true = some reserved ∧
      (b.postedMinor : ℤ) = available + reserved

/-- A balance that decoding can give. -/
structure ReceiptBalance.WellFormed (b : ReceiptBalance) : Prop where
  posted : 0 ≤ (b.postedMinor : ℤ)
  version : 0 ≤ (b.version : ℤ)
  split : b.Split

/-- A result that decoding can give. -/
structure TransferResult.WellFormed (r : TransferResult) : Prop where
  amount : 0 < (r.amountMinor : ℤ)
  versions : ∀ x ∈ r.minimumBalanceVersions.entries, 0 ≤ (x.2 : ℤ)
  balances : ∀ x ∈ r.balances.entries, x.2.WellFormed

/-- The check of a reservation passes when nothing is reserved, or when both parts add up to what is
posted. -/
theorem checkReservation_ok {b : EncodedBalance} {posted : Bigint} :
    b.checkReservation posted = .ok () ↔ (b.availableMinor = "" ∧ b.reservedMinor = "") ∨
      ∃ available reserved, parseFinancialInt b.availableMinor true = some available ∧
        parseFinancialInt b.reservedMinor true = some reserved ∧
        (posted : ℤ) = available + reserved := by
  unfold EncodedBalance.checkReservation
  -- A balance without the two split fields is an older one, which the check accepts as it is.
  by_cases hsplit : b.availableMinor ≠ "" ∨ b.reservedMinor ≠ ""
  · rw [if_pos hsplit]
    constructor
    · intro h
      right
      rcases havailable : parseFinancialInt b.availableMinor true with _ | available
      · rw [havailable] at h
        cases h
      rcases hreserved : parseFinancialInt b.reservedMinor true with _ | reserved
      · rw [havailable, hreserved] at h
        cases h
      rw [havailable, hreserved] at h
      change (if (posted : ℤ) < available ∨ (posted : ℤ) - available ≠ reserved then
        Except.error ReceiptError.reservationEquation else .ok ()) = .ok () at h
      split_ifs at h with hbad
      refine ⟨available, reserved, rfl, rfl, ?_⟩
      omega
    -- The sum of the two parts is what the comparison in the code says with a subtraction.
    · rintro (⟨hnone, hnone'⟩ | ⟨available, reserved, havailable, hreserved, hsum⟩)
      · exact absurd hsplit (by rw [hnone, hnone']; simp)
      · rw [havailable, hreserved]
        have hnonneg := (parseFinancialInt_range hreserved).1
        exact if_neg (by omega)
  · rw [if_neg hsplit]
    rw [not_or, not_not, not_not] at hsplit
    exact iff_of_true rfl (.inl hsplit)

/-- A balance before its numbers are read. -/
def ReceiptBalance.encoded (b : ReceiptBalance) : EncodedBalance where
  accountId := b.accountId
  currency := b.currency
  postedMinor := b.postedMinor.text
  availableMinor := b.availableMinor
  reservedMinor := b.reservedMinor
  version := b.version.text
  asOf := b.asOf

/-- A balance that is encoded is read back. -/
theorem ReceiptBalance.WellFormed.balance_encoded {b : ReceiptBalance} (h : b.WellFormed) :
    b.encoded.balance = .ok b := by
  have hposted : parseFinancialInt b.encoded.postedMinor true = some b.postedMinor :=
    parseFinancialInt_text h.posted (.inl rfl)
  have hversion : parseFinancialInt b.encoded.version true = some b.version :=
    parseFinancialInt_text h.version (.inl rfl)
  have hcheck : b.encoded.checkReservation b.postedMinor = .ok () :=
    checkReservation_ok.mpr h.split
  unfold EncodedBalance.balance
  rw [hposted, hversion]
  change (b.encoded.checkReservation b.postedMinor >>= fun _ => _) = _
  rw [hcheck]
  rfl

/-- A balance that was decoded is well formed. -/
theorem balance_wellFormed {e : EncodedBalance} {b : ReceiptBalance} (h : e.balance = .ok b) :
    b.WellFormed := by
  unfold EncodedBalance.balance at h
  rcases hposted : parseFinancialInt e.postedMinor true with _ | posted
  · rw [hposted] at h
    cases h
  rcases hversion : parseFinancialInt e.version true with _ | version
  · rw [hposted, hversion] at h
    cases h
  rw [hposted, hversion] at h
  rcases hcheck : e.checkReservation posted with err | u
  · change (e.checkReservation posted >>= fun _ => _) = _ at h
    rw [hcheck] at h
    cases h
  · change (e.checkReservation posted >>= fun _ => _) = _ at h
    rw [hcheck] at h
    obtain rfl := Except.ok.inj h
    exact ⟨(parseFinancialInt_range hposted).1, (parseFinancialInt_range hversion).1,
      checkReservation_ok.mp hcheck⟩

/-- A field of a balance is found under its name. -/
theorem BalanceField.ofKey?_name (f : BalanceField) : ofKey? f.name = some f := by
  cases f <;> decide

/-- A field of a result is found under its name. -/
theorem ResultField.ofKey?_name (f : ResultField) : ofKey? f.name = some f := by
  cases f <;> decide

/-- The first member of an object goes to its field. -/
theorem decodeFields_cons {E F : Type} {ofKey? : String → Option F}
    {set : E → F → Json → Except ReceiptError E} {e e' : E} {key : String} {f : F} {v : Json}
    {members : List (String × Json)} (hkey : ofKey? key = some f) (hset : set e f v = .ok e') :
    decodeFields ofKey? set e ((key, v) :: members) = decodeFields ofKey? set e' members := by
  unfold decodeFields
  rw [List.foldlM_cons]
  dsimp only
  rw [hkey]
  dsimp only
  rw [hset]
  rfl

/-- A field that was left out because it is empty is empty after decoding. -/
theorem decodeFields_omitEmpty {E F : Type} {ofKey? : String → Option F}
    {set : E → F → Json → Except ReceiptError E} {e e' : E} {key value : String} {f : F}
    {members : List (String × Json)} (hkey : ofKey? key = some f)
    (hset : set e f (.str value) = .ok e') (hempty : value = "" → e = e') :
    decodeFields ofKey? set e (omitEmpty key value ++ members) =
      decodeFields ofKey? set e' members := by
  unfold omitEmpty
  by_cases h : value = ""
  · rw [if_pos h, List.nil_append, hempty h]
  · rw [if_neg h, List.singleton_append]
    exact decodeFields_cons hkey hset

/-- Decoding an encoded balance gives its texts. -/
theorem decode_marshalJSON_balance (b : ReceiptBalance) :
    EncodedBalance.decode b.marshalJSON = .ok b.encoded := by
  have hkey (key : String) (f : BalanceField) (h : f.name = key) :
      BalanceField.ofKey? key = some f := h ▸ f.ofKey?_name
  unfold EncodedBalance.decode ReceiptBalance.marshalJSON
  dsimp only
  rw [List.append_assoc, List.append_assoc, List.cons_append, List.cons_append, List.cons_append,
    List.nil_append]
  rw [decodeFields_cons (hkey "account_id" .accountId rfl) rfl,
    decodeFields_cons (hkey "currency" .currency rfl) rfl,
    decodeFields_cons (hkey "posted_minor" .postedMinor rfl) rfl,
    decodeFields_omitEmpty (hkey "available_minor" .availableMinor rfl) rfl (fun h => by rw [h]),
    decodeFields_omitEmpty (hkey "reserved_minor" .reservedMinor rfl) rfl (fun h => by rw [h]),
    decodeFields_cons (hkey "version" .version rfl) rfl,
    decodeFields_cons (hkey "as_of" .asOf rfl) rfl]
  rfl

/-- A result before its numbers are read. -/
def TransferResult.encoded (r : TransferResult) : EncodedResult where
  transferId := r.transferId
  status := r.status
  currency := r.currency
  amountMinor := r.amountMinor.text
  occurredAt := r.occurredAt
  minimumBalanceVersions := r.minimumBalanceVersions.mapValues Bigint.text
  balances := r.balances.mapValues ReceiptBalance.encoded
  rejectionCode := r.rejectionCode

/-- The versions of a result are set from their object. -/
theorem set_minimumBalanceVersions {e : EncodedResult} {members : List (String × Json)}
    {m : SortedMap String String} (hempty : e.minimumBalanceVersions = .empty)
    (h : SortedMap.empty.insertAll textEntry members = .ok m) :
    e.set .minimumBalanceVersions (.obj members) =
      .ok { e with minimumBalanceVersions := m } := by
  unfold EncodedResult.set mapField
  dsimp only
  rw [hempty, h]
  rfl

/-- The balances of a result are set from their object. -/
theorem set_balances {e : EncodedResult} {members : List (String × Json)}
    {m : SortedMap String EncodedBalance} (hempty : e.balances = .empty)
    (h : SortedMap.empty.insertAll EncodedBalance.decode members = .ok m) :
    e.set .balances (.obj members) = .ok { e with balances := m } := by
  unfold EncodedResult.set mapField
  dsimp only
  rw [hempty, h]
  rfl

/-- Decoding an encoded result gives its texts. -/
theorem decode_marshalJSON_result (r : TransferResult) :
    EncodedResult.decode r.marshalJSON = .ok r.encoded := by
  have hkey (key : String) (f : ResultField) (h : f.name = key) :
      ResultField.ofKey? key = some f := h ▸ f.ofKey?_name
  -- The two maps are decoded entry by entry, each entry as it was encoded.
  have hversions : SortedMap.empty.insertAll textEntry
      (r.minimumBalanceVersions.entries.map fun x => (x.1, Json.str x.2.text)) =
        .ok (r.minimumBalanceVersions.mapValues Bigint.text) :=
    SortedMap.insertAll_entries (f := textEntry) (g := fun v => .str v.text) (k := Bigint.text)
      r.minimumBalanceVersions fun _ _ => rfl
  have hbalances : SortedMap.empty.insertAll EncodedBalance.decode
      (r.balances.entries.map fun x => (x.1, x.2.marshalJSON)) =
        .ok (r.balances.mapValues ReceiptBalance.encoded) :=
    SortedMap.insertAll_entries r.balances fun x _ => decode_marshalJSON_balance x.2
  unfold EncodedResult.decode TransferResult.marshalJSON
  dsimp only
  rw [List.append_assoc, List.cons_append, List.cons_append, List.cons_append, List.cons_append,
    List.cons_append, List.cons_append, List.nil_append]
  rw [decodeFields_cons (hkey "transfer_id" .transferId rfl) rfl,
    decodeFields_cons (hkey "status" .status rfl) rfl,
    decodeFields_cons (hkey "currency" .currency rfl) rfl,
    decodeFields_cons (hkey "amount_minor" .amountMinor rfl) rfl,
    decodeFields_cons (hkey "occurred_at" .occurredAt rfl) rfl,
    decodeFields_cons (hkey "minimum_balance_versions" .minimumBalanceVersions rfl)
      (set_minimumBalanceVersions rfl hversions)]
  -- An omitted rejection code leaves the empty default, so that both cases decode alike.
  have hrejection {e : EncodedResult} (h : e.rejectionCode = "") :
      decodeFields ResultField.ofKey? EncodedResult.set e
        (omitEmpty "rejection_code" r.rejectionCode) =
          .ok { e with rejectionCode := r.rejectionCode } := by
    have hset : e.set .rejectionCode (.str r.rejectionCode) =
        .ok { e with rejectionCode := r.rejectionCode } := rfl
    rw [← List.append_nil (omitEmpty _ _), decodeFields_omitEmpty
      (hkey "rejection_code" .rejectionCode rfl) hset fun hr => by rw [hr, ← h]]
    rfl
  -- Without balances the field is left out, and the default map is empty as well.
  by_cases hnone : r.balances.entries.length = 0
  · have hempty : r.balances.mapValues ReceiptBalance.encoded = .empty := by
      refine SortedMap.ext ?_
      rw [SortedMap.entries_mapValues, List.length_eq_zero_iff.mp hnone]
      rfl
    rw [if_pos hnone, List.nil_append, hrejection rfl]
    unfold TransferResult.encoded
    rw [hempty]
  · rw [if_neg hnone, List.singleton_append,
      decodeFields_cons (hkey "balances" .balances rfl) (set_balances rfl hbalances),
      hrejection rfl]
    rfl

/-- What is encoded from a well-formed result is decoded to it. -/
theorem TransferResult.WellFormed.unmarshalJSON_marshalJSON {r : TransferResult}
    (h : r.WellFormed) : TransferResult.unmarshalJSON r.marshalJSON = .ok r := by
  -- Each of the three decoded fields reads its own text back.
  have hamount : decoded (parseFinancialInt r.encoded.amountMinor false) .amountMinor =
      .ok r.amountMinor := by
    have hpos := h.amount
    exact decoded_ok.mpr (parseFinancialInt_text (by omega) (.inr (by omega)))
  have hversions : SortedMap.empty.insertAll minimumVersion
      r.encoded.minimumBalanceVersions.entries = .ok r.minimumBalanceVersions := by
    rw [TransferResult.encoded, SortedMap.entries_mapValues, SortedMap.insertAll_entries
      (f := minimumVersion) (g := Bigint.text) (k := fun v => v) r.minimumBalanceVersions
        fun x hx => decoded_ok.mpr (parseFinancialInt_text (h.versions x hx) (.inl rfl)),
      SortedMap.mapValues_id]
  have hbalances : SortedMap.empty.insertAll EncodedBalance.balance r.encoded.balances.entries =
      .ok r.balances := by
    rw [TransferResult.encoded, SortedMap.entries_mapValues, SortedMap.insertAll_entries
      (f := EncodedBalance.balance) (g := ReceiptBalance.encoded) (k := fun b => b) r.balances
        fun x hx => (h.balances x hx).balance_encoded,
      SortedMap.mapValues_id]
  unfold TransferResult.unmarshalJSON
  rw [decode_marshalJSON_result]
  change (decoded _ _ >>= fun _ => _) = _
  rw [hamount]
  change (SortedMap.empty.insertAll _ _ >>= fun _ => _) = _
  rw [hversions]
  change (SortedMap.empty.insertAll _ _ >>= fun _ => _) = _
  rw [hbalances]
  rfl

/-- A result that was decoded is well formed. -/
theorem unmarshalJSON_wellFormed {data : Json} {r : TransferResult}
    (h : TransferResult.unmarshalJSON data = .ok r) : r.WellFormed := by
  unfold TransferResult.unmarshalJSON at h
  -- Decoding succeeded, so that none of its four steps failed.
  rcases hdecode : EncodedResult.decode data with err | e
  · rw [hdecode] at h
    cases h
  rw [hdecode] at h
  change (decoded _ _ >>= fun _ => _) = _ at h
  rcases hamount : parseFinancialInt e.amountMinor false with _ | amount
  · rw [hamount] at h
    cases h
  rw [hamount] at h
  change (SortedMap.empty.insertAll _ _ >>= fun _ => _) = _ at h
  rcases hversions : SortedMap.empty.insertAll minimumVersion e.minimumBalanceVersions.entries
    with err | versions
  · rw [hversions] at h
    cases h
  rw [hversions] at h
  change (SortedMap.empty.insertAll _ _ >>= fun _ => _) = _ at h
  rcases hbalances : SortedMap.empty.insertAll EncodedBalance.balance e.balances.entries
    with err | balances
  · rw [hbalances] at h
    cases h
  rw [hbalances] at h
  obtain rfl := Except.ok.inj h
  have hnonneg := parseFinancialInt_range hamount
  refine ⟨?_, ?_, ?_⟩
  -- The amount was read without zero being allowed.
  · have hne : (amount : ℤ) ≠ 0 := hnonneg.2.resolve_left Bool.false_ne_true
    have hle := hnonneg.1
    dsimp only
    omega
  · exact SortedMap.forall_of_insertAll
      (fun _ _ hb => (parseFinancialInt_range (decoded_ok.mp hb)).1)
      (fun _ hx => absurd hx List.not_mem_nil) hversions
  · exact SortedMap.forall_of_insertAll (fun _ _ hb => balance_wellFormed hb)
      (fun _ hx => absurd hx List.not_mem_nil) hbalances

/-! ## The two outcomes of a transfer -/

/-- The receipt of a balance: the posted amount is the available and the reserved one. -/
structure ReceiptBalance.Reports (receipt : ReceiptBalance) (account : Uuid) (currency : String)
    (b : Balance) : Prop where
  accountId : receipt.accountId = account.text
  currency : receipt.currency = currency
  posted : receipt.postedMinor = b.ledger
  available : receipt.availableMinor = b.available.text
  version : receipt.version = b.version
  split : ∃ reserved : Bigint, receipt.reservedMinor = reserved.text ∧
    (receipt.postedMinor : ℤ) = b.available + reserved

/-- The result is that of a transfer: rejected, or posted with the balance of the debit account as
it stands in the database. -/
structure TransferResult.Describes (r : TransferResult) (x : Transfer) (s : Db) : Prop where
  transferId : r.transferId = x.id.text
  currency : r.currency = x.currency
  amount : r.amountMinor = x.amount
  outcome : (x.status = .rejected ∧ r.status = "rejected" ∧
      r.rejectionCode = "insufficient_funds" ∧ r.minimumBalanceVersions = .empty ∧
      r.balances = .empty) ∨
    (x.status = .posted ∧ r.status = "posted" ∧ r.rejectionCode = "" ∧
      ∃ b receipt, s.balances.find? x.debitAccountId = some b ∧
        r.minimumBalanceVersions = .singleton x.debitAccountId.text b.version ∧
        r.balances = .singleton x.debitAccountId.text receipt ∧
        receipt.Reports x.debitAccountId x.currency b)

/-- A stored body is that of a transfer, with the amounts of a database. -/
structure TransferReceipt (body : Json) (r : TransferResult) (x : Transfer) (s : Db) : Prop where
  body : body = r.marshalJSON
  wellFormed : r.WellFormed
  transfer : s.transfers.find? x.id = some x
  describes : r.Describes x s

/-- A text that was accepted as a number is not empty. -/
theorem ne_empty_of_parseFinancialInt {value : String} {allowZero : Bool} {b : Bigint}
    (h : parseFinancialInt value allowZero = some b) : value ≠ "" := by
  rintro rfl
  unfold parseFinancialInt at h
  rw [if_pos (.inl rfl)] at h
  cases h

/-- The body of a rejection is an encoded result. -/
theorem rejectedBody_receipt {p : TransferRequest} {ids : TransferIds} {x : Transfer} {s : Db}
    (hx : s.transfers.find? x.id = some x) (hid : x.id = ids.transfer)
    (hcurrency : x.currency = p.currency) (hamount : x.amount = p.amount)
    (hstatus : x.status = .rejected) : ∃ r, TransferReceipt (rejectedBody p ids) r x s := by
  refine ⟨⟨ids.transfer.text, "rejected", p.currency, p.amount, utcText p.occurredAt, .empty, .empty,
    "insufficient_funds"⟩, rfl, ⟨?_, ?_, ?_⟩, hx, ?_⟩
  · rw [← hamount]
    exact x.amount_pos
  · exact fun _ h => absurd h List.not_mem_nil
  · exact fun _ h => absurd h List.not_mem_nil
  · exact ⟨by rw [hid], hcurrency.symm, hamount.symm, .inl ⟨hstatus, rfl, rfl, rfl, rfl⟩⟩

/-- The body of a posting is an encoded result when the balance is sound. -/
theorem postedBody_receipt {p : TransferRequest} {ids : TransferIds} {x : Transfer} {b : Balance}
    {s : Db} (hx : s.transfers.find? x.id = some x) (hid : x.id = ids.transfer)
    (hdebit : x.debitAccountId = p.debitAccountId) (hcurrency : x.currency = p.currency)
    (hamount : x.amount = p.amount) (hstatus : x.status = .posted)
    (hb : s.balances.find? p.debitAccountId = some b) (hsound : b.Sound) :
    ∃ r, TransferReceipt (postedBody p ids b) r x s := by
  have hnonneg := hsound.nonneg
  have hle := hsound.le
  -- The reserved amount fits, since it is between zero and the posted amount.
  have hfits : Bigint.Fits ((b.ledger : ℤ) - b.available) := by
    have := b.ledger.inRange
    unfold Bigint.Fits
    omega
  have havailable : parseFinancialInt b.available.text true = some b.available :=
    parseFinancialInt_text hnonneg (.inl rfl)
  have hreserved : parseFinancialInt (decimal ((b.ledger : ℤ) - b.available)) true =
      some ⟨_, hfits⟩ := parseFinancialInt_text (b := ⟨_, hfits⟩) (by dsimp only; omega) (.inl rfl)
  have hsum : (b.ledger : ℤ) = b.available + ((b.ledger : ℤ) - b.available) := by omega
  refine ⟨⟨ids.transfer.text, "posted", p.currency, p.amount, utcText p.occurredAt,
    .singleton p.debitAccountId.text b.version, .singleton p.debitAccountId.text
      ⟨p.debitAccountId.text, p.currency, b.ledger, b.available.text,
        decimal (b.ledger - b.available), b.version, utcText p.occurredAt⟩, ""⟩,
    ?_, ⟨?_, ?_, ?_⟩, hx, ?_⟩
  · unfold TransferResult.marshalJSON SortedMap.singleton ReceiptBalance.marshalJSON omitEmpty
    simp only [List.map_cons, List.map_nil]
    rw [if_neg (ne_empty_of_parseFinancialInt havailable),
      if_neg (ne_empty_of_parseFinancialInt hreserved)]
    rfl
  · rw [← hamount]
    exact x.amount_pos
  · intro y hy
    obtain rfl := List.mem_singleton.mp hy
    exact b.version_nonneg
  · intro y hy
    obtain rfl := List.mem_singleton.mp hy
    exact ⟨by dsimp only; omega, b.version_nonneg, .inr ⟨_, _, havailable, hreserved, hsum⟩⟩
  · refine ⟨by rw [hid], hcurrency.symm, hamount.symm, .inr ⟨hstatus, rfl, rfl, ?_⟩⟩
    rw [hdebit, hcurrency]
    exact ⟨b, _, hb, rfl, rfl, rfl, rfl, rfl, rfl, rfl, ⟨_, hfits⟩, rfl, hsum⟩

/-! ## Every stored outcome -/

section Stored

variable {d : Digest} {s s' : Db}

/-- A transfer was posted only from a balance that covered it. -/
theorem executeTransfer_covered {p : TransferRequest} {ids : TransferIds} {body : Json}
    {replayed : Bool} (h : executeTransfer p ids s = .ok ((body, replayed), s'))
    (hposted : PostedTransfer p ids s s' body) :
    (p.amount : ℤ) ≤ hposted.source.available ∧ (p.amount : ℤ) ≤ hposted.source.ledger := by
  simp only [executeTransfer, Txn.bind_ok, insertRequest_ok, pruneVelocity_ok, checkVelocity_ok,
    Txn.orRaise_ok, insertTransfer_ok, Txn.pure_ok, Prod.mk.injEq] at h
  obtain ⟨_, _, ⟨requests, hreq, rfl⟩, ⟨policy, source, destination⟩, _, hchecks, _, _, ⟨hprune, rfl⟩,
    _, _, ⟨hlimits, rfl⟩, x, _, ⟨hx, rfl⟩, _, _, ⟨-, transfers, htr, rfl⟩, body', s₂, hout, _, s₃,
    hdone, ⟨rfl, rfl⟩, rfl⟩ := h
  obtain ⟨rfl, hpassed⟩ := admitTransfer_ok.mp hchecks
  obtain ⟨a, ha, -, -⟩ := hpassed.source_find
  have hsource : s.balances.find? p.debitAccountId = some source :=
    (Db.account?_eq_some.mp ha).2.1
  obtain rfl : hposted.source = source :=
    Option.some.inj (hposted.move.source_find.symm.trans hsource)
  -- Only the branch that settles writes a journal.
  unfold settleTransfer at hout
  split at hout
  · -- A rejection has another body.
    obtain ⟨hbody, -⟩ := rejectTransfer_ok hout
    have hstatus := (postedBody_text p ids hposted.source').1
    rw [← hposted.body_eq, hbody, rejectedBody_text] at hstatus
    exact absurd hstatus (by decide)
  · rename_i hcovered
    rw [not_or, not_lt, not_lt] at hcovered
    exact hcovered

/-- Of an account that is booked, no more is available than what is posted. -/
theorem Booked.available_le (hs : Booked s) {x : Uuid} {a : Account} {b : Balance}
    (ha : s.accounts.find? x = some a) (hb : s.balances.find? x = some b) :
    (b.available : ℤ) ≤ b.ledger := by
  obtain ⟨p, hp, hbalanced⟩ := hs.balanced x a ha
  obtain ⟨b', o, hb', -, rfl⟩ := Db.position?_eq_some.mp hp
  obtain rfl := Option.some.inj (hb.symm.trans hb')
  have havailable : (b.available : ℤ) = b.ledger - s.reserved x := hbalanced.available
  have hreserved := s.reserved_nonneg x
  omega

/-- A fresh request answers with the receipt of its transfer. -/
theorem executeTransfer_receipt {p : TransferRequest} {ids : TransferIds} {body : Json}
    {replayed : Bool} (hs : Booked s) (h : executeTransfer p ids s = .ok ((body, replayed), s')) :
    (∃ r x, x.id = ids.transfer ∧ TransferReceipt body r x s') ∧
      s.idempotencyRequests.insert? (p.completion ids.transfer body) =
        some s'.idempotencyRequests := by
  obtain ⟨-, ⟨⟨hrejected⟩⟩ | ⟨⟨hposted⟩⟩⟩ := executeTransfer_ok h
  · obtain ⟨hid, -, -, -, -, hamount, hcurrency, -⟩ := pendingTransfer?_eq_some hrejected.row_eq
    refine ⟨?_, hrejected.requests⟩
    rw [hrejected.body_eq]
    obtain ⟨r, hr⟩ := rejectedBody_receipt (Table.find?_insert?_self hrejected.transfers rfl) hid
      hcurrency hamount rfl
    exact ⟨r, hrejected.row.reject p.now, hid, hr⟩
  · obtain ⟨hid, -, -, hdebit, hcredit, hamount, hcurrency, -⟩ :=
      pendingTransfer?_eq_some hposted.row_eq
    -- The accounts are distinct in the row, and the row takes them from the request.
    have hne : p.debitAccountId ≠ p.creditAccountId := by
      rw [← hdebit, ← hcredit]
      exact hposted.row.distinct
    have hcovered := executeTransfer_covered h hposted
    have hwritten := hposted.move.source_written
    obtain ⟨⟨a, ha, -⟩, -⟩ := hposted.admitted.accounts
    have hle := hs.available_le ha hposted.move.source_find
    -- Enough was available, so that neither balance becomes negative.
    have hsound : hposted.source'.Sound :=
      ⟨by rw [hwritten.available]; omega, by rw [hwritten.available, hwritten.ledger]; omega⟩
    refine ⟨?_, hposted.requests⟩
    rw [hposted.body_eq]
    obtain ⟨r, hr⟩ := postedBody_receipt (Table.find?_insert?_self hposted.transfers rfl) hid hdebit
      hcurrency hamount rfl (hposted.move.find?_debit hne) hsound
    exact ⟨r, hposted.row.post ids.journal p.now, hid, hr⟩

/-- A capture stores the receipt of its transfer. -/
theorem HoldCaptured.receipt {p : HoldDecisionRequest} {clock : DecisionClock} {ids : DecisionIds}
    (h : HoldCaptured d p clock ids s s') (hs : Booked s) (hc : CustomersCovered s)
    (hchange : Change d s s') : ∃ r x, TransferReceipt h.body r x s' := by
  obtain ⟨hid, -, -, hdebit, -, hamount, hcurrency, -⟩ :=
    pendingTransfer?_eq_some h.posted.row_eq
  have hbalances : s'.balances = h.mid.balances := (congrArg Db.balances h.frame :)
  have htransfers : s'.transfers = h.mid.transfers := (congrArg Db.transfers h.frame :)
  have hb : s'.balances.find? h.hold.debitAccountId = some h.posted.source' := by
    rw [hbalances]
    exact h.posted.move.find?_debit h.hold.distinct
  -- The source of a hold is a customer, so its balance is sound after the capture.
  obtain ⟨a, ha, -, -, hkind⟩ := (hs.holds h.hold (Table.mem_of_find? h.find)).source
  obtain ⟨a', ha', hsame⟩ := hchange.account_kept ha
  have hsound : h.posted.source'.Sound :=
    (hchange.booked hs).sound (hchange.customersCovered hc) ha' hb (hsame.kind.trans hkind)
  have hx := Table.find?_insert?_self (k := h.posted.row.id) h.posted.transfers rfl
  rw [← htransfers] at hx
  obtain ⟨r, hr⟩ := postedBody_receipt
    (x := h.posted.row.post ids.transfer.journal (captureTransfer d p h.hold clock.now).now)
    hx hid hdebit hcurrency hamount rfl hb hsound
  rw [h.posted.body_eq]
  exact ⟨r, _, hr⟩

/-- A request that is stored after a call was stored before it, or the call stored it with the
receipt of its transfer. -/
theorem exec_receipt {c : Call} {u : Unit} (hs : Booked s) (hc : CustomersCovered s)
    (h : exec d c s = .ok (u, s')) {q : IdempotencyRequest} (hq : q ∈ s'.idempotencyRequests) :
    q ∈ s.idempotencyRequests ∨
      ∃ body r x, q.responseBody = some body ∧ TransferReceipt body r x s' := by
  -- A rejected and a posted transfer are stored in the same way.
  have hsubmitted : ∀ {sess p ids}, c = .submitTransfer sess p ids → q ∈ s.idempotencyRequests ∨
      ∃ body r x, q.responseBody = some body ∧ TransferReceipt body r x s' := by
    rintro sess p ids rfl
    obtain ⟨⟨body, replayed⟩, hsubmit⟩ := Txn.discard_ok.mp h
    have hreturned := hsubmit
    obtain ⟨hguard, ⟨-, rfl, -⟩ | ⟨-, hfresh⟩⟩ := controlledSubmitTransferV1_ok hsubmit
    · exact .inl hq
    have hfree : s.idempotencyRequests.find? p.key = none := by
      rcases hfresh with ⟨⟨hf⟩⟩ | ⟨⟨hf⟩⟩ <;> exact (Table.insert?_eq_some.mp hf.requests).1
    rw [submit_of_free hfree hguard] at hreturned
    obtain ⟨⟨r, x, -, hr⟩, hinsert⟩ := executeTransfer_receipt hs hreturned
    rcases (Table.mem_insert? hinsert).mp hq with rfl | hold
    · exact .inr ⟨body, r, x, rfl, hr⟩
    · exact .inl hold
  cases (exec_effect h).requested with
  | kept heq => exact .inl (heq ▸ hq)
  | rejected => exact hsubmitted rfl
  | posted => exact hsubmitted rfl
  | captured hcaptured =>
    obtain ⟨r, x, hr⟩ := hcaptured.receipt hs hc (exec_change h)
    have heq : s'.idempotencyRequests = hcaptured.mid.idempotencyRequests :=
      (congrArg Db.idempotencyRequests hcaptured.frame :)
    rw [heq] at hq
    rcases (Table.mem_insert? hcaptured.posted.requests).mp hq with rfl | hold
    · exact .inr ⟨hcaptured.body, r, x, rfl, hr⟩
    · exact .inl hold

/-- Every stored body of a history is the receipt of a transfer, with the amounts of the database
right after the call that stored it. -/
theorem run_transferReceipts (d : Digest) (hs : s.Provisioned) (cs : List Call) :
    ∀ q ∈ (run (exec d) cs s).idempotencyRequests, ∀ body, q.responseBody = some body →
      ∃ pre r x, pre <+: cs ∧ TransferReceipt body r x (run (exec d) pre s) := by
  induction cs using List.reverseRecOn with
  | nil =>
    intro q hq
    rw [run_nil, Table.mem_def, hs.idempotencyRequests] at hq
    exact absurd hq List.not_mem_nil
  | append_singleton cs c ih =>
    intro q hq body hbody
    -- A body stored before the last call has its witness in the shorter history.
    have hkept (hold : q ∈ (run (exec d) cs s).idempotencyRequests) :
        ∃ pre r x, pre <+: cs ++ [c] ∧ TransferReceipt body r x (run (exec d) pre s) := by
      obtain ⟨pre, r, x, hpre, hr⟩ := ih q hold body hbody
      exact ⟨pre, r, x, hpre.trans (List.prefix_append cs [c]), hr⟩
    have hrun : run (exec d) (cs ++ [c]) s = commit (exec d c) (run (exec d) cs s) := by
      rw [run_append, run_cons, run_nil]
    rcases commit_cases (exec d c) (run (exec d) cs s) with hraised | ⟨u, hok⟩
    · -- The call raised: nothing was stored.
      rw [hrun, hraised] at hq
      exact hkept hq
    rw [← hrun] at hok
    rcases exec_receipt (run_booked d cs hs.booked) (run_customersCovered d cs hs.customersCovered)
      hok hq with hold | ⟨body', r, x, hbody', hr⟩
    · exact hkept hold
    · obtain rfl := Option.some.inj (hbody'.symm.trans hbody)
      exact ⟨cs ++ [c], r, x, List.prefix_rfl, hr⟩

/-- A transfer that is there after a part of a history is there at its end. -/
theorem transfer_kept_of_prefix {pre cs : List Call} (hpre : pre <+: cs) {i : Uuid} {x : Transfer}
    (hx : (run (exec d) pre s).transfers.find? i = some x) :
    (run (exec d) cs s).transfers.find? i = some x := by
  obtain ⟨post, rfl⟩ := hpre
  rw [run_append]
  exact run_invariant (I := fun t : Db => t.transfers.find? i = some x)
    (fun _ _ _ _ h hk => (exec_change h).transfer_kept hk) post hx

end Stored

/-- After every history, every stored outcome decodes to the result of a stored transfer, with the
versions and the amounts of its debit balance right after the call that stored it; so does the body
of every returning submission, where a fresh one describes its own transfer and the database that it
leaves. A result that was decoded is decoded again from its encoding. -/
theorem stored_outcomes_decode (d : Digest) (s : Db) (hs : s.Provisioned) (cs : List Call) :
    (∀ q ∈ (run (exec d) cs s).idempotencyRequests, ∀ body, q.responseBody = some body →
      ∃ pre r x, pre <+: cs ∧ TransferResult.unmarshalJSON body = .ok r ∧
        (run (exec d) cs s).transfers.find? x.id = some x ∧
        r.Describes x (run (exec d) pre s)) ∧
    (∀ sess p ids body replayed s',
      controlledSubmitTransferV1 d sess p ids (run (exec d) cs s) = .ok ((body, replayed), s') →
      ∃ pre r x, pre <+: cs ++ [.submitTransfer sess p ids] ∧
        TransferResult.unmarshalJSON body = .ok r ∧ s'.transfers.find? x.id = some x ∧
        r.Describes x (run (exec d) pre s) ∧
        (replayed = false → x.id = ids.transfer ∧ r.Describes x s')) ∧
    ∀ data r, TransferResult.unmarshalJSON data = .ok r →
      TransferResult.unmarshalJSON r.marshalJSON = .ok r := by
  have hdecodes {body : Json} {r : TransferResult} {x : Transfer} {t : Db}
      (h : TransferReceipt body r x t) : TransferResult.unmarshalJSON body = .ok r := by
    rw [h.body]
    exact h.wellFormed.unmarshalJSON_marshalJSON
  have hstored := run_transferReceipts d hs cs
  refine ⟨fun q hq body hbody => ?_, fun sess p ids body replayed s' h => ?_, fun data r h => ?_⟩
  · obtain ⟨pre, r, x, hpre, hr⟩ := hstored q hq body hbody
    exact ⟨pre, r, x, hpre, hdecodes hr, transfer_kept_of_prefix hpre hr.transfer, hr.describes⟩
  -- A replay answers with a stored body, a fresh submission with the one it stores.
  · have hreturned := h
    obtain ⟨hguard, ⟨rfl, rfl, prior, hprior⟩ | ⟨rfl, hfresh⟩⟩ := controlledSubmitTransferV1_ok h
    · obtain ⟨pre, r, x, hpre, hr⟩ := hstored prior (Table.mem_of_find? hprior.find) body hprior.body
      exact ⟨pre, r, x, hpre.trans (List.prefix_append cs _), hdecodes hr,
        transfer_kept_of_prefix hpre hr.transfer, hr.describes, fun hfalse => (nomatch hfalse)⟩
    -- The key was free, as the submission inserted it.
    · have hfree : (run (exec d) cs s).idempotencyRequests.find? p.key = none := by
        rcases hfresh with ⟨⟨hf⟩⟩ | ⟨⟨hf⟩⟩ <;> exact (Table.insert?_eq_some.mp hf.requests).1
      rw [submit_of_free hfree hguard] at hreturned
      obtain ⟨⟨r, x, hid, hr⟩, -⟩ := executeTransfer_receipt (run_booked d cs hs.booked) hreturned
      have hrun : run (exec d) (cs ++ [.submitTransfer sess p ids]) s = s' := by
        rw [run_append, run_cons, run_nil]
        exact commit_of_ok (a := ()) (Txn.discard_ok.mpr ⟨_, h⟩)
      refine ⟨cs ++ [.submitTransfer sess p ids], r, x, List.prefix_rfl, hdecodes hr, hr.transfer, ?_,
        fun _ => ⟨hid, hr.describes⟩⟩
      rw [hrun]
      exact hr.describes
  · exact (unmarshalJSON_wellFormed h).unmarshalJSON_marshalJSON

/-- The outcome of the sample's transfer decodes. -/
theorem stored_outcomes_decode_sample : Sample.db.Provisioned ∧ ∃ body s' r x,
    controlledSubmitTransferV1 Sample.digest Sample.session Sample.transferRequest
      (Sample.ids 100) (run (exec Sample.digest) [] Sample.db) = .ok ((body, false), s') ∧
    TransferResult.unmarshalJSON body = .ok r ∧ x.id = (Sample.ids 100).transfer ∧
    r.Describes x s' := by
  have hret : (match controlledSubmitTransferV1 Sample.digest Sample.session Sample.transferRequest
      (Sample.ids 100) Sample.db with
    | .ok ((_, replayed), _) => !replayed
    | .error _ => false) = true := by decide +kernel
  rcases hfirst : controlledSubmitTransferV1 Sample.digest Sample.session Sample.transferRequest
      (Sample.ids 100) Sample.db with e | ⟨⟨body, replayed⟩, s'⟩
  · rw [hfirst] at hret
    cases hret
  · rw [hfirst] at hret
    obtain rfl : replayed = false := (Bool.not_eq_true' replayed).mp hret
    obtain ⟨-, r, x, -, hdecode, -, -, hfresh⟩ := (stored_outcomes_decode Sample.digest Sample.db
      Sample.provisioned []).2.1 _ _ _ _ _ _ hfirst
    obtain ⟨hid, hdescribes⟩ := hfresh rfl
    exact ⟨Sample.provisioned, body, s', r, x, hfirst, hdecode, hid, hdescribes⟩

end LedgerSync
