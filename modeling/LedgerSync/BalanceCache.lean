import LedgerSync.Lib.NewestWins
import LedgerSync.Projector
import LedgerSync.SavedViews

/-!
# The balance cache

`internal/platform/cache/balance_cache.go`: a Redis hash for each account. The script of
`PutIfNewer` compares the versions as texts, which is their numeric order (`isNewer_iff`), so a hash
is a register that takes newer balances only (`holds_putIfNewer`), and `Get` reads back what was
written (`decode_hash`).
-/

namespace LedgerSync

open Lib

/-! ## Redis -/

/-- The fields of a hash of the cache. -/
structure BalanceHash where
  version : String
  currency : String
  availableMinor : String
  ledgerMinor : String
  asOf : String
deriving DecidableEq

/-- A hash, and the millisecond after which it is gone. -/
structure RedisEntry where
  hash : BalanceHash
  expiresAt : ℤ

/-- The keys of the cache and the clock of the server, in milliseconds. -/
structure Redis where
  entries : String → Option RedisEntry
  now : ℤ

namespace Redis

/-- `HGETALL`; a key that has expired is not there. -/
def find? (r : Redis) (key : String) : Option BalanceHash :=
  (r.entries key).bind fun e => if r.now ≤ e.expiresAt then some e.hash else none

/-- The server with another value under a key. -/
def update (r : Redis) (key : String) (e : Option RedisEntry) : Redis :=
  { r with entries := Function.update r.entries key e }

/-- `HSET` of all fields, and `PEXPIRE`, which deletes a key that would expire at once. -/
def write (r : Redis) (key : String) (hash : BalanceHash) (ttl : ℤ) : Redis :=
  r.update key (if r.now + ttl ≤ r.now then none else some ⟨hash, r.now + ttl⟩)

/-- `DEL`. -/
def del (r : Redis) (key : String) : Redis := r.update key none

/-- Time passes. -/
def wait (r : Redis) (millis : ℕ) : Redis := { r with now := r.now + millis }

end Redis

/-! ## The cache -/

/-- `BalanceCache`; the time to live is in nanoseconds. -/
structure BalanceCache where
  keyPrefix : String
  ttl : ℤ
  /-- The constructor replaces every other value. -/
  ttl_pos : 0 < ttl

/-- `NewBalanceCache`. -/
def newBalanceCache (keyPrefix : String) (ttl : ℤ) : BalanceCache where
  keyPrefix := if keyPrefix = "" then "ledgersync:balance:v1" else keyPrefix
  ttl := if ttl ≤ 0 then 300000000000 else ttl
  ttl_pos := by
    split_ifs <;> omega

namespace BalanceCache

/-- `ttl.Milliseconds()`. -/
def millis (c : BalanceCache) : ℤ := c.ttl / 1000000

/-- `key`. -/
def key (c : BalanceCache) (tenantId accountId : String) : String :=
  c.keyPrefix ++ ":" ++ tenantId ++ ":" ++ accountId

end BalanceCache

/-- `validate`. -/
def CachedBalance.Valid (b : CachedBalance) : Prop :=
  ¬(b.tenantId = "" ∨ b.accountId = "" ∨ b.currency.utf8ByteSize ≠ 3 ∨ b.version < 0 ∨
    b.available < 0 ∨ b.ledger < 0 ∨ b.asOf = 0)

/-- Whether a balance is valid can be decided. -/
instance CachedBalance.Valid.decidable (b : CachedBalance) : Decidable b.Valid :=
  inferInstanceAs (Decidable (¬_))

/-- The arguments of the script. -/
def CachedBalance.hash (b : CachedBalance) : BalanceHash where
  version := decimal b.version
  currency := b.currency
  availableMinor := decimal b.available
  ledgerMinor := decimal b.ledger
  asOf := String.ofList (rfc3339Nano b.asOf)

/-- The comparison of the script: by length, then by characters. -/
def IsNewer (current candidate : String) : Prop :=
  ¬(candidate.utf8ByteSize < current.utf8ByteSize ∨
    candidate.utf8ByteSize = current.utf8ByteSize ∧ candidate ≤ current)

/-- Whether a version is newer than another can be decided. -/
instance IsNewer.decidable (current candidate : String) : Decidable (IsNewer current candidate) :=
  inferInstanceAs (Decidable (¬_))

/-- The script of `PutIfNewer`. -/
def putScript (key : String) (candidate : BalanceHash) (ttl : ℤ) (r : Redis) : Bool × Redis :=
  match r.find? key with
  | none => (true, r.write key candidate ttl)
  | some current =>
    if IsNewer current.version candidate.version then (true, r.write key candidate ttl)
    else (false, r)

/-- `PutIfNewer`. -/
def BalanceCache.putIfNewer (c : BalanceCache) (b : CachedBalance) (r : Redis) :
    Except String (Bool × Redis) :=
  if b.Valid then .ok (putScript (c.key b.tenantId b.accountId) b.hash c.millis r)
  else .error "invalid balance cache record"

/-- `Delete`. -/
def BalanceCache.delete (c : BalanceCache) (tenantId accountId : String) (r : Redis) : Redis :=
  r.del (c.key tenantId accountId)

/-- A field of a hash, which must not be empty. -/
def cacheField (name value : String) : Except String String :=
  if trimSpace value = "" then .error ("balance cache missing " ++ name)
  else .ok (trimSpace value)

/-- `decodeBalance` of the cache. -/
def BalanceHash.decode (h : BalanceHash) (tenantId accountId : String) :
    Except String CachedBalance := do
  let versionText ← cacheField "version" h.version
  let version ← parseChecked versionText (fun n => 0 ≤ n) "balance cache has invalid version"
  let availableText ← cacheField "available_minor" h.availableMinor
  let available ← parseChecked availableText (fun n => 0 ≤ n)
    "balance cache has invalid available_minor"
  let ledgerText ← cacheField "ledger_minor" h.ledgerMinor
  let ledger ← parseChecked ledgerText (fun n => 0 ≤ n) "balance cache has invalid ledger_minor"
  let currency ← cacheField "currency" h.currency
  let asOfText ← cacheField "as_of" h.asOf
  match parseGoTime asOfText.toList with
  | some asOf => .ok ⟨tenantId, accountId, currency, available, ledger, version, asOf⟩
  | none => .error "balance cache has invalid as_of"

/-- `Get`. -/
def BalanceCache.get (c : BalanceCache) (tenantId accountId : String) (r : Redis) :
    Except String CachedBalance :=
  match r.find? (c.key tenantId accountId) with
  | none => .error "balance cache miss"
  | some h => h.decode tenantId accountId

/-! ## Versions as texts -/

/-- Among texts of versions, the comparison of the script is the numeric order. -/
theorem isNewer_iff {m n : ℤ} (hm : 0 ≤ m) (hn : 0 ≤ n) :
    IsNewer (decimal m) (decimal n) ↔ m < n := by
  obtain ⟨k, rfl⟩ := Int.eq_ofNat_of_zero_le hm
  obtain ⟨l, rfl⟩ := Int.eq_ofNat_of_zero_le hn
  -- The digits are ASCII, so that the size in bytes is their number.
  have hsize : ∀ i : ℕ, (decimal (i : ℤ)).utf8ByteSize = (Nat.toDigits 10 i).length := by
    intro i
    have hlist : (decimal (i : ℤ)).toList = Nat.toDigits 10 i := String.toList_ofList
    rw [utf8ByteSize_of_ascii, hlist]
    intro c hc
    rw [hlist] at hc
    have hdigit : c.isDigit = true :=
      Nat.isDigit_of_mem_toDigits (by decide) (by decide) hc
    have hrange : c.val.toNat ≤ 57 := by
      simp only [Char.isDigit, Bool.and_eq_true, decide_eq_true_eq] at hdigit
      exact hdigit.2
    exact hrange.trans_lt (by decide)
  have hle : decimal (l : ℤ) ≤ decimal (k : ℤ) ↔ ¬Nat.toDigits 10 k < Nat.toDigits 10 l := by
    rw [← String.toList_ofList (l := Nat.toDigits 10 k), ← String.toList_ofList
      (l := Nat.toDigits 10 l)]
    rfl
  -- Longer first, then by the digits: this is the order of the numbers.
  have horder := shortlex_toDigits k l
  rw [IsNewer, hsize, hsize, hle, Nat.cast_lt, horder, not_or, not_and, not_not, not_lt]
  constructor
  · rintro ⟨hlong, hsame⟩
    rcases hlong.lt_or_eq with hlt | heq
    · exact .inl hlt
    · exact .inr ⟨heq, hsame heq.symm⟩
  · rintro (hlt | ⟨heq, hchars⟩)
    · exact ⟨hlt.le, fun heq => absurd heq hlt.ne'⟩
    · exact ⟨heq.le, fun _ => hchars⟩

/-! ## A hash as a register -/

namespace Redis

variable {r : Redis} {key other : String} {hash : BalanceHash} {ttl : ℤ}

/-- What was written is found, while its time to live is positive. -/
theorem find?_write (httl : 0 < ttl) : (r.write key hash ttl).find? key = some hash := by
  have hlater : ¬r.now + ttl ≤ r.now := by omega
  simp [find?, write, update, hlater, httl.le]

/-- Writing a key changes no other. -/
theorem entries_write_ne (h : other ≠ key) :
    (r.write key hash ttl).entries other = r.entries other :=
  Function.update_of_ne h _ _

/-- Deleting a key changes no other. -/
theorem entries_del_ne (h : other ≠ key) : (r.del key).entries other = r.entries other :=
  Function.update_of_ne h _ _

end Redis

/-- The hash under a key is that of a balance. -/
def Redis.Holds (r : Redis) (key : String) (b : Option CachedBalance) : Prop :=
  r.find? key = b.map CachedBalance.hash ∧ ∀ x, b = some x → 0 ≤ x.version

namespace BalanceCache

variable {c : BalanceCache} {b : CachedBalance} {r r' : Redis} {written : Bool}
  {held : Option CachedBalance}

/-- `PutIfNewer` writes the key of the balance or nothing. -/
theorem putIfNewer_cases (h : c.putIfNewer b r = .ok (written, r')) : b.Valid ∧
    (r' = r ∨ r' = r.write (c.key b.tenantId b.accountId) b.hash c.millis) := by
  unfold putIfNewer at h
  split_ifs at h with hvalid
  refine ⟨hvalid, ?_⟩
  have hput := Except.ok.inj h
  unfold putScript at hput
  split at hput
  · cases hput
    exact .inr rfl
  · split_ifs at hput
    · cases hput
      exact .inr rfl
    · cases hput
      exact .inl rfl

/-- `PutIfNewer` is an offer to the register of its key. -/
theorem holds_putIfNewer (hmillis : 0 < c.millis) (h : c.putIfNewer b r = .ok (written, r'))
    (hheld : r.Holds (c.key b.tenantId b.accountId) held) :
    r'.Holds (c.key b.tenantId b.accountId) (offer CachedBalance.version held b) := by
  unfold putIfNewer at h
  split_ifs at h with hvalid
  have hversion : 0 ≤ b.version := by
    unfold CachedBalance.Valid at hvalid
    omega
  have hput := Except.ok.inj h
  unfold putScript at hput
  -- The record is written with a time to live, so that it is there afterwards.
  obtain ⟨hfind, hnonneg⟩ := hheld
  have hwrite : (r.write (c.key b.tenantId b.accountId) b.hash c.millis).Holds
      (c.key b.tenantId b.accountId) (some b) :=
    ⟨Redis.find?_write hmillis, fun x hx => Option.some.inj hx ▸ hversion⟩
  rcases held with _ | x
  · rw [hfind] at hput
    cases hput
    exact hwrite
  · rw [hfind] at hput
    simp only [Option.map_some] at hput
    -- The script compares decimal texts, which order as the versions do.
    have hnewer : IsNewer x.hash.version b.hash.version ↔ x.version < b.version :=
      isNewer_iff (hnonneg x rfl) hversion
    by_cases hlt : x.version < b.version
    · rw [if_pos (hnewer.mpr hlt)] at hput
      cases hput
      rw [offer, if_pos hlt]
      exact hwrite
    · rw [if_neg (mt hnewer.mp hlt)] at hput
      cases hput
      rw [offer, if_neg hlt]
      exact ⟨hfind, hnonneg⟩

end BalanceCache

/-! ## Reading back -/

/-- What a balance must be for its hash to be read back. -/
structure CachedBalance.Readable (b : CachedBalance) : Prop where
  currency : IsCurrency b.currency
  version : 0 ≤ b.version ∧ b.version < 2 ^ 63
  available : 0 ≤ b.available ∧ b.available < 2 ^ 63
  ledger : 0 ≤ b.ledger ∧ b.ledger < 2 ^ 63

/-- A field without spaces is read as it is. -/
theorem cacheField_of_all (name : String) {s : String} (hne : s ≠ "")
    (hspace : ∀ c ∈ s.toList, isSpace c = false) : cacheField name s = .ok s := by
  rw [cacheField, ← trimSpace_of_all hspace, if_neg hne]

/-- The text of a number is read as it is. -/
theorem cacheField_decimal (name : String) {n : ℤ} (h : 0 ≤ n) :
    cacheField name (decimal n) = .ok (decimal n) := by
  obtain ⟨k, rfl⟩ := Int.eq_ofNat_of_zero_le h
  have hlist : (decimal (k : ℤ)).toList = Nat.toDigits 10 k := String.toList_ofList
  refine cacheField_of_all name (fun heq => ?_) fun c hc => ?_
  · rw [heq] at hlist
    exact Nat.toDigits_ne_nil hlist.symm
  · rw [hlist] at hc
    exact Money.isSpace_of_digit (Nat.isDigit_of_mem_toDigits (by decide) (by decide) hc)

/-- A currency is a field. -/
theorem cacheField_currency {s : String} (h : IsCurrency s) : cacheField "currency" s = .ok s := by
  refine cacheField_of_all _ (fun heq => ?_) fun c hc => ?_
  · rw [heq] at h
    exact absurd h.1 (by decide)
  · have hlo : 65 ≤ c.toNat := (h.2 c hc).1
    have hhi : c.toNat ≤ 90 := (h.2 c hc).2
    exact isSpace_of_visible (by omega) (by omega)

/-- A stamp is a field. -/
theorem cacheField_stamp (n : ℤ) : cacheField "as_of" (String.ofList (rfc3339Nano n)) =
    .ok (String.ofList (rfc3339Nano n)) := by
  refine cacheField_of_all _ (fun heq => ?_) fun c hc => ?_
  · have hnil := congrArg String.toList heq
    rw [String.toList_ofList, rfc3339Nano] at hnil
    exact List.append_ne_nil_of_right_ne_nil _ (List.cons_ne_nil _ _) hnil
  · rw [String.toList_ofList, rfc3339Nano, List.mem_append, List.mem_singleton] at hc
    rcases hc with hc | rfl
    · rcases isStampChar_stampBody hc with hdigit | hmem
      · exact Money.isSpace_of_digit hdigit
      · simp only [List.mem_cons, List.not_mem_nil, or_false] at hmem
        rcases hmem with rfl | rfl | rfl | rfl <;> decide
    · decide

/-- `Get` decodes what `PutIfNewer` wrote, and refuses it when its time has a year that has no four
digits. -/
theorem decode_hash {b : CachedBalance} (h : b.Readable) :
    b.hash.decode b.tenantId b.accountId =
      if HasWrittenYear b.asOf then .ok b else .error "balance cache has invalid as_of" := by
  have hparse : ∀ {n : ℤ} (message : String), 0 ≤ n → n < 2 ^ 63 →
      parseChecked (decimal n) (fun n => 0 ≤ n) message = .ok n := by
    intro n message hlo hhi
    rw [parseChecked, parseInt64_decimal (by omega) hhi]
    exact if_pos (decide_eq_true hlo)
  simp only [BalanceHash.decode, CachedBalance.hash, bind, Except.bind,
    cacheField_decimal _ h.version.1, cacheField_decimal _ h.available.1,
    cacheField_decimal _ h.ledger.1, cacheField_currency h.currency, cacheField_stamp,
    hparse _ h.version.1 h.version.2, hparse _ h.available.1 h.available.2,
    hparse _ h.ledger.1 h.ledger.2, String.toList_ofList]
  by_cases hyear : HasWrittenYear b.asOf
  · rw [parseGoTime_rfc3339Nano hyear, if_pos hyear]
  · rw [parseGoTime_rfc3339Nano_none hyear, if_neg hyear]

/-! ## Keys -/

/-- Two accounts never share a key. -/
theorem BalanceCache.key_inj {c : BalanceCache} {t t' x x' : Uuid}
    (h : c.key t.text x.text = c.key t'.text x'.text) : t = t' ∧ x = x' := by
  have hlist := congrArg String.toList h
  simp only [BalanceCache.key, String.toList_append, List.append_assoc] at hlist
  have htail := List.append_cancel_left (List.append_cancel_left hlist)
  obtain ⟨ht, hrest⟩ := List.append_inj htail (by rw [Uuid.length_text, Uuid.length_text])
  exact ⟨Uuid.text_inj.mp (String.toList_inj.mp ht),
    Uuid.text_inj.mp (String.toList_inj.mp (List.append_cancel_left hrest))⟩

end LedgerSync
