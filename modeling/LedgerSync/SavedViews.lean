import LedgerSync.Money
import LedgerSync.Lib.Framing
import LedgerSync.Lib.GoTimeOrder
import LedgerSync.Lib.SortedMap
import Mathlib.Computability.Primrec.List
import Mathlib.Data.String.Basic

/-!
# Saved investigation views

A view is saved with the filters that `NormalizeSavedViewDefinition` makes of those of the operator,
and every listing normalises them again. All rules but that of a timestamp give texts that they
keep. A timestamp is written in UTC, where its year may have become -1 or 10000, and such a text is
not read again: normalising again gives the same filters exactly when no year has
(`renormalize_iff`), and a view stored with one makes every listing of its owner fail, since it is
normalised again for each of them (`renormalize_isSome_iff`). The bounds of a range are compared as
texts, which is the order of their instants for those that are `TextOrdered` only
(`range_accepted_iff`).
-/

namespace LedgerSync

open Lib

/-! ## The rules -/

/-- `map[string]string`. -/
abbrev FilterMap : Type := SortedMap String String

/-- `savedViewRule`. -/
abbrev SavedViewRule : Type := String → Option String

/-- The characters of `[0-9a-f]`. -/
def isLowerHex (c : Char) : Bool := c.isDigit || ('a' ≤ c && c ≤ 'f')

/-- `canonicalSavedViewUUID`. -/
def isCanonicalUuid (s : String) : Bool :=
  (s.toList.splitOn '-').map List.length = [8, 4, 4, 4, 12] ∧
    s.toList.all fun c => c = '-' || isLowerHex c

/-- `transferSavedViewQuery`. -/
def isTransferQuery (s : String) : Bool :=
  (1 ≤ s.toList.length ∧ s.toList.length ≤ 128) ∧ s.toList.all fun c => isLowerHex c || c = '-'

/-- The characters of `[A-Za-z0-9]`. -/
def isEventLetter (c : Char) : Bool :=
  ('A' ≤ c && c ≤ 'Z') || ('a' ≤ c && c ≤ 'z') || c.isDigit

/-- `eventSavedViewType`. -/
def isEventType (s : String) : Bool :=
  s.toList.head?.any isEventLetter ∧ s.toList.length ≤ 128 ∧
    s.toList.tail.all fun c => isEventLetter c || c ∈ ['.', '_', ':', '-']

/-- `enum` of `savedViewRules`. -/
def enumRule (values : List String) : SavedViewRule := fun value =>
  if value ∈ values then some value else none

/-- `uuid`. -/
def uuidRule : SavedViewRule := fun value =>
  if isCanonicalUuid (toLower value) then some (toLower value) else none

/-- The rule of `q`. -/
def queryRule : SavedViewRule := fun value =>
  if isTransferQuery (toLower value) then some (toLower value) else none

/-- `rfc3339`. -/
def rfc3339Rule : SavedViewRule := fun value =>
  (parseGoTime value.toList).map fun parsed => String.ofList (rfc3339Nano parsed)

/-- `date`. -/
def dateRule : SavedViewRule := fun value =>
  match readDate value.toList with
  | some (parsed, []) => if String.ofList (dateText parsed) = value then some value else none
  | _ => none

/-- `eventType`. -/
def eventTypeRule : SavedViewRule := fun value =>
  if value.utf8ByteSize ≤ 128 ∧ isEventType value then some value else none

/-- `savedViewRules`: the rules of a domain and its path. -/
def savedViewRules : String → Option (List (String × SavedViewRule) × String)
  | "accounts" => some ([("status", enumRule ["active", "frozen", "closed"]),
      ("category", enumRule ["operating", "customer_funds", "payroll", "payables", "expenses",
        "reserve"])], "/accounts")
  | "transfers" => some ([("q", queryRule), ("accountId", uuidRule),
      ("status", enumRule ["pending", "posted", "rejected"]), ("from", rfc3339Rule),
      ("to", rfc3339Rule)], "/transfers")
  | "funding" => some ([("status", enumRule ["requested", "approved", "posted", "rejected",
      "compensated"])], "/funding")
  | "approvals" => some ([("domain", enumRule ["funding", "correction"]),
      ("status", enumRule ["funding:requested", "funding:approved", "funding:posted",
        "funding:rejected", "funding:compensated", "correction:requested", "correction:approved",
        "correction:rejected", "correction:cancelled", "correction:expired", "correction:posted"]),
      ("age", enumRule ["under_24h", "over_24h", "over_7d", "over_30d"]),
      ("requested_after", dateRule), ("requested_before", dateRule),
      ("actionable_by_me", enumRule ["true"])], "/approvals")
  | "corrections" => some ([("status", enumRule ["requested", "approved", "posted", "rejected",
      "cancelled", "expired"])], "/corrections")
  | "events" => some ([("eventType", eventTypeRule),
      ("state", enumRule ["pending", "retrying", "published", "dead"]), ("endpointId", uuidRule),
      ("relatedId", uuidRule), ("correlationId", uuidRule), ("from", rfc3339Rule),
      ("to", rfc3339Rule)], "/events")
  | "webhooks" => some ([("status", enumRule ["pending_verification", "active", "disabled"]),
      ("eventType", eventTypeRule)], "/webhooks")
  | _ => none

/-- Whether both bounds of a range are there and the first is greater. -/
def crossed (filters : FilterMap) (first last : String) : Bool :=
  match filters.get? first, filters.get? last with
  | some x, some y => y < x
  | _, _ => false

/-- `savedViewCombinationValid`. -/
def savedViewCombinationValid (domain : String) (filters : FilterMap) : Bool :=
  let named := (filters.get? "domain").getD ""
  let status := (filters.get? "status").getD ""
  !crossed filters "from" "to" && !crossed filters "requested_after" "requested_before" &&
    !(domain = "approvals" && named ≠ "" && status ≠ "" &&
      !(named.toList ++ [':']).isPrefixOf status.toList)

/-! ## The query -/

/-- The digits of `%XX`. -/
def upperHex (b : UInt8) : List Char :=
  let digit := fun n : ℕ => "0123456789ABCDEF".toList.getD n '0'
  [digit (b.toNat / 16), digit (b.toNat % 16)]

/-- `url.QueryEscape`. -/
def queryEscape (s : String) : String :=
  String.ofList ((utf8 s).flatMap fun b =>
    let c := Char.ofNat b.toNat
    if isEventLetter c || c ∈ ['-', '_', '.', '~'] then [c]
    else if c = ' ' then ['+']
    else '%' :: upperHex b)

/-- `query.Encode()`, of the filters in the order of their keys. -/
def encodeQuery (filters : FilterMap) : String :=
  "&".intercalate (filters.entries.map fun x => queryEscape x.1 ++ "=" ++ queryEscape x.2)

/-! ## Normalising -/

/-- `SavedViewFilterSchemaVersion`. -/
def savedViewFilterSchemaVersion : ℤ := 1

/-- The value of one filter under the rules of a domain. -/
def normalizeFilter (rules : List (String × SavedViewRule)) (key raw : String) : Option String :=
  match rules.lookup key with
  | none => none
  | some rule => if raw = "" ∨ raw ≠ trimSpace raw then none else rule raw

/-- `NormalizeSavedViewDefinition`; every error of it is `ErrInvalidSavedView`. -/
def normalizeSavedViewDefinition (domain : String) (schemaVersion : ℤ) (input : FilterMap) :
    Option (FilterMap × String) :=
  if schemaVersion ≠ savedViewFilterSchemaVersion ∨ input.entries.length < 1 ∨
      8 < input.entries.length then none
  else match savedViewRules domain with
    | none => none
    | some (rules, path) =>
      match input.traverse (normalizeFilter rules) with
      | none => none
      | some filters =>
        if savedViewCombinationValid domain filters then
          some (filters, path ++ "?" ++ encodeQuery filters)
        else none

/-! ## What the rules keep -/

/-- A rule takes its own value, of a text without outer spaces, as it is. -/
def SavedViewRule.Keeps (rule : SavedViewRule) : Prop :=
  ∀ raw value, raw ≠ "" → raw = trimSpace raw → rule raw = some value →
    value ≠ "" ∧ value = trimSpace value ∧ rule value = some value

/-- The filters that are timestamps. -/
def IsTimestampFilter (domain key : String) : Prop :=
  domain ∈ ["transfers", "events"] ∧ key ∈ ["from", "to"]

/-- Whether a filter is a time can be decided. -/
instance IsTimestampFilter.decidable (domain key : String) :
    Decidable (IsTimestampFilter domain key) :=
  inferInstanceAs (Decidable (domain ∈ ["transfers", "events"] ∧ key ∈ ["from", "to"]))

/-- A rule that gives back what it accepts keeps it. -/
theorem keeps_of_eq {rule : SavedViewRule} (h : ∀ raw value, rule raw = some value → value = raw) :
    rule.Keeps := by
  intro raw value hne htrim hvalue
  have heq := h raw value hvalue
  subst heq
  exact ⟨hne, htrim, hvalue⟩

/-- A value of a list stays when it is normalised again. -/
theorem enumRule_keeps (values : List String) : (enumRule values).Keeps := by
  refine keeps_of_eq fun raw value h => ?_
  unfold enumRule at h
  split at h
  · exact (Option.some.inj h).symm
  · cases h

/-- A date stays when it is normalised again. -/
theorem dateRule_keeps : dateRule.Keeps := by
  refine keeps_of_eq fun raw value h => ?_
  unfold dateRule at h
  split at h
  · split at h
    · exact (Option.some.inj h).symm
    · cases h
  · cases h

/-- A type of events stays when it is normalised again. -/
theorem eventTypeRule_keeps : eventTypeRule.Keeps := by
  refine keeps_of_eq fun raw value h => ?_
  unfold eventTypeRule at h
  split at h
  · exact (Option.some.inj h).symm
  · cases h

/-- A text without spaces is trimmed. -/
theorem trimSpace_of_all {s : String} (h : ∀ c ∈ s.toList, isSpace c = false) :
    s = trimSpace s := by
  refine (trimSpace_of_ends (fun c hc => ?_) fun c hc => ?_).symm
  · exact h c (List.mem_of_head? hc)
  · exact h c (List.mem_of_getLast? hc)

/-- The characters of identifiers are lower case and no spaces. -/
theorem lowerHex_facts {c : Char} (h : c = '-' ∨ isLowerHex c = true) :
    lowerLetter c = c ∧ isSpace c = false := by
  -- The characters are in two ranges and a dash, where no character is changed or trimmed.
  have hrange : c.toNat = 45 ∨ (48 ≤ c.toNat ∧ c.toNat ≤ 57) ∨ (97 ≤ c.toNat ∧ c.toNat ≤ 102) := by
    rcases h with rfl | h
    · exact .inl rfl
    · unfold isLowerHex at h
      rw [Bool.or_eq_true] at h
      rcases h with h | h
      · simp only [Char.isDigit, Bool.and_eq_true, decide_eq_true_eq] at h
        exact .inr (.inl h)
      · simp only [Bool.and_eq_true, decide_eq_true_eq] at h
        exact .inr (.inr h)
  have hne : ∀ d : Char, d.toNat < 45 ∨ 102 < d.toNat → c ≠ d := by
    rintro d hd rfl
    omega
  constructor
  · have hupper : ¬('A' ≤ c ∧ c ≤ 'Z') := by
      rintro ⟨hlow, hhigh⟩
      have hlow : 65 ≤ c.toNat := hlow
      have hhigh : c.toNat ≤ 90 := hhigh
      omega
    rw [lowerLetter, if_neg hupper, if_neg (hne '\u0130' (by decide)),
      if_neg (hne '\u212a' (by decide))]
  · exact isSpace_of_visible (by omega) (by omega)

/-- A rule that writes its text in lower case, and accepts characters of identifiers only. -/
theorem keeps_of_lower {accepts : String → Bool} (hnil : accepts "" = false)
    (hchars : ∀ s, accepts s = true → ∀ c ∈ s.toList, c = '-' ∨ isLowerHex c = true) :
    SavedViewRule.Keeps fun value =>
      if accepts (toLower value) then some (toLower value) else none := by
  intro raw value hne htrim hvalue
  dsimp only at hvalue
  split at hvalue
  · next haccepts =>
    obtain rfl := Option.some.inj hvalue
    have hfacts := fun c hc => lowerHex_facts (hchars _ haccepts c hc)
    have hlower : toLower (toLower raw) = toLower raw := by
      have hmap : (toLower raw).toList.map lowerLetter = (toLower raw).toList :=
        List.map_congr_left (g := id) (fun c hc => (hfacts c hc).1) |>.trans (List.map_id _)
      rw [toLower, hmap, String.ofList_toList]
    refine ⟨?_, trimSpace_of_all fun c hc => (hfacts c hc).2, ?_⟩
    · intro hempty
      rw [hempty, hnil] at haccepts
      cases haccepts
    · dsimp only
      rw [hlower, if_pos haccepts]
  · cases hvalue

/-- An identifier stays when it is normalised again. -/
theorem uuidRule_keeps : uuidRule.Keeps := by
  refine keeps_of_lower (by decide) fun s hs c hc => ?_
  unfold isCanonicalUuid at hs
  have hall := (of_decide_eq_true hs).2
  have hchar := List.all_eq_true.mp hall c hc
  simpa using hchar

/-- A query stays when it is normalised again. -/
theorem queryRule_keeps : queryRule.Keeps := by
  refine keeps_of_lower (by decide) fun s hs c hc => ?_
  unfold isTransferQuery at hs
  have hall := (of_decide_eq_true hs).2
  have hchar := List.all_eq_true.mp hall c hc
  rw [Bool.or_eq_true, decide_eq_true_eq] at hchar
  exact hchar.symm

/-- A timestamp is written as a text without spaces. -/
theorem rfc3339Nano_trimmed (n : ℤ) :
    String.ofList (rfc3339Nano n) ≠ "" ∧
      String.ofList (rfc3339Nano n) = trimSpace (String.ofList (rfc3339Nano n)) := by
  constructor
  · intro h
    have hlist := congrArg String.toList h
    rw [String.toList_ofList] at hlist
    simp [rfc3339Nano] at hlist
  · refine trimSpace_of_all fun c hc => ?_
    rw [String.toList_ofList, rfc3339Nano, List.mem_append, List.mem_singleton] at hc
    -- A stamp has visible characters only.
    have hrange : 33 ≤ c.toNat ∧ c.toNat ≤ 126 := by
      rcases hc with hc | rfl
      · rcases isStampChar_stampBody hc with hdigit | hmem
        · simp only [Char.isDigit, Bool.and_eq_true, decide_eq_true_eq] at hdigit
          have hlow : 48 ≤ c.toNat := hdigit.1
          have hhigh : c.toNat ≤ 57 := hdigit.2
          omega
        · simp only [List.mem_cons, List.not_mem_nil, or_false] at hmem
          rcases hmem with rfl | rfl | rfl | rfl <;> decide
      · decide
    exact isSpace_of_visible hrange.1 hrange.2

/-- A timestamp is kept exactly when its year is one of four digits. -/
theorem rfc3339Rule_keeps_iff {raw value : String} {n : ℤ} (hn : parseGoTime raw.toList = some n)
    (h : rfc3339Rule raw = some value) :
    (value ≠ "" ∧ value = trimSpace value ∧ rfc3339Rule value = some value) ↔ HasWrittenYear n := by
  have hvalue : value = String.ofList (rfc3339Nano n) := by
    rw [rfc3339Rule, hn] at h
    exact (Option.some.inj h).symm
  subst hvalue
  obtain ⟨hne, htrim⟩ := rfc3339Nano_trimmed n
  constructor
  · rintro ⟨-, -, hkept⟩
    by_contra hyear
    rw [rfc3339Rule, String.toList_ofList, parseGoTime_rfc3339Nano_none hyear] at hkept
    cases hkept
  · intro hyear
    refine ⟨hne, htrim, ?_⟩
    rw [rfc3339Rule, String.toList_ofList, parseGoTime_rfc3339Nano hyear]
    rfl

/-- The rule of a timestamp filter is `rfc3339`, and every other rule keeps its values. -/
theorem savedViewRules_cases {domain path key : String} {rules : List (String × SavedViewRule)}
    {rule : SavedViewRule} (h : savedViewRules domain = some (rules, path))
    (hrule : rules.lookup key = some rule) :
    (IsTimestampFilter domain key ∧ rule = rfc3339Rule) ∨
      (¬IsTimestampFilter domain key ∧ rule.Keeps) := by
  have hmem : (key, rule) ∈ rules := by
    obtain ⟨l, r, rfl, -⟩ := List.lookup_eq_some_iff.mp hrule
    simp
  unfold savedViewRules at h
  -- Every domain has its list of rules, of which only `from` and `to` of two domains are times.
  split at h
  · obtain rfl := (Prod.mk.inj (Option.some.inj h)).1
    simp only [List.mem_cons, List.not_mem_nil, or_false, Prod.mk.injEq] at hmem
    rcases hmem with ⟨rfl, rfl⟩ | ⟨rfl, rfl⟩
    · exact .inr ⟨by decide, enumRule_keeps _⟩
    · exact .inr ⟨by decide, enumRule_keeps _⟩
  · obtain rfl := (Prod.mk.inj (Option.some.inj h)).1
    simp only [List.mem_cons, List.not_mem_nil, or_false, Prod.mk.injEq] at hmem
    rcases hmem with ⟨rfl, rfl⟩ | ⟨rfl, rfl⟩ | ⟨rfl, rfl⟩ | ⟨rfl, rfl⟩ | ⟨rfl, rfl⟩
    · exact .inr ⟨by decide, queryRule_keeps⟩
    · exact .inr ⟨by decide, uuidRule_keeps⟩
    · exact .inr ⟨by decide, enumRule_keeps _⟩
    · exact .inl ⟨by decide, rfl⟩
    · exact .inl ⟨by decide, rfl⟩
  · obtain rfl := (Prod.mk.inj (Option.some.inj h)).1
    simp only [List.mem_cons, List.not_mem_nil, or_false, Prod.mk.injEq] at hmem
    obtain ⟨rfl, rfl⟩ := hmem
    exact .inr ⟨by decide, enumRule_keeps _⟩
  · obtain rfl := (Prod.mk.inj (Option.some.inj h)).1
    simp only [List.mem_cons, List.not_mem_nil, or_false, Prod.mk.injEq] at hmem
    rcases hmem with ⟨rfl, rfl⟩ | ⟨rfl, rfl⟩ | ⟨rfl, rfl⟩ | ⟨rfl, rfl⟩ | ⟨rfl, rfl⟩ | ⟨rfl, rfl⟩
    · exact .inr ⟨by decide, enumRule_keeps _⟩
    · exact .inr ⟨by decide, enumRule_keeps _⟩
    · exact .inr ⟨by decide, enumRule_keeps _⟩
    · exact .inr ⟨by decide, dateRule_keeps⟩
    · exact .inr ⟨by decide, dateRule_keeps⟩
    · exact .inr ⟨by decide, enumRule_keeps _⟩
  · obtain rfl := (Prod.mk.inj (Option.some.inj h)).1
    simp only [List.mem_cons, List.not_mem_nil, or_false, Prod.mk.injEq] at hmem
    obtain ⟨rfl, rfl⟩ := hmem
    exact .inr ⟨by decide, enumRule_keeps _⟩
  · obtain rfl := (Prod.mk.inj (Option.some.inj h)).1
    simp only [List.mem_cons, List.not_mem_nil, or_false, Prod.mk.injEq] at hmem
    rcases hmem with ⟨rfl, rfl⟩ | ⟨rfl, rfl⟩ | ⟨rfl, rfl⟩ | ⟨rfl, rfl⟩ | ⟨rfl, rfl⟩ | ⟨rfl, rfl⟩ |
      ⟨rfl, rfl⟩
    · exact .inr ⟨by decide, eventTypeRule_keeps⟩
    · exact .inr ⟨by decide, enumRule_keeps _⟩
    · exact .inr ⟨by decide, uuidRule_keeps⟩
    · exact .inr ⟨by decide, uuidRule_keeps⟩
    · exact .inr ⟨by decide, uuidRule_keeps⟩
    · exact .inl ⟨by decide, rfl⟩
    · exact .inl ⟨by decide, rfl⟩
  · obtain rfl := (Prod.mk.inj (Option.some.inj h)).1
    simp only [List.mem_cons, List.not_mem_nil, or_false, Prod.mk.injEq] at hmem
    rcases hmem with ⟨rfl, rfl⟩ | ⟨rfl, rfl⟩
    · exact .inr ⟨by decide, enumRule_keeps _⟩
    · exact .inr ⟨by decide, eventTypeRule_keeps⟩
  · cases h

/-! ## Normalising twice -/

/-- Every timestamp among some filters is one of a year of four digits. -/
def WritesYears (domain : String) (input : FilterMap) : Prop :=
  ∀ x ∈ input.entries, IsTimestampFilter domain x.1 →
    ∀ n, parseGoTime x.2.toList = some n → HasWrittenYear n

section Normalise

variable {domain path : String} {rules : List (String × SavedViewRule)} {schemaVersion : ℤ}
  {input filters : FilterMap}

/-- What one filter has to be for its value to be kept. -/
theorem normalizeFilter_keeps_iff {key raw value : String}
    (hrules : savedViewRules domain = some (rules, path))
    (h : normalizeFilter rules key raw = some value) :
    normalizeFilter rules key value = some value ↔ (IsTimestampFilter domain key →
      ∀ n, parseGoTime raw.toList = some n → HasWrittenYear n) := by
  unfold normalizeFilter at h ⊢
  -- Without a rule for the key nothing is accepted, so the key has its rule.
  rcases hlookup : rules.lookup key with _ | rule
  · rw [hlookup] at h
    cases h
  rw [hlookup] at h
  dsimp only at h ⊢
  split at h
  · cases h
  next hraw =>
  rw [not_or, not_not] at hraw
  have hkept : (if value = "" ∨ value ≠ trimSpace value then none else rule value) = some value ↔
      value ≠ "" ∧ value = trimSpace value ∧ rule value = some value := by
    constructor
    · intro hself
      split at hself
      · cases hself
      · next hok =>
        rw [not_or, not_not] at hok
        exact ⟨hok.1, hok.2, hself⟩
    · rintro ⟨hne, htrim, hself⟩
      rw [if_neg (by rw [not_or, not_not]; exact ⟨hne, htrim⟩)]
      exact hself
  rw [hkept]
  -- Only the rule of the times does not always keep what it has made.
  rcases savedViewRules_cases hrules hlookup with ⟨hstamp, rfl⟩ | ⟨hother, hkeeps⟩
  · obtain ⟨n, hn, -⟩ := Option.map_eq_some_iff.mp h
    rw [rfc3339Rule_keeps_iff hn h]
    constructor
    · intro hyear _ m hm
      rw [hn] at hm
      exact Option.some.inj hm ▸ hyear
    · intro hyears
      exact hyears hstamp n hn
  · exact ⟨fun _ hstamp => absurd hstamp hother, fun _ => hkeeps raw value hraw.1 hraw.2 h⟩

/-- The value of a filter is taken as it is or not at all. -/
theorem normalizeFilter_own {key raw value again : String}
    (hrules : savedViewRules domain = some (rules, path))
    (h : normalizeFilter rules key raw = some value)
    (hagain : normalizeFilter rules key value = some again) : again = value := by
  unfold normalizeFilter at h hagain
  rcases hlookup : rules.lookup key with _ | rule
  · rw [hlookup] at h
    cases h
  rw [hlookup] at h hagain
  dsimp only at h hagain
  split at h
  · cases h
  next hraw =>
  split at hagain
  · cases hagain
  rw [not_or, not_not] at hraw
  -- A time that was written is read back, when its year has four digits.
  rcases savedViewRules_cases hrules hlookup with ⟨-, rfl⟩ | ⟨-, hkeeps⟩
  · obtain ⟨n, hn, hvalue⟩ := Option.map_eq_some_iff.mp h
    rw [← hvalue, rfc3339Rule, String.toList_ofList] at hagain
    by_cases hyear : HasWrittenYear n
    · rw [parseGoTime_rfc3339Nano hyear] at hagain
      rw [← hvalue]
      exact (Option.some.inj hagain).symm
    · rw [parseGoTime_rfc3339Nano_none hyear] at hagain
      cases hagain
  · have hself := (hkeeps raw value hraw.1 hraw.2 h).2.2
    rw [hself] at hagain
    exact (Option.some.inj hagain).symm

/-- What an accepted definition has passed. -/
theorem normalizeSavedViewDefinition_eq_some :
    normalizeSavedViewDefinition domain schemaVersion input = some (filters, path) ↔
      schemaVersion = savedViewFilterSchemaVersion ∧ 1 ≤ input.entries.length ∧
        input.entries.length ≤ 8 ∧ ∃ rules base, savedViewRules domain = some (rules, base) ∧
          input.traverse (normalizeFilter rules) = some filters ∧
          savedViewCombinationValid domain filters = true ∧
          path = base ++ "?" ++ encodeQuery filters := by
  unfold normalizeSavedViewDefinition
  -- Each guard of the function is one part of the right side.
  constructor
  · intro h
    split at h
    · cases h
    next hguard =>
    split at h
    · cases h
    next rules base hrules =>
    split at h
    · cases h
    next found hfound =>
    split at h
    · next hvalid =>
      obtain ⟨rfl, rfl⟩ := Prod.mk.inj (Option.some.inj h)
      exact ⟨by omega, by omega, by omega, rules, base, hrules, hfound, hvalid, rfl⟩
    · cases h
  · rintro ⟨hversion, hpos, hle, rules, base, hrules, hfound, hvalid, rfl⟩
    rw [if_neg (by omega), hrules]
    dsimp only
    rw [hfound]
    dsimp only
    rw [if_pos hvalid]

/-- Normalising the filters of an accepted definition again gives the same definition exactly when
its timestamps have years of four digits. -/
theorem renormalize_iff
    (h : normalizeSavedViewDefinition domain schemaVersion input = some (filters, path)) :
    normalizeSavedViewDefinition domain schemaVersion filters = some (filters, path) ↔
      WritesYears domain input := by
  obtain ⟨hversion, hpos, hle, rules, base, hrules, hfound, hvalid, hpath⟩ :=
    normalizeSavedViewDefinition_eq_some.mp h
  have hentries := SortedMap.traverse_eq_some_iff.mp hfound
  have hlength : filters.entries.length = input.entries.length := by
    have hkeys := congrArg List.length (SortedMap.keys_of_mapM hentries)
    simpa using hkeys
  -- Of the checks only the one of the values can fail the second time.
  have hself : normalizeSavedViewDefinition domain schemaVersion filters = some (filters, path) ↔
      filters.traverse (normalizeFilter rules) = some filters := by
    rw [normalizeSavedViewDefinition_eq_some]
    constructor
    · rintro ⟨-, -, -, rules', base', hrules', hagain, -⟩
      rw [hrules] at hrules'
      obtain ⟨rfl, -⟩ := Prod.mk.inj (Option.some.inj hrules')
      exact hagain
    · intro hagain
      exact ⟨hversion, by omega, by omega, rules, base, hrules, hagain, hvalid, hpath⟩
  rw [hself, SortedMap.traverse_self_iff]
  constructor
  · intro hkept x hx
    obtain ⟨value, hvalue, hmem⟩ := SortedMap.exists_of_mapM hentries x hx
    exact (normalizeFilter_keeps_iff hrules hvalue).mp (hkept _ hmem)
  · intro hyears y hy
    obtain ⟨raw, hmem, hvalue⟩ := SortedMap.of_mem_mapM hentries y hy
    exact (normalizeFilter_keeps_iff hrules hvalue).mpr (hyears _ hmem)

/-- Normalising the filters of an accepted definition again fails unless its timestamps have years
of four digits. -/
theorem renormalize_isSome_iff
    (h : normalizeSavedViewDefinition domain schemaVersion input = some (filters, path)) :
    (normalizeSavedViewDefinition domain schemaVersion filters).isSome = true ↔
      WritesYears domain input := by
  rw [← renormalize_iff h, Option.isSome_iff_exists]
  constructor
  · rintro ⟨⟨again, path'⟩, hagain⟩
    obtain ⟨-, -, -, rules, base, hrules, hfound, -, hpath⟩ :=
      normalizeSavedViewDefinition_eq_some.mp h
    obtain ⟨-, -, -, rules', base', hrules', hfound', -, hpath'⟩ :=
      normalizeSavedViewDefinition_eq_some.mp hagain
    rw [hrules] at hrules'
    obtain ⟨rfl, rfl⟩ := Prod.mk.inj (Option.some.inj hrules')
    -- A value that is accepted again is itself.
    have hself : ∀ x ∈ filters.entries, normalizeFilter rules x.1 x.2 = some x.2 := by
      intro x hx
      obtain ⟨raw, -, hvalue⟩ := SortedMap.of_mem_mapM
        (SortedMap.traverse_eq_some_iff.mp hfound) x hx
      obtain ⟨value, hvalue', -⟩ := SortedMap.exists_of_mapM
        (SortedMap.traverse_eq_some_iff.mp hfound') x hx
      rw [hvalue', normalizeFilter_own hrules hvalue hvalue']
    rw [SortedMap.traverse_self_iff.mpr hself] at hfound'
    obtain rfl := Option.some.inj hfound'
    rw [hagain, hpath', hpath]
  · intro hagain
    exact ⟨_, hagain⟩

end Normalise

/-! ## Ranges -/

/-- The filters of a range. -/
def rangeFilters (first last : String) : FilterMap :=
  (SortedMap.singleton "from" first).insert "to" last

/-- The filters of a range are its two ends. -/
theorem entries_rangeFilters (first last : String) :
    (rangeFilters first last).entries = [("from", first), ("to", last)] := by
  have hbelow : ∀ x ∈ (SortedMap.singleton "from" first).entries, x.1 < "to" := by
    intro x hx
    rw [List.mem_singleton.mp hx]
    show "from" < "to"
    decide
  exact SortedMap.entries_insert_of_above last hbelow

section Ranges

variable {domain first last : String} {n m : ℤ}

/-- An accepted bound passes the rule of timestamps. -/
theorem normalizeFilter_of_singleton {key raw : String} {out : FilterMap × String}
    {rules : List (String × SavedViewRule)} {base : String}
    (hrules : savedViewRules domain = some (rules, base)) (hstamp : IsTimestampFilter domain key)
    (h : normalizeSavedViewDefinition domain savedViewFilterSchemaVersion
      (SortedMap.singleton key raw) = some out) (hn : parseGoTime raw.toList = some n) :
    normalizeFilter rules key raw = some (String.ofList (rfc3339Nano n)) := by
  obtain ⟨filters, path⟩ := out
  obtain ⟨-, -, -, rules', base', hrules', hfound, -⟩ := normalizeSavedViewDefinition_eq_some.mp h
  rw [hrules] at hrules'
  obtain ⟨rfl, -⟩ := Prod.mk.inj (Option.some.inj hrules')
  obtain ⟨value, hvalue, -⟩ := SortedMap.exists_of_mapM
    (SortedMap.traverse_eq_some_iff.mp hfound) (key, raw) (List.mem_singleton_self _)
  rw [hvalue]
  unfold normalizeFilter at hvalue
  -- The key has the rule of the times.
  rcases hlookup : rules.lookup key with _ | rule
  · rw [hlookup] at hvalue
    cases hvalue
  rw [hlookup] at hvalue
  dsimp only at hvalue
  split at hvalue
  · cases hvalue
  rcases savedViewRules_cases hrules hlookup with ⟨-, rfl⟩ | ⟨hother, -⟩
  · rw [rfc3339Rule, hn] at hvalue
    exact hvalue.symm
  · exact absurd hstamp hother

/-- A range is refused exactly when the text of its first bound is behind that of the last. -/
theorem savedViewCombinationValid_range (domain a b : String) :
    savedViewCombinationValid domain (rangeFilters a b) = true ↔ ¬b < a := by
  have hget : ∀ key, (rangeFilters a b).get? key = [("from", a), ("to", b)].lookup key := by
    intro key
    rw [SortedMap.get?, entries_rangeFilters]
  unfold savedViewCombinationValid crossed
  simp [hget, List.lookup]

/-- For two timestamps that are accepted as the bounds of ranges without an end, the range between
them is accepted in the order of their instants exactly when their texts are in it. -/
theorem range_accepted_iff (hdomain : domain ∈ ["transfers", "events"])
    {out out' : FilterMap × String}
    (hfirst : normalizeSavedViewDefinition domain savedViewFilterSchemaVersion
      (SortedMap.singleton "from" first) = some out)
    (hlast : normalizeSavedViewDefinition domain savedViewFilterSchemaVersion
      (SortedMap.singleton "to" last) = some out')
    (hn : parseGoTime first.toList = some n) (hm : parseGoTime last.toList = some m) :
    ((normalizeSavedViewDefinition domain savedViewFilterSchemaVersion
      (rangeFilters first last)).isSome = true ↔ n ≤ m) ↔ TextOrdered n m := by
  obtain ⟨filters, path⟩ := out
  obtain ⟨-, -, -, rules, base, hrules, -⟩ := normalizeSavedViewDefinition_eq_some.mp hfirst
  have hfrom := normalizeFilter_of_singleton hrules ⟨hdomain, by decide⟩ hfirst hn
  have hto := normalizeFilter_of_singleton hrules ⟨hdomain, by decide⟩ hlast hm
  -- Both ends are accepted as they were alone.
  have hfound : (rangeFilters first last).traverse (normalizeFilter rules) =
      some (rangeFilters (String.ofList (rfc3339Nano n)) (String.ofList (rfc3339Nano m))) := by
    rw [SortedMap.traverse_eq_some_iff, entries_rangeFilters, entries_rangeFilters]
    simp [hfrom, hto]
  have hsome : (normalizeSavedViewDefinition domain savedViewFilterSchemaVersion
      -- So all that is left is the comparison of the two texts.
      (rangeFilters first last)).isSome = true ↔ ¬rfc3339Nano m < rfc3339Nano n := by
    have htext : ¬rfc3339Nano m < rfc3339Nano n ↔
        ¬String.ofList (rfc3339Nano m) < String.ofList (rfc3339Nano n) := by
      rw [String.lt_iff_toList_lt, String.toList_ofList, String.toList_ofList]
    rw [htext, ← savedViewCombinationValid_range domain, Option.isSome_iff_exists]
    have hlength : (rangeFilters first last).entries.length = 2 := by
      rw [entries_rangeFilters]
      rfl
    constructor
    · rintro ⟨⟨found, path⟩, h⟩
      obtain ⟨-, -, -, rules', base', hrules', hfound', hvalid, -⟩ :=
        normalizeSavedViewDefinition_eq_some.mp h
      rw [hrules] at hrules'
      obtain ⟨rfl, -⟩ := Prod.mk.inj (Option.some.inj hrules')
      rw [hfound] at hfound'
      exact Option.some.inj hfound' ▸ hvalid
    · intro hvalid
      exact ⟨_, normalizeSavedViewDefinition_eq_some.mpr
        ⟨rfl, by omega, by omega, rules, base, hrules, hfound, hvalid, rfl⟩⟩
  rw [hsome]
  -- Both times are within the years that are parsed, where texts are in the order of the times
  -- exactly under the condition.
  obtain ⟨hlow, hhigh⟩ := parseGoTime_bounds hn
  obtain ⟨hlow', hhigh'⟩ := parseGoTime_bounds hm
  exact rfc3339Nano_order hlow hlow' hhigh hhigh'

end Ranges

end LedgerSync
