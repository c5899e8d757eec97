import LedgerSync.Accounts

/-!
# The life of an account aggregate

The methods of an account change it in place. A method that refuses has changed nothing, since every
check comes before the first assignment (`AccountCall.run_eq`); a method that succeeds leaves an
account that `Restore` accepts as it is, one version later. The version is an `int64` that is
counted up without a check, so that this holds below its largest value only.
-/

namespace LedgerSync

open Lib

/-! ## Methods in place -/

/-- A method of `*Account`: what it assigns stays, also when it returns an error. -/
abbrev AccountMethod : Type := ExceptT AccountError (StateM AccountAggregate) Unit

namespace AccountMethod

/-- `prepareMutation`, which assigns nothing. -/
def prepareMutation (expectedVersion : ℤ) (occurredAt : Time) : AccountMethod := do
  match (← get).prepareMutation expectedVersion occurredAt with
  | .ok () => pure ()
  | .error e => throw e

/-- `advance`. -/
def advance (occurredAt : Time) : AccountMethod := do
  modify fun a => { a with version := int64 (a.version + 1) }
  modify fun a => { a with updatedAt := occurredAt }

/-- `UpdateMetadata`. -/
def updateMetadata (metadata : Metadata) (expectedVersion : ℤ) (occurredAt : Time) :
    AccountMethod := do
  prepareMutation expectedVersion occurredAt
  match normalizeMetadata metadata with
  | .error e => throw e
  | .ok metadata =>
    modify fun a => { a with metadata.displayName := metadata.displayName }
    modify fun a => { a with metadata.externalReference := metadata.externalReference }
    modify fun a => { a with metadata.category := metadata.category }
    advance occurredAt

/-- `Freeze`. -/
def freeze (expectedVersion : ℤ) (occurredAt : Time) : AccountMethod := do
  prepareMutation expectedVersion occurredAt
  if (← get).status ≠ .active then throw .invalidTransition
  else
    modify fun a => { a with status := .frozen }
    advance occurredAt

/-- `Reactivate`. -/
def reactivate (expectedVersion : ℤ) (occurredAt : Time) : AccountMethod := do
  prepareMutation expectedVersion occurredAt
  if (← get).status ≠ .frozen then throw .invalidTransition
  else
    modify fun a => { a with status := .active }
    advance occurredAt

/-- `Close`. -/
def close (expectedVersion : ℤ) (state : FinancialState) (occurredAt : Time) :
    AccountMethod := do
  prepareMutation expectedVersion occurredAt
  if (← get).status ≠ .active ∧ (← get).status ≠ .frozen then throw .invalidTransition
  else if state.consistent = false then throw .financialStateUnavailable
  else if state.availableMinor ≠ 0 ∨ state.ledgerMinor ≠ 0 then throw .nonZeroBalance
  else
    modify fun a => { a with status := .closed }
    modify fun a => { a with closedAt := occurredAt }
    advance occurredAt

/-- The method on an account: what it returns, and the account afterwards. -/
def exec (m : AccountMethod) (a : AccountAggregate) : Except AccountError Unit × AccountAggregate :=
  m.run.run a

/-- A method starts with the checks that all share, which assign nothing. -/
theorem exec_prepareMutation_bind (v : ℤ) (t : Time) (f : Unit → AccountMethod)
    (a : AccountAggregate) : exec (prepareMutation v t >>= f) a =
      match a.prepareMutation v t with
      | .ok () => (f ()).exec a
      | .error e => (.error e, a) := by
  have hrun : (prepareMutation v t).exec a = (a.prepareMutation v t, a) := by
    change AccountMethod.exec (match a.prepareMutation v t with
      | .ok () => pure ()
      | .error e => throw e) a = _
    rcases a.prepareMutation v t with e | u <;> rfl
  have hbind : exec (prepareMutation v t >>= f) a =
      exec (ExceptT.bindCont f ((prepareMutation v t).exec a).1)
        ((prepareMutation v t).exec a).2 := rfl
  rw [hbind, hrun]
  rcases a.prepareMutation v t with e | u <;> rfl

/-- A method by cases runs the method of its case. -/
theorem exec_ite {c : Prop} [Decidable c] (x y : AccountMethod) (a : AccountAggregate) :
    exec (if c then x else y) a = if c then x.exec a else y.exec a := by
  split_ifs <;> rfl

end AccountMethod

/-- A call of one of the four methods. -/
inductive AccountCall where
  | updateMetadata (metadata : Metadata) (expectedVersion : ℤ) (occurredAt : Time)
  | freeze (expectedVersion : ℤ) (occurredAt : Time)
  | reactivate (expectedVersion : ℤ) (occurredAt : Time)
  | close (expectedVersion : ℤ) (state : FinancialState) (occurredAt : Time)

namespace AccountCall

/-- The method that is called. -/
def method : AccountCall → AccountMethod
  | updateMetadata metadata v t => .updateMetadata metadata v t
  | freeze v t => .freeze v t
  | reactivate v t => .reactivate v t
  | close v state t => .close v state t

/-- The call on an account: what it returns, and the account afterwards. -/
def run (c : AccountCall) (a : AccountAggregate) : Except AccountError Unit × AccountAggregate :=
  c.method.exec a

/-- The call as a function of the account. -/
def apply (a : AccountAggregate) : AccountCall → Except AccountError AccountAggregate
  | updateMetadata metadata v t => a.updateMetadata metadata v t
  | freeze v t => a.freeze v t
  | reactivate v t => a.reactivate v t
  | close v state t => a.close v state t

/-- What a method returns and leaves when its function gives a result: a call that refuses leaves
the account as it was. -/
def outcome (a : AccountAggregate) :
    Except AccountError AccountAggregate → Except AccountError Unit × AccountAggregate
  | .ok a' => (.ok (), a')
  | .error e => (.error e, a)

/-- A method and its function agree when they do after the checks that both begin with. -/
theorem exec_checked {a : AccountAggregate} {v : ℤ} {t : Time} {f : Unit → AccountMethod}
    {g : Unit → Except AccountError AccountAggregate} (h : (f ()).exec a = outcome a (g ())) :
    AccountMethod.exec (AccountMethod.prepareMutation v t >>= f) a =
      outcome a (a.prepareMutation v t >>= g) := by
  rw [AccountMethod.exec_prepareMutation_bind]
  rcases a.prepareMutation v t with e | u
  · rfl
  · exact h

/-- A check of both that refuses with the same error. -/
theorem exec_refused {c : Prop} [Decidable c] {a : AccountAggregate} {e : AccountError}
    {x : AccountMethod} {y : Except AccountError AccountAggregate}
    (h : x.exec a = outcome a y) :
    AccountMethod.exec (if c then throw e else x) a = outcome a (if c then .error e else y) := by
  rw [AccountMethod.exec_ite]
  by_cases hc : c
  · rw [if_pos hc, if_pos hc]
    rfl
  · rw [if_neg hc, if_neg hc]
    exact h

/-- A call that refuses leaves the account as it was, and a call that succeeds leaves what the
function gives. -/
theorem run_eq (c : AccountCall) (a : AccountAggregate) : c.run a = outcome a (c.apply a) := by
  cases c with
  | updateMetadata metadata v t =>
    refine exec_checked ?_
    rcases normalizeMetadata metadata with e | m <;> rfl
  | freeze v t => exact exec_checked (exec_refused rfl)
  | reactivate v t => exact exec_checked (exec_refused rfl)
  | close v state t => exact exec_checked (exec_refused (exec_refused (exec_refused rfl)))

end AccountCall

/-! ## Metadata that are normalised -/

/-- The characters of a reference are lower case and not spaces. -/
theorem IsReferenceChar.plain {c : Char} (h : IsReferenceChar c) :
    lowerLetter c = c ∧ isSpace c = false := by
  -- The characters lie between the hyphen and the letter z, without the upper-case letters.
  have hrange : 45 ≤ c.toNat ∧ c.toNat ≤ 122 ∧ ¬(65 ≤ c.toNat ∧ c.toNat ≤ 90) := by
    rcases h with (⟨hlo, hhi⟩ | ⟨hlo, hhi⟩) | rfl | rfl | rfl
    · have hlo : 97 ≤ c.toNat := hlo
      have hhi : c.toNat ≤ 122 := hhi
      omega
    · have hlo : 48 ≤ c.toNat := hlo
      have hhi : c.toNat ≤ 57 := hhi
      omega
    all_goals decide
  obtain ⟨hlo, hhi, hcase⟩ := hrange
  constructor
  · unfold lowerLetter
    have hupper : ¬('A' ≤ c ∧ c ≤ 'Z') := hcase
    rw [if_neg hupper, if_neg, if_neg]
    · rintro rfl
      simp at hhi
    · rintro rfl
      simp at hhi
  · unfold isSpace
    rw [decide_eq_false_iff_not]
    -- The blanks below this range are listed, and the others lie far above it.
    rintro (hmem | hwide)
    · simp only [List.mem_cons, List.not_mem_nil, or_false] at hmem
      rcases hmem with rfl | rfl | rfl | rfl | rfl | rfl | rfl | rfl | rfl | rfl | rfl | rfl | rfl |
        rfl
      all_goals simp at hlo hhi
    · omega

/-- The characters of a reference are those that a reference may have. -/
theorem ReferenceChars.mem {cs : List Char} (h : ReferenceChars cs) {c : Char} (hc : c ∈ cs) :
    IsReferenceChar c := by
  cases cs with
  | nil => cases hc
  | cons x xs =>
    rcases List.mem_cons.mp hc with rfl | hc
    · exact .inl h.1
    · exact h.2 c hc

/-- A category that is valid is normalised. -/
theorem ValidCategory.normal : ∀ {category : String}, ValidCategory category →
    toLower (trimSpace category) = category := by
  have hcategories : ∀ category ∈ ["operating", "customer_funds", "payroll", "payables", "expenses",
      "reserve"], toLower (trimSpace category) = category := by
    decide +kernel
  intro category h
  exact hcategories category h

/-- The reference of valid metadata has only such characters. -/
theorem Metadata.Valid.reference {value : Metadata} (h : value.Valid) :
    ReferenceChars value.externalReference.toList := h.2.2.2.1

/-- The category of valid metadata is valid. -/
theorem Metadata.Valid.category {value : Metadata} (h : value.Valid) :
    ValidCategory value.category := h.2.2.2.2

/-- Metadata that pass the checks, with a trimmed name, are not changed by another normalisation. -/
theorem Metadata.Valid.trimmed_eq {m : Metadata} (h : m.Valid)
    (hname : trimSpace m.displayName = m.displayName) : m.trimmed = m := by
  have hplain : ∀ c ∈ m.externalReference.toList, lowerLetter c = c ∧ isSpace c = false :=
    fun c hc => (h.reference.mem hc).plain
  have hexternal : toLower (trimSpace m.externalReference) = m.externalReference := by
    rw [trimSpace_of_ends (fun c hc => (hplain c (List.mem_of_head? hc)).2)
      fun c hc => (hplain c (List.mem_of_getLast? hc)).2]
    unfold toLower
    rw [List.map_congr_left fun c hc => (hplain c hc).1, List.map_id', String.ofList_toList]
  unfold Metadata.trimmed
  rw [hname, hexternal, h.category.normal]

/-- Metadata that were normalised stay as they are. -/
theorem Metadata.trimmed_trimmed {value : Metadata} (h : value.trimmed.Valid) :
    value.trimmed.trimmed = value.trimmed :=
  h.trimmed_eq (trimSpace_trimSpace value.displayName)

/-! ## Accounts that `Restore` accepts -/

namespace AccountAggregate

/-- `Restore` gives back the account from its own fields. -/
def Restorable (a : AccountAggregate) : Prop :=
  restore a.id a.tenantId a.currency.code a.status a.metadata a.version a.owners a.createdAt
    a.updatedAt a.closedAt = .ok a

/-- What an account that can be restored is like. -/
structure WellFormed (a : AccountAggregate) : Prop where
  id : trimSpace a.id ≠ ""
  tenant : trimSpace a.tenantId ≠ ""
  currency : lookupCurrency a.currency.code = some a.currency
  owners : ¬(a.owners = [] ∨ (∃ o ∈ a.owners, trimSpace o.subjectId = "") ∨
    ¬(a.owners.map Owner.subjectId).Nodup)
  valid : a.metadata.Valid
  normal : a.metadata.trimmed = a.metadata
  version : 1 ≤ a.version
  updated : a.updatedAt ≠ 0
  closed : a.closedAt ≠ 0 ↔ a.status = .closed

/-- The check of `Restore` on the closing time: it is set exactly for a closed account. -/
theorem closed_iff {status : AccountStatus} {closedAt : Time} :
    ¬((status = .closed ∧ closedAt = 0) ∨ (status ≠ .closed ∧ closedAt ≠ 0)) ↔
      (closedAt ≠ 0 ↔ status = .closed) := by
  tauto

/-- A new account is active, at version one and without metadata. -/
theorem new_ok {id tenantId code : String} {owners : List Owner} {createdAt : Time}
    {a : AccountAggregate} : new id tenantId code owners createdAt = .ok a ↔
      trimSpace id ≠ "" ∧ trimSpace tenantId ≠ "" ∧
      ¬(owners = [] ∨ (∃ o ∈ owners, trimSpace o.subjectId = "") ∨
        ¬(owners.map Owner.subjectId).Nodup) ∧
      ∃ currency, lookupCurrency code = some currency ∧
        a = ⟨id, tenantId, currency, .active, ⟨"", "", ""⟩, 1, owners, createdAt, createdAt, 0⟩ := by
  unfold new
  -- The currency is looked up after the check of the ids and before that of the owners.
  rcases hcode : lookupCurrency code with _ | currency
  · split_ifs with hblank
    · exact ⟨fun h => (nomatch h), fun h => absurd hblank (not_or.mpr ⟨h.1, h.2.1⟩)⟩
    · refine ⟨fun h => (nomatch h), ?_⟩
      rintro ⟨-, -, -, currency, hcurrency, -⟩
      cases hcurrency
  · dsimp only
    split_ifs with hblank howners
    · exact ⟨fun h => (nomatch h), fun h => absurd hblank (not_or.mpr ⟨h.1, h.2.1⟩)⟩
    · exact ⟨fun h => (nomatch h), fun h => absurd howners h.2.2.1⟩
    · obtain ⟨hid, htenant⟩ := not_or.mp hblank
      rw [Except.ok.injEq]
      constructor
      · rintro rfl
        exact ⟨hid, htenant, howners, currency, rfl, rfl⟩
      · rintro ⟨-, -, -, currency', hcurrency, rfl⟩
        rw [Option.some.inj hcurrency]

/-- What `Restore` accepts, and what it makes of it. -/
theorem restore_ok {id tenantId code : String} {status : AccountStatus} {metadata : Metadata}
    {version : ℤ} {owners : List Owner} {createdAt updatedAt closedAt : Time}
    {a : AccountAggregate} :
    restore id tenantId code status metadata version owners createdAt updatedAt closedAt = .ok a ↔
      ∃ created, new id tenantId code owners createdAt = .ok created ∧ metadata.trimmed.Valid ∧
        ¬(version < 1 ∨ updatedAt = 0) ∧
        ¬((status = .closed ∧ closedAt = 0) ∨ (status ≠ .closed ∧ closedAt ≠ 0)) ∧
        a = { created with
          status, metadata := metadata.trimmed, version, updatedAt, closedAt } := by
  unfold restore
  -- What `new` refuses is refused before anything else is looked at.
  rcases new id tenantId code owners createdAt with e | created
  · refine ⟨fun h => (nomatch h), ?_⟩
    rintro ⟨created, hcreated, -⟩
    cases hcreated
  · unfold normalizeMetadata
    -- The metadata is checked on its trimmed form.
    by_cases hvalid : metadata.trimmed.Valid
    · rw [if_pos hvalid]
      change (if version < 1 ∨ updatedAt = 0 then Except.error AccountError.invalidAccount
        else if (status = .closed ∧ closedAt = 0) ∨ (status ≠ .closed ∧ closedAt ≠ 0) then
          Except.error AccountError.invalidAccount
        else Except.ok _) = _ ↔ _
      split_ifs with hversion hclosed
      · refine ⟨fun h => (nomatch h), ?_⟩
        rintro ⟨created, -, -, hbad, -⟩
        exact absurd hversion hbad
      · refine ⟨fun h => (nomatch h), ?_⟩
        rintro ⟨created, -, -, -, hbad, -⟩
        exact absurd hclosed hbad
      · rw [Except.ok.injEq]
        constructor
        · rintro rfl
          exact ⟨created, rfl, hvalid, hversion, hclosed, rfl⟩
        · rintro ⟨created', hcreated, -, -, -, rfl⟩
          rw [Except.ok.inj hcreated]
    · rw [if_neg hvalid]
      refine ⟨fun h => (nomatch h), ?_⟩
      rintro ⟨created, -, hbad, -⟩
      exact absurd hbad hvalid

/-- An account that was restored is well formed. -/
theorem wellFormed_of_restore {id tenantId code : String} {status : AccountStatus}
    {metadata : Metadata} {version : ℤ} {owners : List Owner} {createdAt updatedAt closedAt : Time}
    {a : AccountAggregate}
    (h : restore id tenantId code status metadata version owners createdAt updatedAt closedAt =
      .ok a) : a.WellFormed := by
  obtain ⟨created, hcreated, hvalid, hversion, hclosed, rfl⟩ := restore_ok.mp h
  obtain ⟨hid, htenant, howners, currency, hcurrency, rfl⟩ := new_ok.mp hcreated
  obtain ⟨hpositive, hupdated⟩ := not_or.mp hversion
  unfold lookupCurrency at hcurrency
  refine ⟨hid, htenant, lookupCurrency_supported _ (List.mem_of_find?_eq_some hcurrency), howners,
    hvalid, Metadata.trimmed_trimmed hvalid, not_lt.mp hpositive, hupdated, closed_iff.mp hclosed⟩

/-- An account that is well formed can be restored. -/
theorem WellFormed.restorable {a : AccountAggregate} (h : a.WellFormed) : a.Restorable := by
  have hvalid : a.metadata.trimmed.Valid := by
    rw [h.normal]
    exact h.valid
  refine restore_ok.mpr ⟨_, new_ok.mpr ⟨h.id, h.tenant, h.owners, a.currency, h.currency, rfl⟩,
    hvalid, not_or.mpr ⟨not_lt.mpr h.version, h.updated⟩, closed_iff.mpr h.closed, ?_⟩
  rw [h.normal]

/-- The checks that all methods begin with: the account is open, the version is its own, and time
does not go back. -/
theorem prepareMutation_ok {a : AccountAggregate} {v : ℤ} {t : Time} {u : Unit}
    (h : a.prepareMutation v t = .ok u) :
    t ≠ 0 ∧ a.status ≠ .closed ∧ v = a.version ∧ a.updatedAt ≤ t := by
  unfold prepareMutation at h
  split_ifs at h with htime hclosed hversion hbefore
  exact ⟨htime, hclosed, not_not.mp (not_or.mp hversion).2, not_lt.mp hbefore⟩

end AccountAggregate

/-! ## One call -/

namespace AccountCall

/-- What a call that succeeds does. -/
def Change (a a' : AccountAggregate) : Prop :=
  ∃ t status metadata closedAt, t ≠ 0 ∧ a.status ≠ .closed ∧ a.updatedAt ≤ t ∧
    (metadata = a.metadata ∨ ∃ value : Metadata, value.trimmed.Valid ∧ metadata = value.trimmed) ∧
    ((status ≠ .closed ∧ closedAt = a.closedAt) ∨ (status = .closed ∧ closedAt = t)) ∧
    a' = { a with status, metadata, version := int64 (a.version + 1), updatedAt := t, closedAt }

/-- A call that succeeds changes the account. -/
theorem apply_ok {c : AccountCall} {a a' : AccountAggregate} (h : c.apply a = .ok a') :
    Change a a' := by
  -- The checks that all four methods begin with.
  have hchecks : ∀ {v : ℤ} {t : Time} {f : Unit → Except AccountError AccountAggregate},
      (a.prepareMutation v t >>= f) = .ok a' →
        (t ≠ 0 ∧ a.status ≠ .closed ∧ a.updatedAt ≤ t) ∧ f () = .ok a' := by
    intro v t f h
    rcases hprepare : a.prepareMutation v t with e | u
    · rw [hprepare] at h
      cases h
    · obtain ⟨htime, hclosed, -, hbefore⟩ := AccountAggregate.prepareMutation_ok hprepare
      rw [hprepare] at h
      exact ⟨⟨htime, hclosed, hbefore⟩, h⟩
  cases c with
  | updateMetadata value v t =>
    obtain ⟨⟨htime, hclosed, hbefore⟩, h⟩ := hchecks h
    rcases hnormal : normalizeMetadata value with e | m
    · rw [hnormal] at h
      cases h
    · rw [hnormal] at h
      obtain ⟨hvalid, rfl⟩ := normalizeMetadata_ok.mp hnormal
      obtain rfl := Except.ok.inj h
      exact ⟨t, a.status, value.trimmed, a.closedAt, htime, hclosed, hbefore,
        .inr ⟨value, hvalid, rfl⟩, .inl ⟨hclosed, rfl⟩, rfl⟩
  | freeze v t =>
    obtain ⟨⟨htime, hclosed, hbefore⟩, h⟩ := hchecks h
    split_ifs at h
    obtain rfl := Except.ok.inj h
    exact ⟨t, .frozen, a.metadata, a.closedAt, htime, hclosed, hbefore, .inl rfl,
      .inl ⟨by decide, rfl⟩, rfl⟩
  | reactivate v t =>
    obtain ⟨⟨htime, hclosed, hbefore⟩, h⟩ := hchecks h
    split_ifs at h
    obtain rfl := Except.ok.inj h
    exact ⟨t, .active, a.metadata, a.closedAt, htime, hclosed, hbefore, .inl rfl,
      .inl ⟨by decide, rfl⟩, rfl⟩
  | close v state t =>
    obtain ⟨⟨htime, hclosed, hbefore⟩, h⟩ := hchecks h
    split_ifs at h
    obtain rfl := Except.ok.inj h
    exact ⟨t, .closed, a.metadata, t, htime, hclosed, hbefore, .inl rfl, .inr ⟨rfl, rfl⟩, rfl⟩

/-- Below the largest version, a call that succeeds leaves an account that can be restored, one
version later. -/
theorem Change.step {a a' : AccountAggregate} (h : Change a a') (ha : a.WellFormed)
    (hroom : a.version < 2 ^ 63 - 1) :
    a'.version = a.version + 1 ∧ a.updatedAt ≤ a'.updatedAt ∧ a'.WellFormed := by
  obtain ⟨t, status, metadata, closedAt, htime, hclosed, hbefore, hmetadata, hstatus, rfl⟩ := h
  have hone := ha.version
  have hnext : int64 (a.version + 1) = a.version + 1 := int64_of_fits ⟨by omega, by omega⟩
  refine ⟨hnext, hbefore, ha.id, ha.tenant, ha.currency, ha.owners, ?_, ?_, ?_, htime, ?_⟩
  · rcases hmetadata with rfl | ⟨value, hvalid, rfl⟩
    · exact ha.valid
    · exact hvalid
  · rcases hmetadata with rfl | ⟨value, hvalid, rfl⟩
    · exact ha.normal
    · exact Metadata.trimmed_trimmed hvalid
  · exact hnext.symm ▸ (by omega : 1 ≤ a.version + 1)
  · rcases hstatus with ⟨hopen, rfl⟩ | ⟨rfl, rfl⟩
    · exact ⟨fun hset => absurd (ha.closed.mp hset) hclosed, fun h => absurd h hopen⟩
    · exact ⟨fun _ => rfl, fun _ => htime⟩

/-- The law of one call: what succeeds advances an open account by one version and not back in
time, and what fails changes nothing. -/
def Lawful (c : AccountCall) (a : AccountAggregate) : Prop :=
  (∀ u, (c.run a).1 = .ok u → a.status ≠ .closed ∧ (c.run a).2.version = a.version + 1 ∧
    a.updatedAt ≤ (c.run a).2.updatedAt) ∧
  ∀ e, (c.run a).1 = .error e → (c.run a).2 = a

/-- A call keeps the law and leaves the account well formed. -/
theorem run_step {c : AccountCall} {a : AccountAggregate} (ha : a.WellFormed)
    (hroom : a.version < 2 ^ 63 - 1) : c.Lawful a ∧ (c.run a).2.WellFormed := by
  unfold Lawful
  rw [run_eq]
  rcases happly : c.apply a with e | a'
  · exact ⟨⟨fun u hu => (nomatch hu), fun _ _ => rfl⟩, ha⟩
  · have hchange := apply_ok happly
    obtain ⟨hversion, hupdated, hwell⟩ := hchange.step ha hroom
    obtain ⟨-, -, -, -, -, hopen, -⟩ := hchange
    exact ⟨⟨fun _ _ => ⟨hopen, hversion, hupdated⟩, fun e he => (nomatch he)⟩, hwell⟩

/-- The account after some calls, failing ones included. -/
def runAll (cs : List AccountCall) (a : AccountAggregate) : AccountAggregate :=
  cs.foldl (fun a c => (c.run a).2) a

/-- Calls after calls. -/
theorem runAll_append (cs cs' : List AccountCall) (a : AccountAggregate) :
    runAll (cs ++ cs') a = runAll cs' (runAll cs a) := List.foldl_append

/-- The calls of a history are lawful, and it leaves a well-formed account. -/
theorem runAll_wellFormed {cs : List AccountCall} {a : AccountAggregate} (ha : a.WellFormed)
    (hroom : ∀ pre c post, cs = pre ++ c :: post → (runAll pre a).version < 2 ^ 63 - 1) :
    (∀ pre c post, cs = pre ++ c :: post → c.Lawful (runAll pre a)) ∧
      (runAll cs a).WellFormed := by
  -- The induction is on the calls; the room left is needed before each of them.
  induction cs using List.reverseRecOn with
  | nil => exact ⟨fun pre c post h => by simp at h, ha⟩
  | append_singleton cs c ih =>
    obtain ⟨hlawful, hwell⟩ := ih fun pre c' post h =>
      hroom pre c' (post ++ [c]) (by rw [h]; simp)
    have hstep := run_step (c := c) hwell (hroom cs c [] rfl)
    refine ⟨fun pre c' post h => ?_, ?_⟩
    -- The call is the last one or stands in the list of before.
    · rcases List.eq_nil_or_concat post with rfl | ⟨post', last, rfl⟩
      · obtain ⟨rfl, hlast⟩ := List.append_inj' h rfl
        obtain rfl := List.singleton_inj.mp hlast
        exact hstep.1
      · have hassoc : cs ++ [c] = (pre ++ c' :: post') ++ [last] := by
          rw [h]
          simp
        have hsplit : cs = pre ++ c' :: post' := (List.append_inj' hassoc rfl).1
        exact hlawful pre c' post' hsplit
    · rw [runAll_append]
      exact hstep.2

end AccountCall

/-- **The life of an account.** Of an account that `Restore` accepted, any sequence of calls made
below the largest version keeps the law of one call, leaves the closing time set exactly when the
account is closed, and leaves an account that `Restore` accepts with the same fields. -/
theorem account_lifecycle (id tenantId code : String) (status : AccountStatus) (metadata : Metadata)
    (version : ℤ) (owners : List Owner) (createdAt updatedAt closedAt : Time)
    (a : AccountAggregate)
    (h : AccountAggregate.restore id tenantId code status metadata version owners createdAt
      updatedAt closedAt = .ok a) (cs : List AccountCall)
    (hroom : ∀ pre c post, cs = pre ++ c :: post →
      (AccountCall.runAll pre a).version < 2 ^ 63 - 1) :
    (∀ pre c post, cs = pre ++ c :: post → c.Lawful (AccountCall.runAll pre a)) ∧
    ∀ pre, pre <+: cs → ((AccountCall.runAll pre a).closedAt ≠ 0 ↔
        (AccountCall.runAll pre a).status = .closed) ∧
      (AccountCall.runAll pre a).Restorable := by
  have ha := AccountAggregate.wellFormed_of_restore h
  refine ⟨(AccountCall.runAll_wellFormed ha hroom).1, ?_⟩
  rintro pre ⟨post, rfl⟩
  have hwell : (AccountCall.runAll pre a).WellFormed :=
    (AccountCall.runAll_wellFormed ha fun pre' c post' hpre =>
      hroom pre' c (post' ++ post) (by rw [hpre]; simp)).2
  exact ⟨hwell.closed, hwell.restorable⟩

namespace Sample

/-- The fields of an operating account at a version. -/
def operating (version : ℤ) : AccountAggregate where
  id := "account-1"
  tenantId := "tenant-1"
  currency := ⟨"INR", 2⟩
  status := .active
  metadata := ⟨"Operating", "operating-1", "operating"⟩
  version := version
  owners := [⟨"olivia", .debit⟩]
  createdAt := 1
  updatedAt := 1
  closedAt := 0

/-- It is restored as it is at every version from one on. -/
theorem operating_restorable {version : ℤ} (h : 1 ≤ version) : (operating version).Restorable := by
  have hwell : (operating 1).WellFormed := by
    refine ⟨?_, ?_, ?_, ?_, ?_, ?_, le_rfl, ?_, ?_⟩ <;> decide +kernel
  exact AccountAggregate.WellFormed.restorable ⟨hwell.id, hwell.tenant, hwell.currency,
    hwell.owners, hwell.valid, hwell.normal, h, hwell.updated, hwell.closed⟩

end Sample

/-- An account is frozen and reactivated, and a stale call in between fails. -/
theorem account_lifecycle_sample : (AccountCall.runAll [.freeze 1 2, .freeze 1 3, .reactivate 2 3]
    (Sample.operating 1)).Restorable := by
  refine ((account_lifecycle _ _ _ _ _ _ _ _ _ _ (Sample.operating 1)
    (Sample.operating_restorable le_rfl) [.freeze 1 2, .freeze 1 3, .reactivate 2 3]
    fun pre c post hcs => ?_).2 _ (List.prefix_refl _)).2
  have hall : ∀ pre ∈ [AccountCall.freeze 1 2, .freeze 1 3, .reactivate 2 3].inits,
      (AccountCall.runAll pre (Sample.operating 1)).version < 2 ^ 63 - 1 := by
    decide +kernel
  exact hall pre ((List.mem_inits pre _).mpr ⟨c :: post, hcs.symm⟩)

/-- At the largest version, a call that succeeds leaves a negative version. -/
theorem version_wraps : (Sample.operating (2 ^ 63 - 1)).Restorable ∧
    ((AccountCall.freeze (2 ^ 63 - 1) 2).run (Sample.operating (2 ^ 63 - 1))).1 = .ok () ∧
    ¬(AccountCall.freeze (2 ^ 63 - 1) 2).Lawful (Sample.operating (2 ^ 63 - 1)) := by
  have hrun : ((AccountCall.freeze (2 ^ 63 - 1) 2).run (Sample.operating (2 ^ 63 - 1))).1 = .ok () :=
    rfl
  have hversion : ((AccountCall.freeze (2 ^ 63 - 1) 2).run
      (Sample.operating (2 ^ 63 - 1))).2.version ≠ 2 ^ 63 - 1 + 1 := by
    decide +kernel
  exact ⟨Sample.operating_restorable (by norm_num), hrun, fun h => hversion (h.1 () hrun).2.1⟩

end LedgerSync
