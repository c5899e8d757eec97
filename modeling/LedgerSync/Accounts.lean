import LedgerSync.Money
import LedgerSync.Schema

/-!
# The account aggregate

The services rebuild an account from its row, change it under an expected version, and write it
back. An aggregate that is rebuilt has normalised metadata: names are trimmed, references and
categories are also lower case. A change that an aggregate refuses leaves nothing behind.
-/

namespace LedgerSync

open Lib

/-! ## Metadata -/

/-- The errors of the aggregate, without the details that follow their texts. -/
inductive AccountError where
  | invalidAccount
  | invalidMetadata
  | unsupportedCurrency
  | invalidTransition
  | terminalStatus
  | nonZeroBalance
  | financialStateUnavailable
  | operationalObligations
  | versionConflict
deriving DecidableEq

/-- `Metadata`. -/
structure Metadata where
  displayName : String
  externalReference : String
  category : String
deriving DecidableEq

/-- `MaxDisplayNameRunes`. -/
def maxDisplayNameRunes : ℕ := 120

/-- `MaxReferenceLength`. -/
def maxReferenceLength : ℕ := 64

/-- `ValidCategory`. -/
def ValidCategory (value : String) : Prop :=
  value ∈ ["operating", "customer_funds", "payroll", "payables", "expenses", "reserve"]

/-- Whether a category is valid can be decided. -/
instance (value : String) : Decidable (ValidCategory value) := inferInstanceAs (Decidable (_ ∈ _))

/-- A letter or digit of a reference. -/
def IsReferenceStart (c : Char) : Prop := ('a' ≤ c ∧ c ≤ 'z') ∨ ('0' ≤ c ∧ c ≤ '9')

/-- Whether a character may begin a reference can be decided. -/
instance (c : Char) : Decidable (IsReferenceStart c) := inferInstanceAs (Decidable (_ ∨ _))

/-- A character of a reference after its first. -/
def IsReferenceChar (c : Char) : Prop := IsReferenceStart c ∨ c = '.' ∨ c = '_' ∨ c = '-'

/-- Whether a character may be in a reference can be decided. -/
instance (c : Char) : Decidable (IsReferenceChar c) := inferInstanceAs (Decidable (_ ∨ _))

/-- The characters of a reference are as they have to be. -/
def ReferenceChars : List Char → Prop
  | [] => True
  | c :: cs => IsReferenceStart c ∧ ∀ x ∈ cs, IsReferenceChar x

/-- Whether characters are those of a reference can be decided. -/
instance (cs : List Char) : Decidable (ReferenceChars cs) :=
  match cs with
  | [] => isTrue trivial
  | _ :: _ => inferInstanceAs (Decidable (_ ∧ _))

namespace Metadata

/-- The metadata in the form that `NormalizeMetadata` checks. -/
def trimmed (value : Metadata) : Metadata where
  displayName := trimSpace value.displayName
  externalReference := toLower (trimSpace value.externalReference)
  category := toLower (trimSpace value.category)

/-- The checks of `NormalizeMetadata`. -/
def Valid (value : Metadata) : Prop :=
  (value.displayName ≠ "" ∧ value.displayName.toList.length ≤ maxDisplayNameRunes) ∧
    ¬HasControl value.displayName ∧
    (3 ≤ value.externalReference.utf8ByteSize ∧
      value.externalReference.utf8ByteSize ≤ maxReferenceLength) ∧
    ReferenceChars value.externalReference.toList ∧ ValidCategory value.category

/-- Whether metadata are valid can be decided. -/
instance (value : Metadata) : Decidable value.Valid :=
  inferInstanceAs (Decidable ((_ ∧ _) ∧ _ ∧ (_ ∧ _) ∧ _ ∧ _))

end Metadata

/-- `NormalizeMetadata`. -/
def normalizeMetadata (value : Metadata) : Except AccountError Metadata :=
  if value.trimmed.Valid then .ok value.trimmed else .error .invalidMetadata

/-- Metadata are normalised by trimming, and are valid then. -/
theorem normalizeMetadata_ok {value m : Metadata} :
    normalizeMetadata value = .ok m ↔ value.trimmed.Valid ∧ m = value.trimmed := by
  unfold normalizeMetadata
  by_cases h : value.trimmed.Valid
  · rw [if_pos h, Except.ok.injEq, eq_comm, and_iff_right h]
  · rw [if_neg h]
    exact ⟨fun hok => (nomatch hok), fun hm => absurd hm.1 h⟩

/-! ## The aggregate -/

/-- `Owner`. -/
structure Owner where
  subjectId : String
  permission : Permission
deriving DecidableEq

/-- `FinancialState`. -/
structure FinancialState where
  availableMinor : ℤ
  ledgerMinor : ℤ
  consistent : Bool

/-- `Account` of the services. -/
structure AccountAggregate where
  id : String
  tenantId : String
  currency : Currency
  status : AccountStatus
  metadata : Metadata
  version : ℤ
  owners : List Owner
  createdAt : Time
  updatedAt : Time
  closedAt : Time

namespace AccountAggregate

/-- `New`: an active account without metadata. -/
def new (id tenantId currencyCode : String) (owners : List Owner) (createdAt : Time) :
    Except AccountError AccountAggregate :=
  if trimSpace id = "" ∨ trimSpace tenantId = "" then .error .invalidAccount
  else match lookupCurrency currencyCode with
    | none => .error .unsupportedCurrency
    | some currency =>
      if owners = [] ∨ (∃ o ∈ owners, trimSpace o.subjectId = "") ∨
          ¬(owners.map Owner.subjectId).Nodup then .error .invalidAccount
      else .ok ⟨id, tenantId, currency, .active, ⟨"", "", ""⟩, 1, owners, createdAt, createdAt, 0⟩

/-- `NewConfigured`. -/
def newConfigured (id tenantId currencyCode : String) (metadata : Metadata) (owner : Owner)
    (createdAt : Time) : Except AccountError AccountAggregate := do
  let metadata ← normalizeMetadata metadata
  let created ← new id tenantId currencyCode [owner] createdAt
  .ok { created with metadata }

/-- `Restore`. A closing time of zero stands for none. -/
def restore (id tenantId currencyCode : String) (status : AccountStatus) (metadata : Metadata)
    (version : ℤ) (owners : List Owner) (createdAt updatedAt closedAt : Time) :
    Except AccountError AccountAggregate := do
  let restored ← new id tenantId currencyCode owners createdAt
  let metadata ← normalizeMetadata metadata
  if version < 1 ∨ updatedAt = 0 then .error .invalidAccount
  else if (status = .closed ∧ closedAt = 0) ∨ (status ≠ .closed ∧ closedAt ≠ 0) then
    .error .invalidAccount
  else .ok { restored with status, metadata, version, updatedAt, closedAt }

/-- `prepareMutation`. -/
def prepareMutation (a : AccountAggregate) (expectedVersion : ℤ) (occurredAt : Time) :
    Except AccountError Unit :=
  if occurredAt = 0 then .error .invalidAccount
  else if a.status = .closed then .error .terminalStatus
  else if expectedVersion < 1 ∨ expectedVersion ≠ a.version then .error .versionConflict
  else if occurredAt < a.updatedAt then .error .invalidAccount
  else .ok ()

/-- `advance`. -/
def advance (a : AccountAggregate) (occurredAt : Time) : AccountAggregate :=
  { a with version := int64 (a.version + 1), updatedAt := occurredAt }

/-- `UpdateMetadata`. -/
def updateMetadata (a : AccountAggregate) (metadata : Metadata) (expectedVersion : ℤ)
    (occurredAt : Time) : Except AccountError AccountAggregate := do
  a.prepareMutation expectedVersion occurredAt
  let metadata ← normalizeMetadata metadata
  .ok ({ a with metadata }.advance occurredAt)

/-- `Freeze`. -/
def freeze (a : AccountAggregate) (expectedVersion : ℤ) (occurredAt : Time) :
    Except AccountError AccountAggregate := do
  a.prepareMutation expectedVersion occurredAt
  if a.status ≠ .active then .error .invalidTransition
  else .ok ({ a with status := .frozen }.advance occurredAt)

/-- `Reactivate`. -/
def reactivate (a : AccountAggregate) (expectedVersion : ℤ) (occurredAt : Time) :
    Except AccountError AccountAggregate := do
  a.prepareMutation expectedVersion occurredAt
  if a.status ≠ .frozen then .error .invalidTransition
  else .ok ({ a with status := .active }.advance occurredAt)

/-- `Close`. -/
def close (a : AccountAggregate) (expectedVersion : ℤ) (state : FinancialState)
    (occurredAt : Time) : Except AccountError AccountAggregate := do
  a.prepareMutation expectedVersion occurredAt
  if a.status ≠ .active ∧ a.status ≠ .frozen then .error .invalidTransition
  else if state.consistent = false then .error .financialStateUnavailable
  else if state.availableMinor ≠ 0 ∨ state.ledgerMinor ≠ 0 then .error .nonZeroBalance
  else .ok ({ a with status := .closed, closedAt := occurredAt }.advance occurredAt)

end AccountAggregate

end LedgerSync
