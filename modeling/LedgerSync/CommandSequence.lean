import LedgerSync.Accounts
import LedgerSync.Lib.Retry

/-!
# Commands in a serializable sequence

Every financial command of the services runs in a serializable transaction that is retried when
PostgreSQL reports a serialization failure or a deadlock. The callback gets the transaction and
answers with an error or with none; what it found out it writes to variables of the method around
it. `withTenantSerializableSequence` is that boundary. What the connection and its transactions
answer is given as a `SequenceEnv`, so that the database may hold anything in each attempt.
-/

namespace LedgerSync

open Lib

/-! ## Errors -/

/-- An error of the database driver. -/
inductive DriverError where
  /-- `sql.ErrNoRows`. -/
  | noRows
  /-- `pgconn.PgError`, with its severity. -/
  | postgres (severity : String) (e : PgError)
  /-- Any other error, such as that of a broken connection. -/
  | other (text : String)
deriving DecidableEq

/-- `Error()` of an error of the driver. -/
def DriverError.text : DriverError → String
  | noRows => "sql: no rows in result set"
  | postgres severity e => severity ++ ": " ++ e.message ++ " (SQLSTATE " ++ e.code ++ ")"
  | other text => text

/-- The errors that the services compare with. -/
inductive Sentinel where
  | account (e : AccountError)
  | accountNotFound
  | accountConflict
  | accountCommandUnavailable
  | idempotencyConflict
  | requestInProgress
  | invalidTenantScope
  | ledgerSemanticViolation
  | holdInvalid
  | holdForbidden
  | holdConflict
  | holdNotFound
  | holdUnavailable
  | holdLimit
  | transferAccountNotFound
  | transferNotAuthorized
  | transferAccountInactive
  | transferDestinationNotAuthorized
  | transferPolicyMissing
  | transferBelowMinimum
  | transferAboveMaximum
  | transferActorVelocity
  | transferSourceVelocity
  | transferTenantVelocity
  | transferUnsupportedCurrency
  | transferCurrencyMismatch
  | transferInvalidCommand
  | fundingInvalidCommand
  | fundingNotFound
  | fundingConflict
  | fundingForbidden
  | fundingLimitExceeded
  | correctionInvalidCommand
  | correctionNotFound
  | correctionConflict
  | correctionForbidden
  | correctionStepUpRequired
deriving DecidableEq

/-- The text of an error of the aggregate. -/
def AccountError.text : AccountError → String
  | invalidAccount => "invalid account"
  | invalidMetadata => "invalid account metadata"
  | unsupportedCurrency => "unsupported currency"
  | invalidTransition => "invalid account status transition"
  | terminalStatus => "closed account status is terminal"
  | nonZeroBalance => "account cannot close with a non-zero balance"
  | financialStateUnavailable => "account financial state is inconsistent or unavailable"
  | operationalObligations => "account has unresolved operational obligations"
  | versionConflict => "account version conflict"

/-- The text of an error that the services compare with. -/
def Sentinel.text : Sentinel → String
  | account e => e.text
  | accountNotFound => "account not found or not authorized"
  | accountConflict => "account conflicts with existing state"
  | accountCommandUnavailable => "account command dependency is temporarily unavailable"
  | idempotencyConflict => "idempotency key belongs to a different request"
  | requestInProgress => "matching request is still in progress"
  | invalidTenantScope => "valid tenant and actor scope required"
  | ledgerSemanticViolation => "ledger semantic invariant rejected"
  | holdInvalid => "invalid reservation command"
  | holdForbidden => "reservation authority denied"
  | holdConflict => "reservation intent or state conflicts"
  | holdNotFound => "reservation not found"
  | holdUnavailable => "reservation dependency unavailable"
  | holdLimit => "reservation capacity reached"
  | transferAccountNotFound => "transfer account not found"
  | transferNotAuthorized => "transfer source account is not authorized"
  | transferAccountInactive => "transfer account is not active"
  | transferDestinationNotAuthorized => "transfer destination account is not authorized"
  | transferPolicyMissing => "tenant transfer policy is missing"
  | transferBelowMinimum => "transfer amount is below tenant minimum"
  | transferAboveMaximum => "transfer amount exceeds tenant maximum"
  | transferActorVelocity => "actor rolling transfer limit exceeded"
  | transferSourceVelocity => "source account rolling transfer limit exceeded"
  | transferTenantVelocity => "tenant rolling transfer limit exceeded"
  | transferUnsupportedCurrency => "transfer currency is outside the configured pilot"
  | transferCurrencyMismatch => "currency mismatch"
  | transferInvalidCommand => "invalid transfer command"
  | fundingInvalidCommand => "invalid funding command"
  | fundingNotFound => "funding event not found"
  | fundingConflict => "funding command conflict"
  | fundingForbidden => "funding command forbidden"
  | fundingLimitExceeded => "funding limit exceeded"
  | correctionInvalidCommand => "invalid correction command"
  | correctionNotFound => "correction not found"
  | correctionConflict => "correction conflict"
  | correctionForbidden => "correction forbidden"
  | correctionStepUpRequired => "recent step-up authentication required"

/-- An `error` value: a chain of contexts that ends in one of the errors above. -/
inductive CommandError where
  | sentinel (s : Sentinel)
  | driver (e : DriverError)
  /-- `fmt.Errorf("context: %w", cause)`. -/
  | wrapped (context : String) (cause : CommandError)
  /-- `fmt.Errorf("%w: detail", s)`; a cause that is shown with `%v` is part of the detail. -/
  | detailed (s : Sentinel) (detail : String)
  /-- `fmt.Errorf("%w: %w", s, cause)`. -/
  | joined (s : Sentinel) (cause : CommandError)
  /-- `errors.New` in place. -/
  | plain (text : String)
deriving DecidableEq

namespace CommandError

/-- `Error()`. -/
def text : CommandError → String
  | sentinel s => s.text
  | driver e => e.text
  | wrapped context cause => context ++ ": " ++ cause.text
  | detailed s detail => s.text ++ ": " ++ detail
  | joined s cause => s.text ++ ": " ++ cause.text
  | plain text => text

/-- `errors.Is`. -/
def Is : CommandError → Sentinel → Prop
  | sentinel s, target => s = target
  | wrapped _ cause, target => cause.Is target
  | detailed s _, target => s = target
  | joined s cause, target => s = target ∨ cause.Is target
  | driver _, _ => False
  | plain _, _ => False

/-- Whether an error is a given one, itself or wrapped, can be decided. -/
instance decidableIs : (e : CommandError) → (target : Sentinel) → Decidable (e.Is target)
  | sentinel _, _ => inferInstanceAs (Decidable (_ = _))
  | wrapped _ cause, target => decidableIs cause target
  | detailed _ _, _ => inferInstanceAs (Decidable (_ = _))
  | joined _ cause, target =>
    have := decidableIs cause target
    inferInstanceAs (Decidable (_ ∨ _))
  | driver _, _ => isFalse id
  | plain _, _ => isFalse id

/-- `errors.As(err, &postgresError)`. -/
def postgres? : CommandError → Option PgError
  | driver (.postgres _ e) => some e
  | wrapped _ cause => cause.postgres?
  | joined _ cause => cause.postgres?
  | _ => none

end CommandError

/-- The text contains the part. -/
def ContainsText (s part : String) : Prop := part.toList <:+: s.toList

/-- Whether a text contains another can be decided. -/
instance (s part : String) : Decidable (ContainsText s part) :=
  inferInstanceAs (Decidable (_ <:+: _))

/-- `IsRetryableTransactionError`. -/
def isRetryableTransactionError (e : CommandError) : Bool :=
  let text := toLower e.text
  ContainsText text "sqlstate 40001" ∨ ContainsText text "sqlstate 40p01" ∨
    ContainsText text "could not serialize access" ∨ ContainsText text "deadlock detected"

/-- `IsLedgerSemanticViolation`. -/
def IsLedgerSemanticViolation (e : CommandError) : Prop :=
  e.Is .ledgerSemanticViolation ∨ ∃ pg, e.postgres? = some pg ∧ pg.code = "23514" ∧
    pg.constraint ∈ ["ledger_semantic_validation", "journal_source_present_check",
      "journal_source_matches_command_check"]

/-- Whether an error is a violation of the semantics can be decided. -/
instance (e : CommandError) : Decidable (IsLedgerSemanticViolation e) :=
  have : Decidable (∃ pg, e.postgres? = some pg ∧ pg.code = "23514" ∧
      pg.constraint ∈ ["ledger_semantic_validation", "journal_source_present_check",
        "journal_source_matches_command_check"]) :=
    match h : e.postgres? with
    | none => isFalse (by rintro ⟨_, hpg, _⟩; cases hpg)
    | some pg => decidable_of_iff (pg.code = "23514" ∧ pg.constraint ∈
        ["ledger_semantic_validation", "journal_source_present_check",
          "journal_source_matches_command_check"])
        ⟨fun hpg => ⟨pg, rfl, hpg⟩, by rintro ⟨_, hpg, hrest⟩; cases hpg; exact hrest⟩
  inferInstanceAs (Decidable (_ ∨ _))

/-! ## The sequence -/

/-- `TenantScope`. -/
structure TenantScope where
  tenantId : String
  actorId : String

/-- `TenantScope.canonical`. -/
def TenantScope.canonical (scope : TenantScope) : Option TenantScope :=
  (parseIdentifier scope.tenantId).bind fun tenant =>
    if scope.actorId = "" ∨ 256 < scope.actorId.utf8ByteSize ∨
        trimSpace scope.actorId ≠ scope.actorId ∨ HasControl scope.actorId then none
    else some ⟨tenant.text, scope.actorId⟩

/-- What a scoped transaction answers: to the installation of the scope, and to the callback. -/
structure Scoped (ω : Type) where
  setScope : Option DriverError
  answers : ω

/-- What the connection of a sequence and its transactions answer. -/
structure SequenceEnv (ω : Type) where
  /-- The error of reserving the connection. -/
  connection : Option DriverError
  /-- The error of clearing the scope of its last user. -/
  reset : Option DriverError
  /-- The error of taking the advisory lock. -/
  lock : Option DriverError
  /-- The attempts. -/
  attempt : ℕ → Attempt (Scoped ω) CommandError
  /-- The error of releasing the advisory lock. -/
  release : Option DriverError

/-- The environment in which a single attempt is made, and commits. -/
def SequenceEnv.alone {ω : Type} (w : Scoped ω) : SequenceEnv ω :=
  ⟨none, none, none, fun _ => .committing w, none⟩

section Sequence

variable {ω κ : Type}

/-- `setTenantTransactionContext`, and then the callback. -/
def scopedCallback (fn : ω → κ → Option CommandError × κ) (w : Scoped ω) (k : κ) :
    Option CommandError × κ :=
  match w.setScope with
  | some e => (some (.wrapped "set transaction tenant context" (.driver e)), k)
  | none => fn w.answers k

/-- `withSerializableRetry`, as far as it does not depend on the number of attempts. -/
def serializableRetry (fn : ω → κ → Option CommandError × κ) : Retried (Scoped ω) κ CommandError where
  callback := scopedCallback fn
  retryable := isRetryableTransactionError
  beginError := .wrapped "begin serializable transaction"
  lastError e := if IsLedgerSemanticViolation e then .sentinel .ledgerSemanticViolation else e

/-- The attempts that `withSerializableRetry` is given. -/
def SequenceEnv.attempts (env : SequenceEnv ω) (attempts : ℕ) :
    List (Attempt (Scoped ω) CommandError) := (List.range (max attempts 1)).map env.attempt

/-- `withSerializableSequence`, for a connection with a tenant. -/
def withSerializableSequence (env : SequenceEnv ω) (sequenceKey : String) (attempts : ℕ)
    (fn : ω → κ → Option CommandError × κ) (k : κ) : Option CommandError × κ :=
  if trimSpace sequenceKey = "" then (some (.plain "serializable sequence key is required"), k)
  else match env.connection with
  | some e => (some (.wrapped "reserve serializable sequence connection" (.driver e)), k)
  | none => match env.reset with
    | some e => (some (.wrapped "clear prior sequence tenant scope" (.driver e)), k)
    | none => match env.lock with
      | some e => (some (.wrapped "acquire serializable sequence" (.driver e)), k)
      | none =>
        let after := (serializableRetry fn).run (env.attempts attempts) k
        -- A lock that is not released replaces no error of the transaction.
        (after.1.or (env.release.map fun e =>
          .wrapped "release serializable sequence" (.driver e)), after.2)

/-- `WithTenantSerializableSequence`. -/
def withTenantSerializableSequence (env : SequenceEnv ω) (scope : TenantScope) (sequenceKey : String)
    (attempts : ℕ) (fn : ω → κ → Option CommandError × κ) (k : κ) : Option CommandError × κ :=
  match scope.canonical with
  | none => (some (.sentinel .invalidTenantScope), k)
  | some _ =>
    if attempts < 1 ∨ 8 < attempts ∨ trimSpace sequenceKey = "" then
      (some (.plain "bounded tenant sequence and database required"), k)
    else withSerializableSequence env sequenceKey attempts fn k

end Sequence

/-! ## Methods -/

/-- A method of a repository that runs its command in a sequence of five attempts. -/
structure Method (ω κ α : Type) where
  scope : TenantScope
  sequenceKey : String
  callback : ω → κ → Option CommandError × κ
  /-- The variables before the first attempt. -/
  initial : κ
  /-- What the method returns for the error of the sequence and the variables it leaves. -/
  finish : Option CommandError → κ → α × Option CommandError

namespace Method

variable {ω κ α : Type} (m : Method ω κ α)

/-- What the method returns. -/
def answer (env : SequenceEnv ω) : α × Option CommandError :=
  let after := withTenantSerializableSequence env m.scope m.sequenceKey 5 m.callback m.initial
  m.finish after.1 after.2

/-- The call commits with the attempt that answers `w`, after the attempts that answer `before`. -/
structure Commits (env : SequenceEnv ω) (before : List (Scoped ω)) (w : Scoped ω) : Prop where
  scope : m.scope.canonical.isSome = true
  key : trimSpace m.sequenceKey ≠ ""
  connection : env.connection = none
  reset : env.reset = none
  lock : env.lock = none
  committed : (serializableRetry m.callback).committed (env.attempts 5) m.initial = some (before, w)

/-- The call returns what it returns when the committed attempt is the only one. -/
def Faithful (env : SequenceEnv ω) (w : Scoped ω) : Prop := m.answer env = m.answer (.alone w)

variable {m}

/-- A sequence that is reached runs the attempts, and then releases its lock. -/
theorem answer_eq {env : SequenceEnv ω} (hscope : m.scope.canonical.isSome = true)
    (hkey : trimSpace m.sequenceKey ≠ "") (hconnection : env.connection = none)
    (hreset : env.reset = none) (hlock : env.lock = none) {a : Option CommandError × κ}
    (hrun : (serializableRetry m.callback).run (env.attempts 5) m.initial = a) :
    m.answer env = m.finish (a.1.or (env.release.map fun e =>
      .wrapped "release serializable sequence" (.driver e))) a.2 := by
  obtain ⟨scope, hcanonical⟩ := Option.isSome_iff_exists.mp hscope
  unfold answer withTenantSerializableSequence withSerializableSequence
  simp only [hcanonical, hconnection, hreset, hlock, hrun, hkey, or_false, if_false]
  rw [if_neg (by decide)]

/-- A call that commits returns what the committed attempt left, from what the attempts before it
left. -/
theorem Commits.answer_eq {env : SequenceEnv ω} {before : List (Scoped ω)} {w : Scoped ω}
    (h : m.Commits env before w) :
    m.answer env = m.finish (env.release.map fun e =>
      .wrapped "release serializable sequence" (.driver e))
      (scopedCallback m.callback w ((serializableRetry m.callback).captured before m.initial)).2 := by
  obtain ⟨-, hrun⟩ := Retried.run_committed h.committed
  exact Method.answer_eq h.scope h.key h.connection h.reset h.lock hrun

/-- The call with the committed attempt alone returns what that attempt left. -/
theorem Commits.answer_alone {env : SequenceEnv ω} {before : List (Scoped ω)} {w : Scoped ω}
    (h : m.Commits env before w)
    (herror : ∀ (w : ω) (k k' : κ), (m.callback w k).1 = (m.callback w k').1) :
    m.answer (.alone w) = m.finish none (scopedCallback m.callback w m.initial).2 := by
  obtain ⟨hnone, -⟩ := Retried.run_committed h.committed
  -- The error of an attempt does not depend on the variables, so the attempt also commits alone.
  have hfirst : (scopedCallback m.callback w m.initial).1 = none := by
    rw [← hnone]
    show (scopedCallback m.callback w m.initial).1 = (scopedCallback m.callback w _).1
    unfold scopedCallback
    rcases w.setScope with _ | e
    · exact herror _ _ _
    · rfl
  refine Method.answer_eq h.scope h.key rfl rfl rfl
    (a := (none, (scopedCallback m.callback w m.initial).2)) ?_
  show (serializableRetry m.callback).run (.committing w :: _) m.initial = _
  rw [Retried.run]
  simp only [Attempt.committing, serializableRetry, hfirst, Option.or_none]

end Method

end LedgerSync
