import LedgerSync.AccountCommands
import LedgerSync.Holds

/-!
# The outcome that committed

A method that retries its transaction has to answer with what the committed attempt found, whatever
the attempts before it found. The repositories of transfers, funding and corrections write all of
their answer in every attempt that can commit. An account command keeps its submission and its
denial in two variables, of which an attempt that succeeds or is denied writes one; a hold command
decodes each response into the same receipt, in which a field that the response lacks stays as it
was. For these the answer is that of the committed attempt exactly when no field that it leaves
alone was written before it.
-/

namespace LedgerSync

open Lib

/-! ## Account commands -/

section Accounts

/-- What an attempt writes to the submission. -/
def AccountOutcome.submission? : AccountOutcome → Option CommandSubmission
  | failed _ => none
  | replayed result _ => some ⟨result, true⟩
  | denied _ _ => none
  | succeeded result => some ⟨result, false⟩

/-- What an attempt writes to the denial. -/
def AccountOutcome.denial? : AccountOutcome → Option (Option CommandError)
  | failed _ => none
  | replayed _ denial => some denial
  | denied _ denial => some (some denial)
  | succeeded _ => none

/-- The state and body that an attempt that commits leaves under the key of its command. -/
def AccountOutcome.stored? (w : AccountAnswers) : AccountOutcome → Option (RequestState × Json)
  | failed _ => none
  | replayed _ _ =>
    match w.loaded with
    | .error _ => none
    | .ok row => row.responseBody.map (row.state, ·)
  | denied code _ => some (.failed, failureJson code)
  | succeeded result => some (.completed, result.json)

/-- An outcome that agrees with what is stored. -/
def AccountOutcome.Sound (w : AccountAnswers) : AccountOutcome → Prop
  | failed _ => True
  | replayed result denial => ∃ row body, w.loaded = .ok row ∧ row.responseBody = some body ∧
      row.state ≠ .inProgress ∧ AccountAnswers.storedOutcome row.state body = .ok (result, denial)
  | denied code denial => accountDenialError code = some denial
  | succeeded _ => True

/-- What an attempt writes, in a transaction with a scope. -/
def scopedWrite {ω α : Type} (write : ω → Option α) (w : Scoped ω) : Option α :=
  match w.setScope with
  | some _ => none
  | none => write w.answers

variable {command : AccountCommand} {fingerprint : Bytes} {now : Time} {w : AccountAnswers}

/-- A denial that is stored is answered. -/
theorem persistAccountDenial_sound (w : AccountAnswers) (e : CommandError) :
    (persistAccountDenial w e).Sound w := by
  unfold persistAccountDenial
  rcases accountDenialCode e with _ | code
  · trivial
  · dsimp only
    rcases hdenial : accountDenialError code with _ | denial
    · trivial
    · rcases w.insertAccountAudit with e | -
      · trivial
      · rcases w.storeRequest "store account idempotency failure" with e | -
        · trivial
        · exact hdenial

/-- An outcome that is stored is answered. -/
theorem storeAccountOutcome_sound (w : AccountAnswers) (result : CommandResult) :
    (storeAccountOutcome w result).Sound w := by
  unfold storeAccountOutcome
  rcases w.storeRequest "store account idempotency outcome" with e | - <;> trivial

/-- A stored outcome is the denial of its code or the result of its body. -/
theorem storedOutcome_ok {state : RequestState} {body : Json} {r : CommandResult}
    {denial : Option CommandError} (h : AccountAnswers.storedOutcome state body = .ok (r, denial)) :
    (state = .failed ∧ ∃ code e, failureCode? body = some code ∧ accountDenialError code = some e ∧
      denial = some e) ∨
    (state ≠ .failed ∧ CommandResult.ofJson? body = some r ∧ denial = none) := by
  unfold AccountAnswers.storedOutcome at h
  split at h
  · rename_i hstate
    rcases hcode : failureCode? body with _ | code
    · simp only [hcode, reduceCtorEq] at h
    · simp only [hcode] at h
      rcases hdenial : accountDenialError code with _ | e
      · simp only [hdenial, reduceCtorEq] at h
      · simp only [hdenial, Except.ok.injEq, Prod.mk.injEq] at h
        exact .inl ⟨hstate, code, e, rfl, hdenial, h.2.symm⟩
  · rename_i hstate
    rcases hresult : CommandResult.ofJson? body with _ | r'
    · simp only [hresult, reduceCtorEq] at h
    · simp only [hresult, Except.ok.injEq, Prod.mk.injEq] at h
      exact .inr ⟨hstate, by rw [h.1], h.2.symm⟩

/-- A replay gives the stored outcome back. -/
theorem reserveAccountCommand_replay {r : CommandResult} {denial : Option CommandError}
    (h : w.reserveAccountCommand fingerprint = .ok (some (r, denial))) :
    (AccountOutcome.replayed r denial).Sound w := by
  unfold AccountAnswers.reserveAccountCommand at h
  -- Only a key that is taken already, with a row that can be loaded, is replayed.
  rcases hreserved : w.reserved with (_ | _ | _) | ⟨⟩
  · rcases hloaded : w.loaded with e | row
    · simp only [hreserved, hloaded, reduceCtorEq] at h
    · simp only [hreserved, hloaded] at h
      -- The row passed the checks on its fingerprint and its state.
      split_ifs at h with hlength hfingerprint hstate
      rcases hbody : row.responseBody with _ | body
      · simp only [hbody, reduceCtorEq] at h
      · simp only [hbody] at h
        rcases hout : AccountAnswers.storedOutcome row.state body with e | out
        · rw [hout] at h
          cases h
        · rw [hout] at h
          cases h
          exact ⟨row, body, hloaded, hbody, hstate, hout⟩
  · simp only [hreserved, reduceCtorEq] at h
  · simp only [hreserved, reduceCtorEq] at h
  · simp only [hreserved, Except.ok.injEq, reduceCtorEq] at h

/-- An attempt is sound behind a reservation when it is sound. -/
theorem reserveThen_sound {o : AccountOutcome} (h : o.Sound w) :
    (reserveThen w fingerprint o).Sound w := by
  unfold reserveThen
  rcases w.authorizeTenantActor with e | -
  · trivial
  · rcases hreserve : w.reserveAccountCommand fingerprint with e | _ | ⟨r, denial⟩
    · trivial
    · exact h
    · exact reserveAccountCommand_replay hreserve

/-- The attempt to create an account is sound. -/
theorem createAttempt_sound (c : CreateAccountCommand) : (createAttempt c fingerprint w).Sound w := by
  refine reserveThen_sound ?_
  rcases w.accountId with e | id
  · trivial
  · dsimp only
    rcases AccountAggregate.newConfigured id c.tenantId c.currency c.metadata
        ⟨c.actorSubjectId, .debit⟩ c.occurredAt with e | aggregate
    · trivial
    · rcases w.insertAccountAggregate with e | -
      · exact persistAccountDenial_sound w e
      · rcases w.insertAccountAudit with e | -
        · trivial
        · rcases w.insertAccountOutbox with e | -
          · trivial
          · exact storeAccountOutcome_sound w _

/-- The attempt to update the metadata is sound. -/
theorem updateMetadataAttempt_sound (c : UpdateAccountMetadataCommand) :
    (updateMetadataAttempt c fingerprint w).Sound w := by
  refine reserveThen_sound ?_
  rcases w.lockOwnedAccount c.actorSubjectId with e | ⟨aggregate, available, ledger⟩
  · exact persistAccountDenial_sound w e
  · dsimp only
    rcases aggregate.updateMetadata c.metadata c.expectedVersion c.occurredAt with e | a
    · dsimp only
      exact persistAccountDenial_sound w _
    · dsimp only
      rcases w.updateAccountRow with e | -
      · exact persistAccountDenial_sound w e
      · exact storeAccountOutcome_sound w _

/-- The attempt to change the status is sound. -/
theorem changeStatusAttempt_sound (c : ChangeAccountStatusCommand) :
    (changeStatusAttempt c fingerprint w).Sound w := by
  refine reserveThen_sound ?_
  rcases w.lockOwnedAccount c.actorSubjectId with e | ⟨aggregate, available, ledger⟩
  · exact persistAccountDenial_sound w e
  · dsimp only
    rcases changedAggregate c w aggregate available ledger with e | a
    · dsimp only
      exact persistAccountDenial_sound w _
    · dsimp only
      rcases w.updateAccountRow with e | -
      · exact persistAccountDenial_sound w e
      · exact storeAccountOutcome_sound w _

/-- Every attempt of an account command agrees with what it stores. -/
theorem AccountCommand.attempt_sound (command : AccountCommand) (fingerprint : Bytes) (now : Time)
    (w : AccountAnswers) : (command.attempt fingerprint now w).Sound w := by
  cases command with
  | create c => exact createAttempt_sound _
  | updateMetadata c => exact updateMetadataAttempt_sound _
  | changeStatus c => exact changeStatusAttempt_sound _

variable {auditError : Option CommandError} {env : SequenceEnv AccountAnswers}
  {before : List (Scoped AccountAnswers)} {w : Scoped AccountAnswers}

/-- What an attempt of an account command writes to the submission. -/
def AccountCommand.writesSubmission (command : AccountCommand) (fingerprint : Bytes) (now : Time) :
    Scoped AccountAnswers → Option CommandSubmission :=
  scopedWrite fun w => (command.attempt fingerprint now w).submission?

/-- What an attempt of an account command writes to the denial. -/
def AccountCommand.writesDenial (command : AccountCommand) (fingerprint : Bytes) (now : Time) :
    Scoped AccountAnswers → Option (Option CommandError) :=
  scopedWrite fun w => (command.attempt fingerprint now w).denial?

/-- The answer is the outcome that is stored. -/
def StoredAnswer (state : RequestState) (body : Json)
    (answer : CommandSubmission × Option CommandError) : Prop :=
  (state = .completed → ∃ result, CommandResult.ofJson? body = some result ∧
    answer.1.result = result ∧ answer.2 = none) ∧
  (state = .failed → ∃ code denial, failureCode? body = some code ∧
    accountDenialError code = some denial ∧ answer.2 = some denial)

/-- The call returns what it returns when the committed attempt is the only one, and that is the
outcome stored under the key of the command. -/
def AccountCommand.Answered (command : AccountCommand) (fingerprint : Bytes) (now : Time)
    (auditError : Option CommandError) (env : SequenceEnv AccountAnswers)
    (w : Scoped AccountAnswers) : Prop :=
  (accountMethod command fingerprint now auditError).Faithful env w ∧
    ∀ state body, (command.attempt fingerprint now w.answers).stored? w.answers = some (state, body) →
      StoredAnswer state body ((accountMethod command fingerprint now auditError).answer env)

/-- The submission after an attempt is the one that it writes, or the one before it. -/
theorem account_submission (w : Scoped AccountAnswers) (k : AccountVariables) :
    (scopedCallback (accountMethod command fingerprint now auditError).callback w k).2.submission =
      (command.writesSubmission fingerprint now w).getD k.submission := by
  unfold scopedCallback AccountCommand.writesSubmission scopedWrite
  rcases w.setScope with _ | e
  · simp only [accountMethod]
    cases command.attempt fingerprint now w.answers <;> rfl
  · rfl

/-- The denial after an attempt is the one that it writes, or the one before it. -/
theorem account_denial (w : Scoped AccountAnswers) (k : AccountVariables) :
    (scopedCallback (accountMethod command fingerprint now auditError).callback w
        k).2.committedDenial =
      (command.writesDenial fingerprint now w).getD k.committedDenial := by
  unfold scopedCallback AccountCommand.writesDenial scopedWrite
  rcases w.setScope with _ | e
  · simp only [accountMethod]
    cases command.attempt fingerprint now w.answers <;> rfl
  · rfl

/-- Whether an attempt fails does not depend on the variables. -/
theorem account_error (w : AccountAnswers) (k k' : AccountVariables) :
    ((accountMethod command fingerprint now auditError).callback w k).1 =
      ((accountMethod command fingerprint now auditError).callback w k').1 := by
  simp only [accountMethod]
  cases command.attempt fingerprint now w <;> rfl

/-- An attempt that commits installed its scope and did not fail. -/
theorem account_committed
    (h : (accountMethod command fingerprint now auditError).Commits env before w) :
    w.setScope = none ∧ ∀ e, command.attempt fingerprint now w.answers ≠ .failed e := by
  obtain ⟨hnone, -⟩ := Retried.run_committed h.committed
  simp only [serializableRetry, scopedCallback] at hnone
  rcases hscope : w.setScope with _ | e
  · refine ⟨rfl, fun e he => ?_⟩
    simp only [hscope, accountMethod, he, AccountOutcome.write, reduceCtorEq] at hnone
  · simp only [hscope, reduceCtorEq] at hnone

/-- The denial that an attempt writes is one of the compared errors. -/
theorem account_denial_sentinel {denial : CommandError}
    (h : command.writesDenial fingerprint now w = some (some denial)) :
    ∃ code, accountDenialError code = some denial := by
  unfold AccountCommand.writesDenial scopedWrite at h
  rcases hscope : w.setScope with _ | e
  · simp only [hscope] at h
    have hsound := command.attempt_sound fingerprint now w.answers
    -- Either the denial is read from the stored row or the command just found it.
    rcases hattempt : command.attempt fingerprint now w.answers with e | ⟨r, d⟩ | ⟨code, d⟩ | r
    · simp only [hattempt, AccountOutcome.denial?, reduceCtorEq] at h
    · simp only [hattempt, AccountOutcome.denial?, Option.some.injEq] at h
      rw [hattempt] at hsound
      obtain ⟨row, body, -, -, -, hout⟩ := hsound
      rcases storedOutcome_ok hout with ⟨-, code, d', -, hdenial, rfl⟩ | ⟨-, -, rfl⟩
      · cases h
        exact ⟨code, hdenial⟩
      · cases h
    · simp only [hattempt, AccountOutcome.denial?, Option.some.injEq] at h
      rw [hattempt] at hsound
      exact ⟨code, h ▸ hsound⟩
    · simp only [hattempt, AccountOutcome.denial?, reduceCtorEq] at h
  · simp only [hscope, reduceCtorEq] at h

/-- A denial is none of the errors of a dependency. -/
theorem accountDenialError_ne {code detail : String} {denial : CommandError}
    (h : accountDenialError code = some denial) :
    denial ≠ .detailed .accountCommandUnavailable detail := by
  unfold accountDenialError at h
  rintro rfl
  split_ifs at h <;> cases h

/-- Alone, an attempt that commits returns the outcome that it stores. -/
theorem storedAnswer_alone
    (h : (accountMethod command fingerprint now auditError).Commits env before w)
    {state : RequestState} {body : Json}
    (hstored : (command.attempt fingerprint now w.answers).stored? w.answers = some (state, body)) :
    StoredAnswer state body
      ((accountMethod command fingerprint now auditError).answer (.alone w)) := by
  obtain ⟨hscope, -⟩ := account_committed h
  have hsound := command.attempt_sound fingerprint now w.answers
  rw [h.answer_alone account_error]
  simp only [scopedCallback, hscope]
  -- A stored answer exists for a replay, a denial and a fresh result only.
  rcases hattempt : command.attempt fingerprint now w.answers with e | ⟨r, d⟩ | ⟨code, d⟩ | r
  · rw [hattempt] at hstored
    cases hstored
  · rw [hattempt] at hsound hstored
    obtain ⟨row, body', hloaded, hbody, -, hout⟩ := hsound
    simp only [AccountOutcome.stored?, hloaded, hbody, Option.map_some, Option.some.injEq,
      Prod.mk.injEq] at hstored
    obtain ⟨rfl, rfl⟩ := hstored
    simp only [accountMethod, hattempt, AccountOutcome.write]
    -- The two states of a stored row give a denial and a result.
    rcases storedOutcome_ok hout with ⟨hfailed, code, e, hcode, hdenial, rfl⟩ | ⟨hne, hresult, rfl⟩
    · refine ⟨fun hc => ?_, fun _ => ⟨code, e, hcode, hdenial, rfl⟩⟩
      rw [hfailed] at hc
      cases hc
    · exact ⟨fun _ => ⟨r, hresult, rfl, rfl⟩, fun hf => absurd hf hne⟩
  · rw [hattempt] at hsound hstored
    cases hstored
    simp only [accountMethod, hattempt, AccountOutcome.write]
    exact ⟨fun hc => (by cases hc), fun _ => ⟨code, d, rfl, hsound, rfl⟩⟩
  · rw [hattempt] at hstored
    cases hstored
    simp only [accountMethod, hattempt, AccountOutcome.write]
    exact ⟨fun _ => ⟨r, r.ofJson?_json, rfl, rfl⟩, fun hf => (by cases hf)⟩

/-- An account command answers with the committed outcome exactly when its lock is released and
neither variable shows an attempt that was rolled back. -/
theorem account_answered_iff
    (h : (accountMethod command fingerprint now auditError).Commits env before w) :
    command.Answered fingerprint now auditError env w ↔ env.release = none ∧
      Shows (command.writesSubmission fingerprint now) before w .zero ∧
      Shows (command.writesDenial fingerprint now) before w none := by
  -- That the answer shows the stored one follows from its being the answer of a single attempt.
  have hfaithful : command.Answered fingerprint now auditError env w ↔
      (accountMethod command fingerprint now auditError).Faithful env w := by
    refine ⟨fun hanswered => hanswered.1, fun hf => ⟨hf, fun state body hstored => ?_⟩⟩
    rw [show _ = _ from hf]
    exact storedAnswer_alone h hstored
  rw [hfaithful, Method.Faithful, h.answer_eq, h.answer_alone account_error]
  rcases hrelease : env.release with _ | e
  · -- The answer is the pair of the variables.
    have hsubmission := callback_captured_iff
      (r := serializableRetry (accountMethod command fingerprint now auditError).callback)
      AccountVariables.submission _ account_submission before w ⟨.zero, none⟩
    have hdenial := callback_captured_iff
      (r := serializableRetry (accountMethod command fingerprint now auditError).callback)
      AccountVariables.committedDenial _ account_denial before w ⟨.zero, none⟩
    rw [← hsubmission, ← hdenial, eq_self_iff_true, true_and]
    exact Prod.mk_inj
  · -- The error of the release is reported as that of a dependency.
    simp only [reduceCtorEq, false_and, iff_false]
    intro heq
    -- No denial of the commands is this error.
    have herror : some (CommandError.detailed .accountCommandUnavailable _) =
        (scopedCallback (accountMethod command fingerprint now auditError).callback w
          ⟨.zero, none⟩).2.committedDenial := congrArg Prod.snd heq
    rw [account_denial] at herror
    rcases hwrites : command.writesDenial fingerprint now w with _ | _ | denial
    · rw [hwrites] at herror
      cases herror
    · rw [hwrites] at herror
      cases herror
    · rw [hwrites] at herror
      obtain ⟨code, hcode⟩ := account_denial_sentinel hwrites
      exact accountDenialError_ne hcode (Option.some.inj herror).symm

end Accounts

/-! ## Hold commands -/

section Holds

/-- `Receipt`. -/
structure Receipt where
  id : String
  state : String
  replayed : Bool
  sourceBalanceVersion : String
  expiresAt : Option Time
  transferId : String
  rejectionCode : String
deriving DecidableEq

/-- The receipt before the first attempt. -/
def Receipt.zero : Receipt := ⟨"", "", false, "", none, "", ""⟩

/-- The text that `json.Unmarshal` writes to a text field. -/
def writesText (doc : Json) (key : String) : Option String :=
  match doc.get? key with
  | some (.str s) => some s
  | _ => none

/-- The truth value that `json.Unmarshal` writes to a field. -/
def writesBool (doc : Json) (key : String) : Option Bool :=
  match doc.get? key with
  | some (.bool b) => some b
  | _ => none

/-- What `json.Unmarshal` writes to a pointer to a time; a null clears the pointer. -/
def writesTime (doc : Json) (key : String) : Option (Option Time) :=
  match doc.get? key with
  | some .null => some none
  | some (.str s) => (parseRfc3339 s).map some
  | _ => none

/-- The field has a value of another type than `json.Unmarshal` expects, which `reads` tells. -/
def badField (doc : Json) (key : String) (reads : Json → Bool) : Bool :=
  match doc.get? key with
  | none | some .null => false
  | some value => !reads value

/-- The values that a text can be read from. -/
def Json.isText : Json → Bool
  | str _ => true
  | _ => false

/-- The values that a truth value can be read from. -/
def Json.isBool : Json → Bool
  | bool _ => true
  | _ => false

/-- The values that a time can be read from. -/
def Json.isTime : Json → Bool
  | str s => (parseRfc3339 s).isSome
  | _ => false

/-- A field of a response cannot be read into the receipt. -/
def Receipt.badResponse (doc : Json) : Bool :=
  badField doc "id" Json.isText || badField doc "state" Json.isText ||
    badField doc "replayed" Json.isBool || badField doc "source_balance_version" Json.isText ||
    badField doc "expires_at" Json.isTime || badField doc "transfer_id" Json.isText ||
    badField doc "rejection_code" Json.isText

/-- `json.Unmarshal` into a receipt: a field that the response lacks stays as it was. -/
def Receipt.unmarshal (doc : Json) (r : Receipt) : Option CommandError × Receipt :=
  let read : Receipt := {
    id := (writesText doc "id").getD r.id
    state := (writesText doc "state").getD r.state
    replayed := (writesBool doc "replayed").getD r.replayed
    sourceBalanceVersion := (writesText doc "source_balance_version").getD r.sourceBalanceVersion
    expiresAt := (writesTime doc "expires_at").getD r.expiresAt
    transferId := (writesText doc "transfer_id").getD r.transferId
    rejectionCode := (writesText doc "rejection_code").getD r.rejectionCode }
  match doc with
  | .null => (none, r)
  | .obj _ => (if Receipt.badResponse doc then some (.plain "json: cannot unmarshal") else none, read)
  | _ => (some (.plain "json: cannot unmarshal"), r)

/-- `reservationError`. -/
def reservationError (e : CommandError) : CommandError :=
  let unavailable := CommandError.joined .holdUnavailable e
  if e = .driver .noRows then .sentinel .holdNotFound
  else match e.postgres? with
    | none => unavailable
    | some pg =>
      if pg.code = "42501" then .sentinel .holdForbidden
      else if pg.code = "P0002" then .sentinel .holdNotFound
      else if pg.code ∈ ["23505", "55000", "40001", "40P01"] then .sentinel .holdConflict
      else if pg.code = "54000" then .sentinel .holdLimit
      else if "22".toList <+: pg.code.toList then .sentinel .holdInvalid
      else unavailable

/-- The callback of `ReservationRepository.command`; the transaction answers with the response. -/
def holdCallback (w : Except DriverError Json) (r : Receipt) : Option CommandError × Receipt :=
  match w with
  | .error e => (some (.driver e), r)
  | .ok raw => Receipt.unmarshal raw r

/-- `ReservationRepository.command`. -/
def holdMethod (scope : TenantScope) : Method (Except DriverError Json) Receipt Receipt where
  scope := scope
  sequenceKey := "transfer-policy|" ++ scope.tenantId
  callback := holdCallback
  initial := .zero
  finish error r := (r, error.map reservationError)

/-- What an attempt of a hold command writes to a field of the receipt. -/
def holdWrites {α : Type} (write : Json → Option α) :
    Scoped (Except DriverError Json) → Option α :=
  scopedWrite fun w => match w with
    | .error _ => none
    | .ok raw => write raw

/-- No field of the receipt shows an attempt before the committed one. -/
structure Receipt.Shown (before : List (Scoped (Except DriverError Json)))
    (w : Scoped (Except DriverError Json)) : Prop where
  id : Shows (holdWrites (writesText · "id")) before w ""
  state : Shows (holdWrites (writesText · "state")) before w ""
  replayed : Shows (holdWrites (writesBool · "replayed")) before w false
  sourceBalanceVersion : Shows (holdWrites (writesText · "source_balance_version")) before w ""
  expiresAt : Shows (holdWrites (writesTime · "expires_at")) before w none
  transferId : Shows (holdWrites (writesText · "transfer_id")) before w ""
  rejectionCode : Shows (holdWrites (writesText · "rejection_code")) before w ""

variable {scope : TenantScope} {env : SequenceEnv (Except DriverError Json)}
  {before : List (Scoped (Except DriverError Json))} {w : Scoped (Except DriverError Json)}

/-- A field of the receipt after an attempt. -/
theorem hold_field {α : Type} (get : Receipt → α) (write : Json → Option α)
    (hother : ∀ doc, (∀ fields, doc ≠ .obj fields) → write doc = none)
    (hread : ∀ fields r, get (Receipt.unmarshal (.obj fields) r).2 =
      (write (.obj fields)).getD (get r))
    (w : Scoped (Except DriverError Json)) (r : Receipt) :
    get (scopedCallback holdCallback w r).2 = (holdWrites write w).getD (get r) := by
  unfold scopedCallback holdWrites scopedWrite
  rcases w.setScope with _ | e
  · rcases w.answers with e | raw
    · rfl
    · simp only [holdCallback]
      cases raw with
      | obj fields => exact hread fields r
      | _ =>
        rw [hother]
        · rfl
        · rintro fields ⟨⟩
  · rfl

/-- Whether a response can be read does not depend on the receipt. -/
theorem hold_error (w : Except DriverError Json) (k k' : Receipt) :
    ((holdMethod scope).callback w k).1 = ((holdMethod scope).callback w k').1 := by
  simp only [holdMethod, holdCallback]
  rcases w with e | raw
  · rfl
  · cases raw <;> rfl

/-- Receipts are known by their fields. -/
theorem Receipt.eq_iff {a b : Receipt} : a = b ↔ a.id = b.id ∧ a.state = b.state ∧
    a.replayed = b.replayed ∧ a.sourceBalanceVersion = b.sourceBalanceVersion ∧
    a.expiresAt = b.expiresAt ∧ a.transferId = b.transferId ∧ a.rejectionCode = b.rejectionCode := by
  rcases a with ⟨_, _, _, _, _, _, _⟩
  rcases b with ⟨_, _, _, _, _, _, _⟩
  exact Receipt.mk.injEq .. ▸ Iff.rfl

/-- The receipt that an attempt leaves is its own exactly when no field shows an earlier one. -/
theorem hold_receipt_iff : (scopedCallback holdCallback w
      ((serializableRetry holdCallback).captured before .zero)).2 =
    (scopedCallback holdCallback w .zero).2 ↔ Receipt.Shown before w := by
  -- Each field of the receipt is written by its own key, so that one lemma serves all seven.
  have hfield : ∀ {α : Type} (get : Receipt → α) (write : Json → Option α),
      (∀ doc, (∀ fields, doc ≠ .obj fields) → write doc = none) →
      (∀ fields r, get (Receipt.unmarshal (.obj fields) r).2 = (write (.obj fields)).getD (get r)) →
      (get (scopedCallback holdCallback w
          ((serializableRetry holdCallback).captured before .zero)).2 =
        get (scopedCallback holdCallback w .zero).2 ↔
          Shows (holdWrites write) before w (get .zero)) := fun get write hother hread =>
    callback_captured_iff (r := serializableRetry holdCallback) get (holdWrites write)
      (hold_field get write hother hread) before w .zero
  have hnone : ∀ (key : String) (doc : Json), (∀ fields, doc ≠ .obj fields) →
      doc.get? key = none := by
    intro key doc hdoc
    cases doc with
    | obj fields => exact absurd rfl (hdoc fields)
    | _ => rfl
  have htext : ∀ (key : String) (doc : Json), (∀ fields, doc ≠ .obj fields) →
      writesText doc key = none := fun key doc hdoc => by rw [writesText, hnone key doc hdoc]
  rw [Receipt.eq_iff, hfield Receipt.id (writesText · "id") (htext _) fun _ _ => rfl,
    hfield Receipt.state (writesText · "state") (htext _) fun _ _ => rfl,
    hfield Receipt.replayed (writesBool · "replayed")
      (fun doc hdoc => by rw [writesBool, hnone _ doc hdoc]) fun _ _ => rfl,
    hfield Receipt.sourceBalanceVersion (writesText · "source_balance_version") (htext _)
      fun _ _ => rfl,
    hfield Receipt.expiresAt (writesTime · "expires_at")
      (fun doc hdoc => by rw [writesTime, hnone _ doc hdoc]) fun _ _ => rfl,
    hfield Receipt.transferId (writesText · "transfer_id") (htext _) fun _ _ => rfl,
    hfield Receipt.rejectionCode (writesText · "rejection_code") (htext _) fun _ _ => rfl]
  exact ⟨fun ⟨h1, h2, h3, h4, h5, h6, h7⟩ => ⟨h1, h2, h3, h4, h5, h6, h7⟩,
    fun h => ⟨h.id, h.state, h.replayed, h.sourceBalanceVersion, h.expiresAt, h.transferId,
      h.rejectionCode⟩⟩

/-- A hold command answers with the committed response exactly when its lock is released and no
field of its receipt shows an attempt that was rolled back. -/
theorem hold_faithful_iff (h : (holdMethod scope).Commits env before w) :
    (holdMethod scope).Faithful env w ↔ env.release = none ∧ Receipt.Shown before w := by
  rw [Method.Faithful, h.answer_eq, h.answer_alone hold_error, ← hold_receipt_iff]
  rcases env.release with _ | e
  · simp only [holdMethod, Option.map_none, Prod.mk.injEq, and_true, true_and]
  · simp only [holdMethod, Option.map_some, Option.map_none, Prod.mk.injEq, reduceCtorEq, and_false,
      false_and]

/-- The stored response of a command, with the mark of a replay or without it. -/
def HoldCommand.Answers (c : HoldCommand) (raw : Json) : Prop :=
  raw = c.response ∨ raw = c.response.merge (.obj [("replayed", .bool true)])

/-- The response of a creation is the one stored under its key. -/
theorem createHold_response {d : Digest} {sess : Session} {p : HoldRequest} {clock : HoldClock}
    {id : Uuid} {ids : ChangeIds} {s s' : Db} {raw : Json}
    (h : controlledCreateHoldV1 d sess p clock id ids s = .ok (raw, s')) :
    ∃ c, s'.holdCommands.find? (p.tenant, p.actor, "create", p.key) = some c ∧ c.Answers raw := by
  simp only [controlledCreateHoldV1, Txn.raiseIf_bind_ok] at h
  obtain ⟨-, h⟩ := h
  obtain ⟨previous, _, hexisting, h⟩ := Txn.bind_ok.mp h
  obtain ⟨rfl, -, -, -, -, hprevious⟩ := holdCommandExistingV1_ok hexisting
  -- A first call stores the response it returns.
  rcases previous with _ | response
  · simp only [storeHold] at h
    obtain ⟨_, _, -, h⟩ := Txn.bind_ok.mp h
    simp only [Txn.orRaise_bind_ok, insertRow_bind_ok] at h
    obtain ⟨expires, -, hold, -, holds, -, h⟩ := h
    obtain ⟨_, s₁, -, h⟩ := Txn.bind_ok.mp h
    rw [insertRow_bind_ok] at h
    obtain ⟨holdJobs, -, h⟩ := h
    obtain ⟨version, s₂, -, h⟩ := Txn.bind_ok.mp h
    simp only [holdCommandStoreV1, insertRow_bind_ok, Txn.pure_ok] at h
    obtain ⟨commands, hinsert, rfl, rfl⟩ := h
    exact ⟨_, Table.find?_insert?_self hinsert rfl, .inl rfl⟩
  -- A replayed call returns what is stored, marked as replayed.
  · obtain ⟨rfl, rfl⟩ := Txn.pure_ok.mp h
    obtain ⟨c, hc, rfl⟩ := Option.map_eq_some_iff.mp hprevious.symm
    exact ⟨c, hc, .inr rfl⟩

/-- The response of a decision is the one stored under its key. -/
theorem decideHold_response {d : Digest} {sess : Session} {p : HoldDecisionRequest}
    {clock : DecisionClock} {ids : DecisionIds} {s s' : Db} {raw : Json}
    (h : controlledDecideHoldV1 d sess p clock ids s = .ok (raw, s')) :
    ∃ c, s'.holdCommands.find? (p.tenant, p.actor, p.decision.text, p.key) = some c ∧
      c.Answers raw := by
  simp only [controlledDecideHoldV1] at h
  obtain ⟨previous, _, hexisting, h⟩ := Txn.bind_ok.mp h
  obtain ⟨rfl, -, -, -, -, hprevious⟩ := holdCommandExistingV1_ok hexisting
  rcases previous with _ | response
  · simp only [decideHold, Txn.get_bind_ok, Txn.orRaise_bind_ok, Txn.raiseIf_bind_ok] at h
    obtain ⟨hold, -, -, -, h⟩ := h
    obtain ⟨result, s₁, -, h⟩ := Txn.bind_ok.mp h
    obtain ⟨_, s₂, -, h⟩ := Txn.bind_ok.mp h
    simp only [holdCommandStoreV1, insertRow_bind_ok, Txn.pure_ok] at h
    obtain ⟨commands, hinsert, rfl, rfl⟩ := h
    exact ⟨_, Table.find?_insert?_self hinsert rfl, .inl rfl⟩
  · obtain ⟨rfl, rfl⟩ := Txn.pure_ok.mp h
    obtain ⟨c, hc, rfl⟩ := Option.map_eq_some_iff.mp hprevious.symm
    exact ⟨c, hc, .inr rfl⟩

end Holds

/-! ## Transfers, funding and corrections -/

/-- A submission: what was read, and whether it is a replay. -/
structure Submission (α : Type) where
  value : α
  replayed : Bool

/-- A method whose callback writes all its variables whenever it does not fail answers with the
committed outcome whenever its lock is released. -/
theorem faithful_iff_released {ω κ α : Type} {m : Method ω κ α}
    (hwrites : ∀ w k k', (m.callback w k).1 = (m.callback w k').1 ∧
      ((m.callback w k).1 = none → (m.callback w k).2 = (m.callback w k').2))
    (hok : ∀ k, (m.finish none k).2 = none) (hfailed : ∀ e k, (m.finish (some e) k).2 ≠ none)
    {env : SequenceEnv ω} {before : List (Scoped ω)} {w : Scoped ω} (h : m.Commits env before w) :
    m.Faithful env w ↔ env.release = none := by
  obtain ⟨hnone, -⟩ := Retried.run_committed h.committed
  have hsame : (scopedCallback m.callback w
      ((serializableRetry m.callback).captured before m.initial)).2 =
      (scopedCallback m.callback w m.initial).2 := by
    simp only [serializableRetry] at hnone ⊢
    unfold scopedCallback at hnone ⊢
    rcases hscope : w.setScope with _ | e
    · simp only [hscope] at hnone ⊢
      exact (hwrites _ _ _).2 hnone
    · simp only [hscope, reduceCtorEq] at hnone
  rw [Method.Faithful, h.answer_eq, h.answer_alone fun w k k' => (hwrites w k k').1, hsame]
  rcases env.release with _ | e
  · simp only [Option.map_none]
  · simp only [Option.map_some, reduceCtorEq, iff_false]
    intro heq
    exact hfailed _ _ ((congrArg Prod.snd heq).trans (hok _))

/-- The table of `classifyControlledTransferError`. -/
def transferErrors : List (String × Sentinel) :=
  [("controlled_transfer_actor", .transferNotAuthorized),
    ("controlled_transfer_source_actor", .transferNotAuthorized),
    ("controlled_transfer_destination_actor", .transferDestinationNotAuthorized),
    ("controlled_transfer_tenant", .transferAccountNotFound),
    ("controlled_transfer_account_status", .transferAccountInactive),
    ("controlled_transfer_policy_missing", .transferPolicyMissing),
    ("controlled_transfer_currency", .transferUnsupportedCurrency),
    ("controlled_transfer_account_currency", .transferCurrencyMismatch),
    ("controlled_transfer_amount_minimum", .transferBelowMinimum),
    ("controlled_transfer_amount_maximum", .transferAboveMaximum),
    ("controlled_transfer_actor_velocity", .transferActorVelocity),
    ("controlled_transfer_source_velocity", .transferSourceVelocity),
    ("controlled_transfer_tenant_velocity", .transferTenantVelocity),
    ("controlled_transfer_idempotency", .idempotencyConflict),
    ("controlled_transfer_request_reference", .idempotencyConflict),
    ("recovery_reference_unique", .idempotencyConflict),
    ("recovery_key_unique", .idempotencyConflict),
    ("controlled_transfer_in_progress", .requestInProgress),
    ("controlled_transfer_input", .transferInvalidCommand),
    ("controlled_transfer_fingerprint", .transferInvalidCommand)]

/-- `classifyControlledTransferError`. -/
def classifyControlledTransferError (e : CommandError) : CommandError :=
  match e.postgres? with
  | none => .wrapped "execute controlled transfer" e
  | some pg => ((transferErrors.lookup pg.constraint).map .sentinel).getD e

/-- The errors for which `policyDenialCode` has a code. -/
def policyDenials : List Sentinel :=
  [.transferNotAuthorized, .transferDestinationNotAuthorized, .transferPolicyMissing,
    .transferBelowMinimum, .transferAboveMaximum, .transferActorVelocity, .transferSourceVelocity,
    .transferTenantVelocity, .transferUnsupportedCurrency]

/-- What a transaction answers to a transfer: the response and whether it is a replay, and the
error of attaching the request reference. -/
structure TransferAnswers where
  submitted : Except DriverError (Json × Bool)
  attached : Option DriverError

section Transfers

variable {R : Type}

/-- The callback of `TransferRepository.Submit`; `decode` is `json.Unmarshal` into a new result. -/
def submitCallback (decode : Json → Option R) (requestReference : String) (w : TransferAnswers)
    (k : Submission R) : Option CommandError × Submission R :=
  match w.submitted with
  | .error e => (some (classifyControlledTransferError (.driver e)), k)
  | .ok (response, replayed) =>
    match decode response with
    | none => (some (.plain "decode controlled transfer outcome"), k)
    | some result =>
      if requestReference = "" then (none, ⟨result, replayed⟩)
      else match w.attached with
        | some e => (some (classifyControlledTransferError (.driver e)), k)
        | none => (none, ⟨result, replayed⟩)

/-- `TransferRepository.Submit`, where `auditError` is the error of the audit of a denial. -/
def submitMethod (scope : TenantScope) (decode : Json → Option R) (zero : Submission R)
    (requestReference : String) (auditError : Option CommandError) :
    Method TransferAnswers (Submission R) (Submission R) where
  scope := scope
  sequenceKey := "transfer-policy|" ++ scope.tenantId
  callback := submitCallback decode requestReference
  initial := zero
  finish
    | none, k => (k, none)
    | some e, k =>
      match auditError with
      | none => (k, some e)
      | some audit =>
        if ∃ s ∈ policyDenials, e.Is s then
          (zero, some (.wrapped "persist required transfer denial audit" audit))
        else (k, some e)

/-- A transfer answers with the committed outcome whenever its lock is released. -/
theorem submit_faithful_iff {scope : TenantScope} {decode : Json → Option R} {zero : Submission R}
    {requestReference : String} {auditError : Option CommandError} {env : SequenceEnv TransferAnswers}
    {before : List (Scoped TransferAnswers)} {w : Scoped TransferAnswers}
    (h : (submitMethod scope decode zero requestReference auditError).Commits env before w) :
    (submitMethod scope decode zero requestReference auditError).Faithful env w ↔
      env.release = none := by
  -- The callback never reads what an earlier attempt left behind.
  refine faithful_iff_released (fun w k k' => ?_) (fun k => rfl) (fun e k => ?_) h
  · simp only [submitMethod, submitCallback]
    rcases w.submitted with e | ⟨response, replayed⟩
    · exact ⟨rfl, fun hnone => (nomatch hnone)⟩
    · dsimp only
      rcases decode response with _ | result
      · exact ⟨rfl, fun hnone => (nomatch hnone)⟩
      · dsimp only
        by_cases hreference : requestReference = ""
        · simp only [if_pos hreference]
          exact ⟨trivial, fun _ => trivial⟩
        · simp only [if_neg hreference]
          rcases w.attached with _ | e
          · exact ⟨rfl, fun _ => rfl⟩
          · exact ⟨rfl, fun hnone => (nomatch hnone)⟩
  · simp only [submitMethod]
    rcases auditError with _ | audit
    · simp
    · dsimp only
      split_ifs <;> simp

end Transfers

/-- An error of a stored procedure by the constraint it names; the services read a unique violation
as a conflict. -/
def classifyControlledError (context : String) (errors : List (String × Sentinel))
    (conflict : Sentinel) (e : CommandError) : CommandError :=
  match e.postgres? with
  | none => .wrapped context e
  | some pg =>
    match errors.lookup pg.constraint with
    | some s => .sentinel s
    | none => if pg.code = "23505" then .sentinel conflict else e

/-- `classifyControlledFundingError`. -/
def classifyControlledFundingError : CommandError → CommandError :=
  classifyControlledError "execute controlled funding post"
    [("controlled_funding_actor", .fundingForbidden),
      ("controlled_funding_forbidden", .fundingForbidden),
      ("controlled_funding_not_found", .fundingNotFound),
      ("controlled_funding_idempotency", .fundingConflict),
      ("controlled_funding_balance", .fundingConflict),
      ("controlled_funding_limit", .fundingLimitExceeded),
      ("controlled_funding_input", .fundingInvalidCommand)]
    .fundingConflict

/-- `classifyControlledCorrectionError`. -/
def classifyControlledCorrectionError : CommandError → CommandError :=
  classifyControlledError "execute controlled correction post"
    [("controlled_correction_actor", .correctionForbidden),
      ("controlled_correction_forbidden", .correctionForbidden),
      ("controlled_correction_not_found", .correctionNotFound),
      ("controlled_correction_idempotency", .correctionConflict),
      ("controlled_correction_conflict", .correctionConflict),
      ("controlled_correction_step_up", .correctionStepUpRequired),
      ("controlled_correction_input", .correctionInvalidCommand)]
    .correctionConflict

/-- The error of `readCorrectionByID`. -/
def correctionReadError (e : DriverError) : CommandError :=
  if e = .noRows then .sentinel .correctionNotFound else .driver e

/-- What a transaction answers to a command on events: whether the command is a replay, and the
event that is then read, with the error of reading it. -/
structure EventAnswers (E : Type) where
  called : Except DriverError Bool
  read : E × Option DriverError

/-- How the methods on events write their variable. -/
inductive EventWrite where
  /-- `Request` and `Compensate` write the submission and then return the error of reading. -/
  | request
  /-- `Post` writes the submission when the event was read. -/
  | post
  /-- `decide` writes the event that it reads, and has no replays. -/
  | decide

/-- The callbacks of the methods on events. -/
def eventCallback {E : Type} (kind : EventWrite) (classify : CommandError → CommandError)
    (readError : DriverError → CommandError) (w : EventAnswers E) (k : Submission E) :
    Option CommandError × Submission E :=
  match w.called with
  | .error e => (some (classify (.driver e)), k)
  | .ok replayed =>
    match kind with
    | .request => (w.read.2.map readError, ⟨w.read.1, replayed⟩)
    | .post =>
      match w.read.2 with
      | some e => (some (readError e), k)
      | none => (none, ⟨w.read.1, replayed⟩)
    | .decide => (w.read.2.map readError, ⟨w.read.1, false⟩)

/-- The methods on events, which return what the sequence leaves. -/
def eventMethod {E : Type} (scope : TenantScope) (sequenceKey : String) (zero : E)
    (callback : EventAnswers E → Submission E → Option CommandError × Submission E) :
    Method (EventAnswers E) (Submission E) (Submission E) where
  scope := scope
  sequenceKey := sequenceKey
  callback := callback
  initial := ⟨zero, false⟩
  finish error k := (k, error)

/-- A method on events answers with the committed outcome whenever its lock is released. -/
theorem event_faithful_iff {E : Type} {scope : TenantScope} {sequenceKey : String} {zero : E}
    {kind : EventWrite} {classify : CommandError → CommandError}
    {readError : DriverError → CommandError} {env : SequenceEnv (EventAnswers E)}
    {before : List (Scoped (EventAnswers E))} {w : Scoped (EventAnswers E)}
    (h : (eventMethod scope sequenceKey zero (eventCallback kind classify readError)).Commits env
      before w) :
    (eventMethod scope sequenceKey zero (eventCallback kind classify readError)).Faithful env w ↔
      env.release = none := by
  refine faithful_iff_released (fun w k k' => ?_) (fun k => rfl)
    (fun e k hnone => Option.some_ne_none e hnone) h
  simp only [eventMethod, eventCallback]
  rcases w.called with e | replayed
  · exact ⟨rfl, fun hnone => (nomatch hnone)⟩
  · cases kind with
    | request => exact ⟨rfl, fun _ => rfl⟩
    | post =>
      rcases w.read.2 with _ | e
      · exact ⟨rfl, fun _ => rfl⟩
      · exact ⟨rfl, fun hnone => (nomatch hnone)⟩
    | decide => exact ⟨rfl, fun _ => rfl⟩

/-- The methods of `FundingRepository`: `Request`, `decide`, `Post` and `Compensate`. -/
inductive FundingMethod where
  | request
  | decide (fundingEventId : String)
  | post
  | compensate (fundingEventId : String)

/-- A method of `FundingRepository`. -/
def fundingMethod {E : Type} (scope : TenantScope) (zero : E) :
    FundingMethod → Method (EventAnswers E) (Submission E) (Submission E)
  | .request => eventMethod scope
      ("funding-request|" ++ toLower scope.tenantId ++ "|" ++ scope.actorId) zero
      (eventCallback .request classifyControlledFundingError .driver)
  | .decide id => eventMethod scope ("funding-decision|" ++ toLower scope.tenantId ++ "|" ++ id) zero
      (eventCallback .decide classifyControlledFundingError .driver)
  | .post => eventMethod scope ("funding-post|" ++ toLower scope.tenantId) zero
      (eventCallback .post classifyControlledFundingError .driver)
  | .compensate id => eventMethod scope
      ("funding-compensate|" ++ toLower scope.tenantId ++ "|" ++ id) zero
      (eventCallback .request classifyControlledFundingError .driver)

/-- The methods of `TransferCorrectionRepository`: `Request`, `decide` and `Post`. -/
inductive CorrectionMethod where
  | request (originalTransferId : String)
  | decide (correctionId : String)
  | post (correctionId : String)

/-- A method of `TransferCorrectionRepository`. -/
def correctionMethod {E : Type} (scope : TenantScope) (zero : E) :
    CorrectionMethod → Method (EventAnswers E) (Submission E) (Submission E)
  | .request id => eventMethod scope
      ("transfer-correction|" ++ toLower scope.tenantId ++ "|" ++ id) zero
      (eventCallback .request classifyControlledCorrectionError correctionReadError)
  | .decide id => eventMethod scope
      ("transfer-correction-decision|" ++ toLower scope.tenantId ++ "|" ++ id) zero
      (eventCallback .decide classifyControlledCorrectionError correctionReadError)
  | .post id => eventMethod scope
      ("transfer-correction-post|" ++ toLower scope.tenantId ++ "|" ++ id) zero
      (eventCallback .post classifyControlledCorrectionError correctionReadError)

/-! ## All commands -/

/-- A hold command answers with the receipt of the response that its committed attempt got. -/
def HoldAnswered (scope : TenantScope) (env : SequenceEnv (Except DriverError Json))
    (w : Scoped (Except DriverError Json)) : Prop :=
  (holdMethod scope).Faithful env w ∧ ∀ raw, w.answers = .ok raw →
    (holdMethod scope).answer env = ((Receipt.unmarshal raw .zero).2, none)

/-- The outcome of a committed command on a hold is answered exactly when the release succeeds and
the receipt is that of the attempt that was committed. -/
theorem hold_answered_iff {scope : TenantScope} {env : SequenceEnv (Except DriverError Json)}
    {before : List (Scoped (Except DriverError Json))} {w : Scoped (Except DriverError Json)}
    (h : (holdMethod scope).Commits env before w) :
    HoldAnswered scope env w ↔ env.release = none ∧ Receipt.Shown before w := by
  rw [← hold_faithful_iff h]
  refine ⟨fun hanswered => hanswered.1, fun hf => ⟨hf, fun raw hraw => ?_⟩⟩
  obtain ⟨hnone, -⟩ := Retried.run_committed h.committed
  rw [show _ = _ from hf, h.answer_alone hold_error]
  rcases hscope : w.setScope with _ | e
  · simp only [scopedCallback, hscope, hraw, holdMethod, holdCallback, Option.map_none]
  · simp only [serializableRetry, scopedCallback, hscope, reduceCtorEq] at hnone

/-- A call that commits answers with the outcome that committed, exactly when the lock of its
sequence is released and no variable that the committed attempt leaves alone was last written, by an
attempt that was rolled back, to another value than it began with. Transfers, funding and
corrections leave no variable alone. A hold procedure returns the response that is stored under its
key. -/
theorem committed_outcome_answered (scope : TenantScope) :
    (∀ (command : AccountCommand) (fingerprint : Bytes) (now : Time)
      (auditError : Option CommandError) (env : SequenceEnv AccountAnswers)
      (before : List (Scoped AccountAnswers)) (w : Scoped AccountAnswers),
      (accountMethod command fingerprint now auditError).Commits env before w →
      (command.Answered fingerprint now auditError env w ↔ env.release = none ∧
        Shows (command.writesSubmission fingerprint now) before w .zero ∧
        Shows (command.writesDenial fingerprint now) before w none)) ∧
    (∀ (env : SequenceEnv (Except DriverError Json))
      (before : List (Scoped (Except DriverError Json))) (w : Scoped (Except DriverError Json)),
      (holdMethod scope).Commits env before w →
      (HoldAnswered scope env w ↔ env.release = none ∧ Receipt.Shown before w)) ∧
    (∀ (d : Digest) (sess : Session) (p : HoldRequest) (clock : HoldClock) (id : Uuid)
      (ids : ChangeIds) (s s' : Db) (raw : Json),
      controlledCreateHoldV1 d sess p clock id ids s = .ok (raw, s') →
      ∃ c, s'.holdCommands.find? (p.tenant, p.actor, "create", p.key) = some c ∧ c.Answers raw) ∧
    (∀ (d : Digest) (sess : Session) (p : HoldDecisionRequest) (clock : DecisionClock)
      (ids : DecisionIds) (s s' : Db) (raw : Json),
      controlledDecideHoldV1 d sess p clock ids s = .ok (raw, s') →
      ∃ c, s'.holdCommands.find? (p.tenant, p.actor, p.decision.text, p.key) = some c ∧
        c.Answers raw) ∧
    (∀ (R : Type) (decode : Json → Option R) (zero : Submission R)
      (requestReference : String) (auditError : Option CommandError)
      (env : SequenceEnv TransferAnswers) (before : List (Scoped TransferAnswers))
      (w : Scoped TransferAnswers),
      (submitMethod scope decode zero requestReference auditError).Commits env before w →
      ((submitMethod scope decode zero requestReference auditError).Faithful env w ↔
        env.release = none)) ∧
    (∀ (E : Type) (zero : E) (method : FundingMethod)
      (env : SequenceEnv (EventAnswers E)) (before : List (Scoped (EventAnswers E)))
      (w : Scoped (EventAnswers E)), (fundingMethod scope zero method).Commits env before w →
      ((fundingMethod scope zero method).Faithful env w ↔ env.release = none)) ∧
    (∀ (E : Type) (zero : E) (method : CorrectionMethod)
      (env : SequenceEnv (EventAnswers E)) (before : List (Scoped (EventAnswers E)))
      (w : Scoped (EventAnswers E)), (correctionMethod scope zero method).Commits env before w →
      ((correctionMethod scope zero method).Faithful env w ↔ env.release = none)) := by
  refine ⟨fun command fingerprint now auditError env before w h => account_answered_iff h,
    fun env before w h => hold_answered_iff h,
    fun d sess p clock id ids s s' raw h => createHold_response h,
    fun d sess p clock ids s s' raw h => decideHold_response h,
    fun R decode zero requestReference auditError env before w h => submit_faithful_iff h,
    fun E zero method env before w h => ?_, fun E zero method env before w h => ?_⟩
  · cases method <;> exact event_faithful_iff h
  · cases method <;> exact event_faithful_iff h

/-! ## A closure that was first denied -/

namespace Sample

/-- The closure of an account at version 1. -/
def closing : AccountCommand :=
  .changeStatus {
    tenantId := "11111111-1111-4111-8111-111111111111"
    actorSubjectId := "operator-a"
    correlationId := "22222222-2222-4222-8222-222222222222"
    idempotencyKey := "close-account-0001"
    accountId := "33333333-3333-4333-8333-333333333333"
    expectedVersion := 1
    targetStatus := some .closed
    reason := "customer request"
    occurredAt := timeUnix 1772000100 }

/-- A transaction that finds the account with a balance. -/
def closingAt (minor : ℤ) : Scoped AccountAnswers where
  setScope := none
  answers := {
    authorized := .ok true
    reserved := .ok ()
    loaded := .error .noRows
    accountId := .ok ""
    provisioned := .error .noRows
    locked := .ok {
      id := "33333333-3333-4333-8333-333333333333"
      tenantId := "11111111-1111-4111-8111-111111111111"
      currency := "USD"
      status := .active
      metadata := ⟨"Operating", "operating-1", "operating"⟩
      version := 1
      createdAt := timeUnix 1772000000
      updatedAt := timeUnix 1772000000
      closedAt := none
      availableMinor := minor
      ledgerMinor := minor
      permission := .debit }
    unresolved := .ok false
    authoritative := .ok (decimal minor)
    savepoint := none
    updated := .ok true
    rollbackToSavepoint := none
    releaseSavepoint := none
    auditId := .ok "44444444-4444-4444-8444-444444444444"
    audit := none
    outboxId := .ok ""
    outbox := none
    stored := .ok 1 }

/-- A serialization failure. -/
def serializationFailure : CommandError :=
  .driver (.postgres "ERROR" ⟨"40001", "",
    "could not serialize access due to read/write dependencies among transactions"⟩)

/-- A sequence whose first attempt answers `first` and fails to commit, and whose second answers
`second` and commits. -/
def retriedOnce (first second : Scoped AccountAnswers) : SequenceEnv AccountAnswers where
  connection := none
  reset := none
  lock := none
  attempt
    | 0 => ⟨none, first, some serializationFailure, none⟩
    | _ => .committing second
  release := none

/-- The first attempt does not fail, so its commit is retried. -/
theorem retriedOnce_commits {f g : Scoped AccountAnswers}
    (hfirst : f.setScope = none ∧ ∀ e, closing.attempt [] 0 f.answers ≠ .failed e)
    (hsecond : g.setScope = none ∧ ∀ e, closing.attempt [] 0 g.answers ≠ .failed e) :
    (accountMethod closing [] 0 none).Commits (retriedOnce f g) [f] g := by
  have hwrite : ∀ {o : AccountOutcome}, (∀ e, o ≠ .failed e) → ∀ k, (o.write k).1 = none := by
    intro o ho k
    cases o with
    | failed e => exact absurd rfl (ho e)
    | _ => rfl
  have hretry : isRetryableTransactionError serializationFailure = true := by decide +kernel
  refine ⟨by decide +kernel, by decide +kernel, rfl, rfl, rfl, ?_⟩
  show (serializableRetry _).committed
    (⟨none, f, some serializationFailure, none⟩ :: .committing g :: _) _ = _
  simp only [Retried.committed, serializableRetry, scopedCallback, hfirst.1, hsecond.1,
    accountMethod, Attempt.committing, hwrite hfirst.2, hwrite hsecond.2, hretry, Option.or,
    reduceCtorEq, or_self, if_false, Option.map_some]

/-- With a balance the closure is denied, and without one it succeeds. -/
theorem closing_attempts :
    closing.attempt [] 0 (closingAt 5).answers =
        .denied "non_zero_balance" (.sentinel (.account .nonZeroBalance)) ∧
      (closing.attempt [] 0 (closingAt 0).answers).submission?.isSome = true ∧
      (closing.attempt [] 0 (closingAt 0).answers).denial? = none := by
  decide +kernel

end Sample

/-- A closure that is denied in an attempt that is rolled back, and that then commits, is answered
with the denial. -/
theorem committed_closure_reported_denied :
    ¬∀ (command : AccountCommand) (fingerprint : Bytes) (now : Time)
      (auditError : Option CommandError) (env : SequenceEnv AccountAnswers)
      (before : List (Scoped AccountAnswers)) (w : Scoped AccountAnswers),
      (accountMethod command fingerprint now auditError).Commits env before w →
      command.Answered fingerprint now auditError env w := by
  intro hclaim
  obtain ⟨hdenied, hsucceeded, hnone⟩ := Sample.closing_attempts
  obtain ⟨submission, hsubmission⟩ := Option.isSome_iff_exists.mp hsucceeded
  have hcommits := Sample.retriedOnce_commits (f := Sample.closingAt 5)
    (g := Sample.closingAt 0)
    ⟨rfl, fun e he => by rw [hdenied] at he; cases he⟩
    ⟨rfl, fun e he => by rw [he] at hsubmission; cases hsubmission⟩
  obtain ⟨-, -, hshows⟩ := (account_answered_iff hcommits).mp (hclaim _ _ _ _ _ _ _ hcommits)
  -- The committed attempt succeeds, so it leaves the denial of the first one.
  have hlast : lastWrite (Sample.closing.writesDenial [] 0) [Sample.closingAt 5] none =
      some (.sentinel (.account .nonZeroBalance)) := by
    have hfirst : Sample.closing.writesDenial [] 0 (Sample.closingAt 5) =
        some (some (.sentinel (.account .nonZeroBalance))) := by
      show (Sample.closing.attempt [] 0 (Sample.closingAt 5).answers).denial? = _
      rw [hdenied]
      rfl
    rw [lastWrite_cons, hfirst]
    rfl
  rw [hshows hnone] at hlast
  cases hlast

/-- A closure that succeeds in both of its attempts is answered with its result. -/
theorem committed_closure_answered :
    (accountMethod Sample.closing [] 0 none).Commits
        (Sample.retriedOnce (Sample.closingAt 0) (Sample.closingAt 0)) [Sample.closingAt 0]
        (Sample.closingAt 0) ∧
      Sample.closing.Answered [] 0 none
        (Sample.retriedOnce (Sample.closingAt 0) (Sample.closingAt 0)) (Sample.closingAt 0) := by
  obtain ⟨-, hsucceeded, hnone⟩ := Sample.closing_attempts
  obtain ⟨submission, hsubmission⟩ := Option.isSome_iff_exists.mp hsucceeded
  have hfails : ∀ e, Sample.closing.attempt [] 0 (Sample.closingAt 0).answers ≠ .failed e := by
    intro e he
    rw [he] at hsubmission
    cases hsubmission
  have hcommits := Sample.retriedOnce_commits ⟨rfl, hfails⟩ ⟨rfl, hfails⟩
  have hanswered := (committed_outcome_answered ⟨"", ""⟩).1 _ _ _ _ _ _ _ hcommits
  refine ⟨hcommits, hanswered.mpr ⟨rfl, ?_, fun _ => ?_⟩⟩
  · intro hwrites
    rw [show Sample.closing.writesSubmission [] 0 (Sample.closingAt 0) = some submission from
      hsubmission] at hwrites
    cases hwrites
  · rw [lastWrite_cons, show Sample.closing.writesDenial [] 0 (Sample.closingAt 0) = none from hnone]
    rfl

end LedgerSync
