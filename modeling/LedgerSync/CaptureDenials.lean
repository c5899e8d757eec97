import LedgerSync.Documents
import LedgerSync.HoldLifecycle
import LedgerSync.Lib.Raising

/-!
# Denied captures

A capture submits a transfer in a block with an exception handler. When the transfer is denied, what
the block wrote is rolled back, the reservation stays as it was, and the denial is recorded. The
handler knows the denials by the constraints that their errors name (`captureDenials`).
-/

namespace LedgerSync

open Lib

/-! ## The errors of a transfer -/

/-- The constraints of the errors by which `controlled_submit_transfer_v1` denies a transfer: for
the policy, the status of an account, a permission or a rolling limit. -/
def transferDenials : List String :=
  ["controlled_transfer_actor", "controlled_transfer_tenant", "controlled_transfer_currency",
    "controlled_transfer_policy_missing", "controlled_transfer_amount_minimum",
    "controlled_transfer_amount_maximum", "controlled_transfer_account_status",
    "controlled_transfer_account_currency", "controlled_transfer_source_actor",
    "controlled_transfer_destination_actor", "controlled_transfer_actor_velocity",
    "controlled_transfer_source_velocity", "controlled_transfer_tenant_velocity"]

/-- The constraints of its other errors: a request that is not well formed, a key that is taken, a
state that has changed, and rows that are refused. -/
def transferFaults : List String :=
  ["controlled_transfer_input", "controlled_transfer_fingerprint",
    "controlled_transfer_idempotency", "controlled_transfer_in_progress",
    "controlled_transfer_source_balance", "controlled_transfer_outcome",
    "idempotency_requests_pkey", "transfer_velocity_totals_total_minor_check", "transfers_check",
    "transfer_single_compensation_idx", "transfers_pkey", "audit_events_pkey",
    "journal_source_identity_key",
    "journal_transactions_pkey", "ledger_postings_pkey",
    "account_balance_available_policy", "transfers_journal_transaction_id_key",
    "transfer_velocity_events_pkey", "outbox_events_transfer_id_key", "outbox_events_pkey",
    "webhook_delivery_jobs_initial_event_endpoint_idx", "webhook_delivery_jobs_pkey", ""]

/-- The error is a denial that a capture knows, or no denial. -/
def PgError.DeniedOrFault (e : PgError) : Prop :=
  e.constraint ∈ captureDenials ∨ e.constraint ∈ transferFaults

section Raising

variable {p : TransferRequest} {ids : TransferIds}

/-- An insertion raises the fault of its table only. -/
theorem insertRow_raises {ρ κ : Type} {key : ρ → κ} [DecidableEq κ] {get : Db → Table key}
    {put : Table key → Db → Db} {constraint : String} {row : ρ}
    (h : constraint ∈ transferFaults) :
    Txn.Raises PgError.DeniedOrFault (insertRow get put constraint row) :=
  .get_bind fun _ => .bind (.orRaise (.inr h)) fun _ => .set _

/-- An admission refuses accounts that are not there, besides what `DeniedOrFault` allows. -/
theorem admitTransfer_raises : Txn.Raises (fun e => e.constraint = "controlled_transfer_tenant" ∨
    e.DeniedOrFault) (admitTransfer p) := by
  refine .get_bind fun s => ?_
  refine .bind (.raiseIf (.inr (.inl (by decide)))) fun _ => ?_
  refine .bind (.orRaise (.inr (.inl (by decide)))) fun policy => ?_
  refine .bind (.raiseIf (.inr (.inl (by decide)))) fun _ => ?_
  refine .bind (.raiseIf (.inr (.inl (by decide)))) fun _ => ?_
  refine .bind (.raiseIf (.inr (.inl (by decide)))) fun _ => ?_
  refine .bind (.orRaise (.inl rfl)) fun source => ?_
  refine .bind (.orRaise (.inl rfl)) fun destination => ?_
  refine .bind (.raiseIf (.inr (.inl (by decide)))) fun _ => ?_
  refine .bind (.raiseIf (.inr (.inl (by decide)))) fun _ => ?_
  refine .bind (.raiseIf (.inr (.inl (by decide)))) fun _ => ?_
  exact .bind (.raiseIf (.inr (.inl (by decide)))) fun _ => .pure _

/-- Pruning raises denials and faults only. -/
theorem pruneVelocity_raises : Txn.Raises PgError.DeniedOrFault (pruneVelocity p) := by
  refine .get_bind fun s => ?_
  refine .bind (.raiseIf (.inr (by decide))) fun _ => ?_
  exact .bind (.raiseIf (.inr (by decide))) fun _ => .set _

/-- The check of the limits raises denials and faults only. -/
theorem checkVelocity_raises {policy : TransferPolicy} :
    Txn.Raises PgError.DeniedOrFault (checkVelocity p policy) := by
  refine .get_bind fun s => ?_
  refine .bind (.raiseIf (.inl (by decide))) fun _ => ?_
  exact .bind (.raiseIf (.inl (by decide))) fun _ => .raiseIf (.inl (by decide))

/-- An audit event raises denials and faults only. -/
theorem insertAudit_raises {e : AuditEvent} : Txn.Raises PgError.DeniedOrFault (insertAudit e) :=
  insertRow_raises (by decide)

/-- Rejecting a transfer raises denials and faults only. -/
theorem rejectTransfer_raises {x : Transfer} :
    Txn.Raises PgError.DeniedOrFault (rejectTransfer p ids x) := by
  refine .get_bind fun s => ?_
  refine .bind (.set _) fun _ => ?_
  exact .bind insertAudit_raises fun _ => .pure _

/-- Writing a balance raises denials and faults only. -/
theorem writeBalance_raises {b : Balance} {available ledger version : ℤ} {at' : Instant} :
    Txn.Raises PgError.DeniedOrFault (writeBalance b available ledger version at') := by
  refine .bind (.raiseIf (.inr (by decide))) fun _ => ?_
  refine .bind (.orRaise (.inr (by decide))) fun _ => ?_
  exact .get_bind fun s => .bind (.set _) fun _ => .pure _

/-- A posting raises denials and faults only. -/
theorem insertPosting_raises {x : Posting} :
    Txn.Raises PgError.DeniedOrFault (insertPosting x) := by
  refine .get_bind fun s => ?_
  exact .bind (.raiseIf (.inr (by decide))) fun _ => insertRow_raises (by decide)

/-- An event of the outbox raises denials and faults only. -/
theorem insertOutbox_raises {e : OutboxEvent} :
    Txn.Raises PgError.DeniedOrFault (insertOutbox e) := by
  refine .get_bind fun s => ?_
  refine .bind (.orRaise (.inr (by decide))) fun _ => ?_
  exact .bind (.raiseIf (.inr (by decide))) fun _ => insertRow_raises (by decide)

/-- The webhooks raise denials and faults only. -/
theorem enqueueWebhooks_raises {es : List WebhookEndpoint} :
    Txn.Raises PgError.DeniedOrFault (enqueueWebhooks p ids es) := by
  induction es with
  | nil => exact .pure _
  | cons e es ih =>
    refine .get_bind fun s => ?_
    refine .bind (.raiseIf (.inr (by decide))) fun _ => ?_
    exact .bind (insertRow_raises (by decide)) fun _ => ih

/-- Publishing a transfer raises denials and faults only. -/
theorem publishTransfer_raises {source destination : Balance} :
    Txn.Raises PgError.DeniedOrFault (publishTransfer p ids source destination) := by
  refine .bind insertOutbox_raises fun _ => ?_
  refine .bind insertOutbox_raises fun _ => ?_
  refine .bind insertOutbox_raises fun _ => ?_
  exact .get_bind fun s => enqueueWebhooks_raises

/-- Recording what a transfer spends raises denials and faults only. -/
theorem recordVelocity_raises {transfer : Uuid} :
    Txn.Raises PgError.DeniedOrFault (recordVelocity p transfer) := by
  refine .bind (insertRow_raises (by decide)) fun _ => ?_
  refine .get_bind fun s => ?_
  exact .bind (.raiseIf (.inr (by decide))) fun _ => .set _

/-- Posting a transfer raises denials and faults only. -/
theorem postTransfer_raises {x : Transfer} :
    Txn.Raises PgError.DeniedOrFault (postTransfer p ids x) := by
  -- Each step of the posting raises an error of the list or a fault.
  have hjournal : ∀ j, Txn.Raises PgError.DeniedOrFault (insertJournal j) := fun j =>
    .get_bind fun s => .bind (.raiseIf (.inr (by decide))) fun _ => insertRow_raises (by decide)
  have hdebit : ∀ account amount now, Txn.Raises PgError.DeniedOrFault (debitBalance account amount
      now ⟨"40001", "controlled_transfer_source_balance",
        "controlled transfer source balance changed"⟩) := fun _ _ _ =>
    .get_bind fun s => .bind (.orRaise (.inr (by decide))) fun _ => writeBalance_raises
  have hcredit : ∀ account amount now,
      Txn.Raises PgError.DeniedOrFault (creditBalance account amount now) := fun _ _ _ =>
    .get_bind fun s => .bind (.orRaise (.inr (by decide))) fun _ => writeBalance_raises
  -- The steps follow the order of the procedure.
  refine .bind (hjournal _) fun _ => ?_
  refine .bind insertPosting_raises fun _ => ?_
  refine .bind insertPosting_raises fun _ => ?_
  refine .bind (hdebit _ _ _) fun source => ?_
  refine .bind (hcredit _ _ _) fun destination => ?_
  refine .get_bind fun s => ?_
  refine .bind (.raiseIf (.inr (by decide))) fun _ => ?_
  refine .bind (.set _) fun _ => ?_
  refine .bind recordVelocity_raises fun _ => ?_
  refine .bind insertAudit_raises fun _ => ?_
  exact .bind publishTransfer_raises fun _ => .pure _

/-- Once it is admitted, a request raises a denial that a capture knows, or a fault. -/
theorem settledTransfer_raises {policy : TransferPolicy} {source : Balance} :
    Txn.Raises PgError.DeniedOrFault (do
      pruneVelocity p
      checkVelocity p policy
      let x ← Txn.orRaise (pendingTransfer? p policy ids.transfer)
        (checkViolation "transfers_check")
      insertTransfer x
      let body ← settleTransfer p ids x source
      completeRequest p ids.transfer body
      pure (body, false) : Proc (Json × Bool)) := by
  have hsettle : ∀ x, Txn.Raises PgError.DeniedOrFault (settleTransfer p ids x source) :=
    fun _ => .ite rejectTransfer_raises postTransfer_raises
  have hcomplete : ∀ transfer body,
      Txn.Raises PgError.DeniedOrFault (completeRequest p transfer body) := fun _ _ =>
    .get_bind fun s => .bind (.raiseIf (.inr (by decide))) fun _ => .set _
  have hinsert : ∀ x, Txn.Raises PgError.DeniedOrFault (insertTransfer x) := fun x =>
    .get_bind fun s => .bind (.raiseIf (.inr (by decide))) fun _ => insertRow_raises (by decide)
  refine .bind pruneVelocity_raises fun _ => ?_
  refine .bind checkVelocity_raises fun _ => ?_
  refine .bind (.orRaise (.inr (by decide))) fun x => ?_
  refine .bind (hinsert x) fun _ => ?_
  refine .bind (hsettle x) fun body => ?_
  exact .bind (hcomplete _ _) fun _ => .pure _

/-- A replay raises denials and faults only. -/
theorem replayTransfer_raises {prior : IdempotencyRequest} :
    Txn.Raises PgError.DeniedOrFault (replayTransfer p prior) := by
  refine .bind (.raiseIf (.inr (by decide))) fun _ => ?_
  exact .bind (.orRaise (.inr (by decide))) fun _ => .pure _

end Raising

/-! ## The submission inside a capture -/

/-- The tenant of a transfer and both of its accounts are there. -/
structure Db.Bounds (s : Db) (p : TransferRequest) : Prop where
  tenant : p.tenantId ∈ s.settings.tenants
  source : s.account? p.tenantId p.debitAccountId ≠ none
  destination : s.account? p.tenantId p.creditAccountId ≠ none

/-- The error is a denial that a capture knows, or no denial, or the transfer is out of bounds. -/
def PgError.Known (e : PgError) (s : Db) (p : TransferRequest) : Prop :=
  e.DeniedOrFault ∨ (e.constraint = "controlled_transfer_tenant" ∧ ¬s.Bounds p)

section Submission

variable {d : Digest} {sess : Session} {p : TransferRequest} {ids : TransferIds} {s : Db}
  {e : PgError}

/-- Every error of a submission has one of the listed constraints. -/
theorem controlledSubmitTransferV1_raises : Txn.Raises (fun e => e.constraint ∈ transferDenials ∨
    e.constraint ∈ transferFaults) (controlledSubmitTransferV1 d sess p ids) := by
  -- The denials of a capture are among those of a transfer.
  have hknown : ∀ e : PgError, e.DeniedOrFault →
      e.constraint ∈ transferDenials ∨ e.constraint ∈ transferFaults := by
    have hsub : ∀ c ∈ captureDenials, c ∈ transferDenials := by decide
    exact fun e he => he.imp_left (hsub _)
  have hguard : Txn.Raises (fun e => e.constraint ∈ transferDenials ∨
      e.constraint ∈ transferFaults) (guardTransfer d sess p) := by
    refine .bind (.raiseIf (.inl (by decide))) fun _ => ?_
    refine .bind (.raiseIf (.inr (by decide))) fun _ => ?_
    refine .bind (.raiseIf (.inr (by decide))) fun _ => ?_
    refine .get_bind fun s => ?_
    exact .bind (.raiseIf (.inl (by decide))) fun _ => .raiseIf (.inl (by decide))
  have hadmit : Txn.Raises (fun e => e.constraint ∈ transferDenials ∨
      e.constraint ∈ transferFaults) (admitTransfer p) := by
    refine admitTransfer_raises.mono fun e he => ?_
    rcases he with he | he
    · rw [he]
      exact .inl (by decide)
    · exact hknown e he
  refine .bind hguard fun _ => .get_bind fun s => ?_
  -- A free key settles the transfer, a taken one replays it.
  rcases s.idempotencyRequests.find? p.key with _ | prior
  · have hinsert : Txn.Raises PgError.DeniedOrFault (insertRequest p.reservation) :=
      insertRow_raises (by decide)
    refine .bind (hinsert.mono hknown) fun _ => ?_
    exact .bind hadmit fun found => settledTransfer_raises.mono hknown
  · exact replayTransfer_raises.mono hknown

/-- For the session's actor, with a role that may transfer, the checks raise only faults. -/
theorem guardTransfer_outcome (hscope : sess.Allows p.tenantId)
    (hactor : p.actorSubjectId = sess.actorId)
    (hrole : s.settings.HasRole p.tenantId p.actorSubjectId [.operator, .finance]) :
    Txn.Outcome (guardTransfer d sess p) s (fun _ s' => s' = s) fun e => e.Known s p := by
  refine ⟨fun u s' h => (guardTransfer_ok.mp h).2.symm, ?_⟩
  have hown : ¬(¬sess.Allows p.tenantId ∨ p.actorSubjectId ≠ sess.actorId) := by
    rintro (hother | hother)
    · exact hother hscope
    · exact hother hactor
  have houtcome : Txn.Outcome (guardTransfer d sess p) s (fun _ _ => True)
      fun e => e.Known s p := by
    refine .raiseIf_bind (fun h => absurd h hown) fun _ => ?_
    refine .raiseIf_bind (fun _ => .inl (.inr (by decide))) fun _ => ?_
    refine .raiseIf_bind (fun _ => .inl (.inr (by decide))) fun _ => ?_
    refine .get_bind ?_
    refine .raiseIf_bind (fun h => .inr ⟨rfl, fun hb => h hb.tenant⟩) fun _ => ?_
    refine ⟨fun _ _ _ => trivial, fun e h => ?_⟩
    unfold Txn.raiseIf at h
    rw [if_neg (not_not.mpr hrole)] at h
    cases h
  exact houtcome.2

/-- The admission of a transfer raises errors that are known of it. -/
theorem admitTransfer_outcome {s₁ : Db} (hbounds : s.Bounds p → s₁.Bounds p) :
    Txn.Outcome (admitTransfer p) s₁ (fun _ _ => True) fun e => e.Known s p := by
  refine .get_bind ?_
  refine .raiseIf_bind (fun _ => .inl (.inl (by decide))) fun _ => ?_
  refine .orRaise_bind (fun _ => .inl (.inl (by decide))) fun policy _ => ?_
  refine .raiseIf_bind (fun _ => .inl (.inl (by decide))) fun _ => ?_
  refine .raiseIf_bind (fun _ => .inl (.inl (by decide))) fun _ => ?_
  refine .raiseIf_bind (fun _ => .inl (.inl (by decide))) fun _ => ?_
  refine .orRaise_bind (fun h => .inr ⟨rfl, fun hb => (hbounds hb).source h⟩) fun source _ => ?_
  refine .orRaise_bind (fun h => .inr ⟨rfl, fun hb => (hbounds hb).destination h⟩)
    fun destination _ => ?_
  refine .raiseIf_bind (fun _ => .inl (.inl (by decide))) fun _ => ?_
  refine .raiseIf_bind (fun _ => .inl (.inl (by decide))) fun _ => ?_
  refine .raiseIf_bind (fun _ => .inl (.inl (by decide))) fun _ => ?_
  exact .raiseIf_bind (fun _ => .inl (.inl (by decide))) fun _ => .pure trivial

/-- For the session's actor, with a role that may transfer, every error is known. -/
theorem controlledSubmitTransferV1_known (hscope : sess.Allows p.tenantId)
    (hactor : p.actorSubjectId = sess.actorId)
    (hrole : s.settings.HasRole p.tenantId p.actorSubjectId [.operator, .finance])
    (h : controlledSubmitTransferV1 d sess p ids s = .error e) : e.Known s p := by
  -- After the guards every error is a known one.
  have hraises : ∀ {α : Type} {x : Proc α} {s' : Db}, Txn.Raises PgError.DeniedOrFault x →
      Txn.Outcome x s' (fun _ _ => True) fun e => e.Known s p :=
    fun hx => ⟨fun _ _ _ => trivial, fun e he => .inl (hx _ e he)⟩
  suffices houtcome : Txn.Outcome (controlledSubmitTransferV1 d sess p ids) s (fun _ _ => True)
      fun e => e.Known s p from houtcome.2 e h
  refine .bind (guardTransfer_outcome hscope hactor hrole) fun _ s' hs => ?_
  rw [hs]
  refine .get_bind ?_
  rcases s.idempotencyRequests.find? p.key with _ | prior
  · unfold executeTransfer insertRequest
    refine .bind (R := fun _ s₁ => ∃ t, s₁ = { s with idempotencyRequests := t })
      ⟨fun _ s₁ hok => ?_, fun e he => .inl (insertRow_raises (by decide) _ e he)⟩
      fun _ s₁ hs₁ => ?_
    · obtain ⟨t, -, rfl⟩ := insertRow_ok.mp hok
      exact ⟨t, rfl⟩
    · obtain ⟨t, rfl⟩ := hs₁
      -- The reservation of the key leaves the bounds as they are.
      have hbounds : s.Bounds p → ({ s with idempotencyRequests := t } : Db).Bounds p := fun hb =>
        ⟨hb.tenant, hb.source, hb.destination⟩
      have hadmit := admitTransfer_outcome hbounds
      exact hadmit.bind fun found _ _ => hraises settledTransfer_raises
  · exact hraises replayTransfer_raises

end Submission

/-! ## Denied captures -/

/-- What a denial leaves: one audit event and one command, and everything else as it was. -/
structure DenialRecorded (s s' : Db) : Prop where
  audit : ∃ e, s.audit.insert? e = some s'.audit
  command : ∃ c, s.holdCommands.insert? c = some s'.holdCommands
  frame : s' = { s with audit := s'.audit, holdCommands := s'.holdCommands }

/-- An owner asks to capture an active hold, under a key that was not used before. -/
structure Capturing (d : Digest) (sess : Session) (p : HoldDecisionRequest) (s : Db) (h : Hold) :
    Prop where
  first : holdCommandExistingV1 sess p.tenant p.actor "capture" p.key (p.fingerprint d) s =
    .ok (none, s)
  find : s.holds.find? p.target = some h
  tenant : h.tenantId = p.tenant
  owns : s.settings.OwnsDebit p.tenant h.debitAccountId p.actor
  active : h.state = .active

section Captures

variable {d : Digest} {sess : Session} {p : HoldDecisionRequest} {clock : DecisionClock}
  {ids : DecisionIds} {h : Hold} {s s₁ s' : Db} {r : Json} {code : String}

/-- The response of a denial has its code. -/
theorem deniedResponse_code (target : Uuid) (code : String) :
    (deniedResponse target code).text? "rejection_code" = some code := rfl

/-- A capture that returns a rejection wrote nothing: its block was rolled back, or never began. -/
theorem captureHold_denied (hret : captureHold d sess p h clock ids s = .ok (r, s'))
    (hcode : r.text? "rejection_code" ≠ none) :
    (r = deniedResponse p.target "expired_capture" ∨
      r = deniedResponse p.target "capture_policy_denied") ∧ s' = s := by
  unfold captureHold at hret
  split_ifs at hret with hexpired
  · obtain ⟨rfl, rfl⟩ := Txn.pure_ok.mp hret
    exact ⟨.inl rfl, rfl⟩
  · rcases Txn.attempt_ok.mp hret with hblock | ⟨e, -, hhandler⟩
    · exact absurd (captureBlock_ok hblock).2.1 hcode
    · unfold captureHandler at hhandler
      split_ifs at hhandler
      · cases Txn.raise_ok.mp hhandler
      · obtain ⟨rfl, rfl⟩ := Txn.pure_ok.mp hhandler
        exact ⟨.inr rfl, rfl⟩

/-- A returned rejection repeats an earlier one, or it was recorded by this call. -/
theorem controlledDecideHoldV1_denied (hdecision : p.decision = .capture)
    (hret : controlledDecideHoldV1 d sess p clock ids s = .ok (r, s'))
    (hcode : r.text? "rejection_code" ≠ none) :
    (s' = s ∧ ∃ c, s.holdCommands.find? (p.tenant, p.actor, "capture", p.key) = some c ∧
      r = c.response.merge (.obj [("replayed", .bool true)])) ∨
    ((r = deniedResponse p.target "expired_capture" ∨
      r = deniedResponse p.target "capture_policy_denied") ∧ DenialRecorded s s') := by
  unfold controlledDecideHoldV1 at hret
  obtain ⟨previous, _, hexisting, hret⟩ := Txn.bind_ok.mp hret
  obtain ⟨rfl, -, -, -, -, hprevious⟩ := holdCommandExistingV1_ok hexisting
  rw [hdecision] at hprevious
  rcases previous with _ | response
  swap
  · obtain ⟨rfl, rfl⟩ := Txn.pure_ok.mp hret
    obtain ⟨c, hc, rfl⟩ := Option.map_eq_some_iff.mp hprevious.symm
    exact .inl ⟨rfl, c, hc, rfl⟩
  right
  simp only [decideHold, Txn.get_bind_ok, Txn.orRaise_bind_ok, Txn.raiseIf_bind_ok] at hret
  obtain ⟨hold, -, -, -, hret⟩ := hret
  obtain ⟨result, s₂, happly, hret⟩ := Txn.bind_ok.mp hret
  obtain ⟨_, s₃, hclose, hret⟩ := Txn.bind_ok.mp hret
  simp only [holdCommandStoreV1, insertRow_bind_ok, Txn.pure_ok] at hret
  obtain ⟨commands, hinsert, rfl, rfl⟩ := hret
  unfold applyDecision at happly
  simp only [hdecision] at happly
  obtain ⟨result', s₄, hcapture, happly⟩ := Txn.bind_ok.mp happly
  obtain ⟨_, s₅, haudit, happly⟩ := Txn.bind_ok.mp happly
  obtain ⟨rfl, rfl⟩ := Txn.pure_ok.mp happly
  obtain ⟨hresponse, rfl⟩ := captureHold_denied hcapture hcode
  refine ⟨hresponse, ?_⟩
  -- The response leaves the hold active, so its expiry job stays as it is.
  have hstate : result'.text? "state" = some "active" := by
    rcases hresponse with rfl | rfl
    · exact deniedResponse_text _ _
    · exact deniedResponse_text _ _
  have hjobs := closeJob_ok hclose
  rw [if_pos hstate] at hjobs
  obtain ⟨code, hsome⟩ := Option.ne_none_iff_exists'.mp hcode
  unfold auditDenial at haudit
  simp only [hsome] at haudit
  obtain ⟨audit, hevent, rfl⟩ := controlledAppendAuditV1_ok haudit
  subst hjobs
  exact ⟨⟨_, hevent⟩, ⟨_, hinsert⟩, rfl⟩

/-- The private release keeps the tenant and the accounts of a transfer. -/
theorem releaseForCapture_bounds {u : Unit} {q : TransferRequest}
    (hrelease : releaseForCapture h s = .ok (u, s₁)) (hb : s.Bounds q) : s₁.Bounds q := by
  rcases releaseForCapture_ok hrelease with ⟨-, rfl⟩ | ⟨b, freed, -, -, rfl⟩
  · exact hb
  have hkept : ∀ account, s.account? q.tenantId account ≠ none →
      ({ s with balances := s.balances.replace freed } : Db).account? q.tenantId account ≠
        none := by
    intro account hne
    obtain ⟨⟨a, b⟩, hfound⟩ := Option.ne_none_iff_exists'.mp hne
    obtain ⟨ha, hb, htenant⟩ := Db.account?_eq_some.mp hfound
    rw [Option.ne_none_iff_exists']
    by_cases hkey : account = freed.accountId
    · refine ⟨(a, freed), Db.account?_eq_some.mpr ⟨ha, ?_, htenant⟩⟩
      exact Table.find?_replace_self hb hkey.symm
    · refine ⟨(a, b), Db.account?_eq_some.mpr ⟨ha, ?_, htenant⟩⟩
      exact (Table.find?_replace_ne hkey).trans hb
  exact ⟨hb.tenant, hkept _ hb.source, hkept _ hb.destination⟩

/-- A denied transfer makes the block of a capture raise an error that its handler knows. -/
theorem captureBlock_error (hrelease : releaseForCapture h s = .ok ((), s₁))
    (hdenied : (∃ e, controlledSubmitTransferV1 d sess (captureTransfer d p h clock.now)
        ids.transfer s₁ = .error e ∧ e.constraint ∈ captureDenials) ∨
      ∃ body replayed s₂, controlledSubmitTransferV1 d sess (captureTransfer d p h clock.now)
        ids.transfer s₁ = .ok ((body, replayed), s₂) ∧ body.text? "status" = some "rejected") :
    ∃ e, captureBlock d sess p h clock ids s = .error e ∧
      (e.code = "P1601" ∨ e.constraint ∈ captureDenials) := by
  unfold captureBlock
  rw [Txn.bind_of_ok hrelease]
  rcases hdenied with ⟨e, hsubmit, hconstraint⟩ | ⟨body, replayed, s₂, hsubmit, hstatus⟩
  · rw [Txn.bind_of_error hsubmit]
    exact ⟨e, rfl, .inr hconstraint⟩
  · rw [Txn.bind_of_ok hsubmit]
    dsimp only
    rw [Txn.raiseIf_bind_of_pos (.inl ⟨"rejected", hstatus, by decide⟩)]
    exact ⟨_, rfl, .inl rfl⟩

/-- A capture whose block raised a known error gives the rejection. -/
theorem captureHold_of_error {e : PgError} (hlive : instant clock.now < h.expiresAt)
    (hblock : captureBlock d sess p h clock ids s = .error e)
    (hknown : e.code = "P1601" ∨ e.constraint ∈ captureDenials) :
    captureHold d sess p h clock ids s =
      .ok (deniedResponse p.target "capture_policy_denied", s) := by
  have hhandled : ¬(e.code ≠ "P1601" ∧ e.constraint ∉ captureDenials) := by
    rintro ⟨hcode, hconstraint⟩
    rcases hknown with heq | hmem
    · exact hcode heq
    · exact hconstraint hmem
  unfold captureHold
  rw [if_neg (not_le.mpr hlive)]
  unfold Txn.attempt
  rw [hblock]
  dsimp only
  unfold captureHandler
  rw [if_neg hhandled]
  rfl

/-- The audit event of a denial is acceptable. -/
theorem auditDenial_of_code (hscope : sess.Allows p.tenant) (hactor : p.actor = sess.actorId)
    (hfresh : s.audit.find? ids.deniedAudit = none)
    (hcode : code = "expired_capture" ∨ code = "capture_policy_denied") :
    ∃ s', auditDenial sess p (deniedResponse p.target code) clock ids s = .ok ((), s') ∧
      s' = { s with audit := s'.audit } := by
  -- The reason is one of two fixed texts, both short and plain.
  have hreason : PlainEntry "reason" code := by
    rcases hcode with rfl | rfl
    · exact ⟨by decide, by decide, by decide, by decide⟩
    · exact ⟨by decide, by decide, by decide, by decide⟩
  have hplain : ∀ x ∈ [("reason", code)], PlainEntry x.1 x.2 := by
    intro x hx
    rw [List.mem_singleton] at hx
    rw [hx]
    exact hreason
  have hevent : IsAuditName true 128 "hold.capture_denied" := by decide
  have htype : IsAuditName false 64 "hold" := by decide
  -- The rest of the entry is fixed, so that the audit accepts it.
  have houtcome : "failed" ∈ ["allowed", "denied", "succeeded", "failed"] := by decide
  have hfew : 1 ≤ 16 := by decide
  unfold auditDenial
  rw [deniedResponse_code]
  exact controlledAppendAuditV1_of_acceptable [("reason", code)]
    ⟨hscope, congrArg some hactor, hevent, htype, ⟨p.target, rfl⟩, houtcome, rfl, hplain, hfew⟩
    hfresh

/-- A capture that keeps its hold is recorded, and the call returns the rejection. -/
theorem Capturing.returns (hc : Capturing d sess p s h) (hdecision : p.decision = .capture)
    (hfresh : s.audit.find? ids.deniedAudit = none)
    (hcode : code = "expired_capture" ∨ code = "capture_policy_denied")
    (hdenied : captureHold d sess p h clock ids s = .ok (deniedResponse p.target code, s)) :
    ∃ s', controlledDecideHoldV1 d sess p clock ids s = .ok (deniedResponse p.target code, s') := by
  obtain ⟨-, hscope, hactor, -, -, hprevious⟩ := holdCommandExistingV1_ok hc.first
  -- This key was not used before, so that the response can be stored.
  have hunused : s.holdCommands.find? (p.tenant, p.actor, "capture", p.key) = none :=
    Option.map_eq_none_iff.mp hprevious.symm
  have hhold : (s.holds.find? p.target).filter (·.tenantId = p.tenant) = some h := by
    rw [hc.find, Option.filter_some, if_pos (decide_eq_true hc.tenant)]
  obtain ⟨s₂, haudit, hs₂⟩ : ∃ s₂, auditDenial sess p (deniedResponse p.target code) clock ids s =
      .ok ((), s₂) ∧ s₂ = { s with audit := s₂.audit } :=
    auditDenial_of_code hscope hactor hfresh hcode
  -- A denied response leaves the job open.
  have hclose : closeJob p.target (deniedResponse p.target code) s₂ = .ok ((), s₂) := by
    unfold closeJob
    rw [Txn.get_bind, if_pos (deniedResponse_text _ _)]
    rfl
  have happly : applyDecision d sess p h clock ids s = .ok (deniedResponse p.target code, s₂) := by
    unfold applyDecision
    rw [hdecision]
    dsimp only
    rw [Txn.bind_of_ok hdenied, Txn.bind_of_ok haudit]
    rfl
  obtain ⟨commands, hinsert⟩ := Table.exists_insert? (t := s₂.holdCommands)
    (r := ⟨p.tenant, p.actor, "capture", p.key, p.fingerprint d, deniedResponse p.target code⟩)
    (by rw [hs₂]; exact hunused)
  refine ⟨{ s₂ with holdCommands := commands }, ?_⟩
  -- The steps above follow each other in the procedure.
  unfold controlledDecideHoldV1
  rw [hdecision, show HoldDecision.capture.text = "capture" from rfl, Txn.bind_of_ok hc.first]
  dsimp only
  unfold decideHold
  rw [Txn.get_bind, Txn.bind_of_ok (Txn.orRaise_ok.mpr ⟨hhold, rfl⟩),
    Txn.raiseIf_bind_of_neg (not_not.mpr hc.owns), Txn.raiseIf_bind_of_neg (not_not.mpr hc.active),
    Txn.bind_of_ok happly, Txn.bind_of_ok hclose, hdecision]
  simp only [holdCommandStoreV1, insertRow_bind_ok, Txn.pure_ok]
  exact ⟨commands, hinsert, trivial, rfl⟩

end Captures

/-- A denied capture is atomic. From every database, a capture that returns a rejection repeats an
earlier one and changes nothing, or it records one audit event and one command and leaves everything
else as it was. Every denial of the transfer that it submits, by an error or by a rejected outcome,
makes it return the rejection; the other errors of a transfer are those of `transferFaults`. -/
theorem denied_capture_atomic (d : Digest) (sess : Session) (p : HoldDecisionRequest)
    (clock : DecisionClock) (ids : DecisionIds) (s : Db) (hdecision : p.decision = .capture) :
    (∀ r s', controlledDecideHoldV1 d sess p clock ids s = .ok (r, s') →
      r.text? "rejection_code" ≠ none →
      (s' = s ∧ ∃ c, s.holdCommands.find? (p.tenant, p.actor, "capture", p.key) = some c ∧
        r = c.response.merge (.obj [("replayed", .bool true)])) ∨
      ((r = deniedResponse p.target "expired_capture" ∨
        r = deniedResponse p.target "capture_policy_denied") ∧ DenialRecorded s s')) ∧
    (∀ h, Capturing d sess p s h → s.audit.find? ids.deniedAudit = none →
      (h.expiresAt ≤ instant clock.now → ∃ s', controlledDecideHoldV1 d sess p clock ids s =
        .ok (deniedResponse p.target "expired_capture", s')) ∧
      ∀ s₁, instant clock.now < h.expiresAt → releaseForCapture h s = .ok ((), s₁) →
        ((∃ e, controlledSubmitTransferV1 d sess (captureTransfer d p h clock.now) ids.transfer s₁ =
            .error e ∧ e.constraint ∈ transferDenials ∧
            (e.constraint = "controlled_transfer_tenant" →
              s.Bounds (captureTransfer d p h clock.now))) ∨
          ∃ body replayed s₂, controlledSubmitTransferV1 d sess (captureTransfer d p h clock.now)
            ids.transfer s₁ = .ok ((body, replayed), s₂) ∧ body.text? "status" = some "rejected") →
        ∃ s', controlledDecideHoldV1 d sess p clock ids s =
          .ok (deniedResponse p.target "capture_policy_denied", s')) ∧
    (∀ q ids' s₁ e, controlledSubmitTransferV1 d sess q ids' s₁ = .error e →
      e.constraint ∈ transferDenials ∨ e.constraint ∈ transferFaults) := by
  refine ⟨fun r s' => controlledDecideHoldV1_denied hdecision, fun h hc hfresh =>
    ⟨fun hexpired => ?_, fun s₁ hlive hrelease hdenied => ?_⟩,
    fun q ids' => controlledSubmitTransferV1_raises⟩
  · refine hc.returns hdecision hfresh (.inl rfl) ?_
    unfold captureHold
    rw [if_pos hexpired]
    rfl
  · obtain ⟨-, hscope, hactor, -, hrole, -⟩ := holdCommandExistingV1_ok hc.first
    have hsettings : s₁.settings = s.settings := by
      rcases releaseForCapture_ok hrelease with ⟨-, rfl⟩ | ⟨_, _, -, -, rfl⟩
      · rfl
      · rfl
    -- The actor and the role were checked by the command, so the handler knows every denial.
    have hknown : ∀ e, controlledSubmitTransferV1 d sess (captureTransfer d p h clock.now)
        ids.transfer s₁ = .error e → e.constraint ∈ transferDenials →
        (e.constraint = "controlled_transfer_tenant" → s.Bounds (captureTransfer d p h clock.now)) →
        e.constraint ∈ captureDenials := by
      intro e hsubmit hdenial hbounds
      have hdisjoint : ∀ c ∈ transferFaults, c ∉ transferDenials := by decide
      rcases controlledSubmitTransferV1_known hscope hactor (hsettings ▸ hrole) hsubmit with
        (hmem | hfault) | ⟨htenant, houtside⟩
      · exact hmem
      · exact absurd hdenial (hdisjoint _ hfault)
      · exact absurd (releaseForCapture_bounds hrelease (hbounds htenant)) houtside
    obtain ⟨e, hblock, hcode⟩ := captureBlock_error hrelease
      (hdenied.imp_left fun ⟨e, hsubmit, hdenial, hbounds⟩ =>
        ⟨e, hsubmit, hknown e hsubmit hdenial hbounds⟩)
    exact hc.returns hdecision hfresh (.inr rfl) (captureHold_of_error hlive hblock hcode)

namespace Sample

/-- A hold of 200, and after it a transfer of 500, which uses up the rolling limit of 600. -/
def spent : Db := run (exec digest) [openHold, .submitTransfer session
  (request (big 500) fingerprint500 "sample-transfer-02" (hour 0)) (ids 100)] db

/-- The capture of the hold after that transfer. -/
def lateCapture : Except PgError (Json × Db) :=
  controlledDecideHoldV1 digest session captureDecision ⟨hour 0, changeClock (hour 0), hour 0⟩
    ⟨ids 200, changeIds 70, uuid 80⟩ spent

end Sample

/-- A capture beyond the rolling limits is denied, and it leaves an audit event and a command. -/
theorem denied_capture_atomic_sample : ∃ s', Sample.lateCapture =
    .ok (deniedResponse (Sample.uuid 50) "capture_policy_denied", s') ∧
      DenialRecorded Sample.spent s' := by
  -- The late capture of the sample is denied; both facts about it are evaluated here.
  have hrun : Sample.lateCapture.toOption.map (fun r => r.1.text? "rejection_code") =
      some (some "capture_policy_denied") ∧ Sample.spent.holdCommands.find?
        (Sample.tenant, Sample.alice, "capture", Sample.captureDecision.key) = none := by
    decide +kernel
  rcases hlate : Sample.lateCapture with e | ⟨r, s'⟩
  · have hnone := hrun.1
    rw [hlate] at hnone
    cases hnone
  have hcode : r.text? "rejection_code" = some "capture_policy_denied" := by
    have hsome := hrun.1
    rw [hlate] at hsome
    exact Option.some.inj hsome
  have hne : r.text? "rejection_code" ≠ none := by
    rw [hcode]
    exact Option.some_ne_none _
  rcases (denied_capture_atomic Sample.digest Sample.session Sample.captureDecision
    ⟨Sample.hour 0, Sample.changeClock (Sample.hour 0), Sample.hour 0⟩
    -- It is not a replay, as its key is free.
    ⟨Sample.ids 200, Sample.changeIds 70, Sample.uuid 80⟩ Sample.spent rfl).1 r s' hlate hne with
    ⟨-, c, hc, -⟩ | ⟨rfl | rfl, hrecorded⟩
  · cases hrun.2.symm.trans hc
  · rw [deniedResponse_code] at hcode
    exact absurd hcode (by decide)
  · exact ⟨s', rfl, hrecorded⟩

end LedgerSync
