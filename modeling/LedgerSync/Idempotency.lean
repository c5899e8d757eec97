import LedgerSync.Journals

/-!
# Exactly-once transfers

A transfer request reserves its key before anything else is checked, and the reservation is
completed in the same transaction. A stored request stays as it is (`Change.request_kept`), so a key
for which there is one only ever gives its outcome back.

What a later call under the key answers depends on the checks that come before the key is looked up:
the caller's scope and role, the input, and that the fingerprint is the digest of the request. A
call that passes them and has another fingerprint meets the conflict; a call that fails one of them
raises the error of that check.
-/

namespace LedgerSync

open Lib

/-! ## Requests stay -/

section Kept

variable {d : Digest} {c : Call} {s s' : Db}

/-- A request that was stored stays as it is. -/
theorem Change.request_kept (h : Change d s s') {k : Uuid × String × String × String}
    {r : IdempotencyRequest} (hr : s.idempotencyRequests.find? k = some r) :
    s'.idempotencyRequests.find? k = some r := by
  cases h with
  | quiet frame => rw [frame]; exact hr
  | status => exact hr
  | claimed _ frame => rw [frame]; exact hr
  | cleared h frame => rw [frame, h.frame]; exact hr
  | rejected h => exact Table.find?_insert?_of_some h.requests hr
  | posted h => exact Table.find?_insert?_of_some h.requests hr
  | corrected h => rw [h.frame]; exact hr
  | funded h => rw [h.frame]; exact hr
  | reserved h => rw [h.frame]; exact hr
  | returned _ h => rw [h.frame]; exact hr
  | captured h =>
    have heq : s'.idempotencyRequests = h.mid.idempotencyRequests :=
      (congrArg Db.idempotencyRequests h.frame :)
    rw [heq]
    exact Table.find?_insert?_of_some h.posted.requests hr
  | imported h => rw [h.frame]; exact hr

end Kept

/-- A stored request is the same after every history. -/
theorem run_request_kept (d : Digest) (cs : List Call) {s : Db}
    {k : Uuid × String × String × String} {r : IdempotencyRequest}
    (hr : s.idempotencyRequests.find? k = some r) :
    (run (exec d) cs s).idempotencyRequests.find? k = some r :=
  run_invariant (I := fun t : Db => t.idempotencyRequests.find? k = some r)
    (fun _ _ _ _ h hk => (exec_change h).request_kept hk) cs hr

/-! ## Calls under one key -/

/-- A call that returns leaves a completed request under its key, with its fingerprint and the body
that it returned. -/
theorem submit_stored {d : Digest} {sess : Session} {p : TransferRequest} {ids : TransferIds}
    {s s' : Db} {body : Json} {replayed : Bool}
    (h : controlledSubmitTransferV1 d sess p ids s = .ok ((body, replayed), s')) :
    ∃ r, s'.idempotencyRequests.find? p.key = some r ∧ r.responseBody = some body ∧
      r.requestFingerprint = p.requestFingerprint ∧ (r.state = .completed ∨ r.state = .failed) := by
  have hfresh : FreshTransfer p ids s s' body → ∃ r,
      s'.idempotencyRequests.find? p.key = some r ∧ r.responseBody = some body ∧
        r.requestFingerprint = p.requestFingerprint ∧ (r.state = .completed ∨ r.state = .failed) :=
    fun hf => ⟨p.completion ids.transfer body, Table.find?_insert?_self hf.requests rfl, rfl, rfl,
      .inl rfl⟩
  obtain ⟨-, ⟨-, rfl, prior, hprior⟩ | ⟨-, ⟨⟨hrejected⟩⟩ | ⟨⟨hposted⟩⟩⟩⟩ :=
    controlledSubmitTransferV1_ok h
  · exact ⟨prior, hprior.find, hprior.body, hprior.fingerprint, hprior.state⟩
  · exact hfresh hrejected.toFreshTransfer
  · exact hfresh hposted.toFreshTransfer

/-- A call under a stored key that passes the first checks replays the stored body or meets the
conflict. -/
theorem submit_of_stored {d : Digest} {sess : Session} {p : TransferRequest} {ids : TransferIds}
    {s : Db} {r : IdempotencyRequest} {body : Json}
    (hr : s.idempotencyRequests.find? p.key = some r) (hbody : r.responseBody = some body)
    (hstate : r.state = .completed ∨ r.state = .failed) (hguard : Guarded d sess p s) :
    controlledSubmitTransferV1 d sess p ids s =
      if r.requestFingerprint = p.requestFingerprint then .ok ((body, true), s)
      else .error idempotencyConflict := by
  have hpass : guardTransfer d sess p s = .ok ((), s) := guardTransfer_ok.mpr ⟨hguard, rfl⟩
  rw [controlledSubmitTransferV1, Txn.bind_of_ok hpass, Txn.get_bind]
  simp only [hr, replayTransfer]
  split_ifs with hfp
  · rw [Txn.raiseIf_bind_of_neg (not_not.mpr hfp), Txn.orRaise_bind_ok]
    exact ⟨body, hbody, rfl⟩
  · exact Txn.raiseIf_bind_of_pos hfp

/-- A call that fails the first checks raises. -/
theorem submit_of_not_guarded {d : Digest} {sess : Session} {p : TransferRequest}
    {ids : TransferIds} {s : Db} (hguard : ¬Guarded d sess p s) :
    ∃ e, controlledSubmitTransferV1 d sess p ids s = .error e := by
  rcases h : controlledSubmitTransferV1 d sess p ids s with e | ⟨⟨body, replayed⟩, s'⟩
  · exact ⟨e, rfl⟩
  · exact absurd (controlledSubmitTransferV1_ok h).1 hguard

/-- A call under a free key that passes the first checks is a first call. -/
theorem submit_of_free {d : Digest} {sess : Session} {p : TransferRequest} {ids : TransferIds}
    {s : Db} (hfree : s.idempotencyRequests.find? p.key = none) (hguard : Guarded d sess p s) :
    controlledSubmitTransferV1 d sess p ids s = executeTransfer p ids s := by
  have hpass : guardTransfer d sess p s = .ok ((), s) := guardTransfer_ok.mpr ⟨hguard, rfl⟩
  rw [controlledSubmitTransferV1, Txn.bind_of_ok hpass, Txn.get_bind]
  simp only [hfree]

/-! ## At most one transfer under a key -/

/-- The key under which a call submits a transfer: its own, or the one that a capture derives from
its hold. -/
def Call.transferKey? : Call → Option (Uuid × String × String × String)
  | .submitTransfer _ p _ => some p.key
  | .decideHold _ p _ _ =>
    if p.decision = .capture then some (p.tenant, p.actor, transfersCreateV1, captureKey p.target)
    else none
  | _ => none

/-- The transfers that the calls of a history created under a key. -/
def transfersUnder (d : Digest) (k : Uuid × String × String × String) :
    List Call → Db → List Transfer
  | [], _ => []
  | c :: cs, s =>
    (if c.transferKey? = some k then
      (commit (exec d c) s).transfers.rows.filter fun x => (s.transfers.find? x.id).isNone
    else []) ++ transfersUnder d k cs (commit (exec d c) s)

/-- The rows of a table that has not changed are not new. -/
theorem newRows_same (t : Table Transfer.id) :
    (t.rows.filter fun x => (t.find? x.id).isNone) = [] := by
  rw [List.filter_eq_nil_iff]
  intro x hx
  simp [Table.find?_eq_some.mpr ⟨hx, rfl⟩]

/-- One insertion makes one new row. -/
theorem newRows_insert {t t' : Table Transfer.id} {x : Transfer} (h : t.insert? x = some t') :
    (t'.rows.filter fun y => (t.find? y.id).isNone) = [x] := by
  obtain ⟨hnone, hrows⟩ := Table.insert?_eq_some.mp h
  rw [hrows, List.filter_cons, newRows_same]
  simp [hnone]

/-- A call under a key either creates no transfer, or the key was free and is taken afterwards, by
one transfer. -/
theorem commit_under_key {d : Digest} {c : Call} {s : Db} {k : Uuid × String × String × String}
    (hk : c.transferKey? = some k) :
    (((commit (exec d c) s).transfers.rows.filter fun x => (s.transfers.find? x.id).isNone) = []) ∨
      (s.idempotencyRequests.find? k = none ∧
        (∃ r, (commit (exec d c) s).idempotencyRequests.find? k = some r) ∧
        ((commit (exec d c) s).transfers.rows.filter
          fun x => (s.transfers.find? x.id).isNone).length = 1) := by
  have hkeep : ∀ s' : Db, s'.transfers = s.transfers →
      (s'.transfers.rows.filter fun x => (s.transfers.find? x.id).isNone) = [] := fun s' heq => by
    rw [heq]
    exact newRows_same _
  -- A call that raises adds no row.
  rcases commit_cases (exec d c) s with heq | ⟨u, hret⟩
  · rw [heq]
    exact .inl (hkeep s rfl)
  generalize commit (exec d c) s = s' at hret ⊢
  have heffect := exec_effect hret
  cases heffect with
  | none => exact .inl (hkeep s rfl)
  -- The key was free, as the transfer inserted it, and is taken now.
  | rejectedTransfer _ h =>
    cases hk
    exact .inr ⟨(Table.insert?_eq_some.mp h.requests).1,
      ⟨_, Table.find?_insert?_self h.requests rfl⟩, by rw [newRows_insert h.transfers]; rfl⟩
  | postedTransfer _ h =>
    cases hk
    exact .inr ⟨(Table.insert?_eq_some.mp h.requests).1,
      ⟨_, Table.find?_insert?_self h.requests rfl⟩, by rw [newRows_insert h.transfers]; rfl⟩
  | releasedHold h => exact .inl (hkeep s' (by rw [h.frame]))
  | deniedCapture frame => exact .inl (hkeep s' (by rw [frame]))
  | capturedHold h =>
    have hrequests : s'.idempotencyRequests = h.mid.idempotencyRequests :=
      (congrArg Db.idempotencyRequests h.frame :)
    have htransfers : s'.transfers = h.mid.transfers := (congrArg Db.transfers h.frame :)
    rw [Call.transferKey?, Option.ite_none_right_eq_some, Option.some.injEq] at hk
    obtain ⟨-, rfl⟩ := hk
    rw [hrequests, htransfers]
    exact .inr ⟨(Table.insert?_eq_some.mp h.posted.requests).1,
      ⟨_, Table.find?_insert?_self h.posted.requests rfl⟩,
      by rw [newRows_insert h.posted.transfers]; rfl⟩
  | _ => cases hk

/-- Under a taken key, no history creates a transfer. -/
theorem transfersUnder_of_taken (d : Digest) (k : Uuid × String × String × String) (cs : List Call)
    {s : Db} {r : IdempotencyRequest} (hr : s.idempotencyRequests.find? k = some r) :
    transfersUnder d k cs s = [] := by
  induction cs generalizing s with
  | nil => rfl
  | cons c cs ih =>
    rw [transfersUnder, ih (commit_invariant
      (I := fun t : Db => t.idempotencyRequests.find? k = some r)
      (fun _ _ h hk => (exec_change h).request_kept hk) hr), List.append_nil]
    split_ifs with hk
    · rcases commit_under_key (d := d) (s := s) hk with hnone | ⟨hfree, -⟩
      · exact hnone
      · cases hr.symm.trans hfree
    · rfl

/-- Every history creates at most one transfer under each key. -/
theorem length_transfersUnder_le (d : Digest) (k : Uuid × String × String × String)
    (cs : List Call) (s : Db) : (transfersUnder d k cs s).length ≤ 1 := by
  induction cs generalizing s with
  | nil => exact Nat.zero_le 1
  | cons c cs ih =>
    rw [transfersUnder]
    split_ifs with hk
    · rcases commit_under_key (d := d) (s := s) hk with hnone | ⟨-, ⟨r, hr⟩, hone⟩
      · rw [hnone, List.nil_append]
        exact ih _
      · rw [transfersUnder_of_taken d k cs hr, List.append_nil, hone]
    · exact ih _

/-! ## The law of retries -/

/-- For every history of calls: at most one transfer is ever created under a key. Once a call under
a key has returned, every later returning call under it gives the same stored body back as a replay
and changes nothing, whatever calls came between; a later call with another fingerprint raises, and
its error is the idempotency conflict when it passes the checks that come before the key is looked
up. A call that raises changes nothing, so under a free key a later call is a first call. -/
theorem exactly_once (d : Digest) (s₀ : Db) (cs : List Call) :
    (∀ k, (transfersUnder d k cs s₀).length ≤ 1) ∧
    (∀ sess p ids body replayed s₁,
      controlledSubmitTransferV1 d sess p ids (run (exec d) cs s₀) = .ok ((body, replayed), s₁) →
      ∀ cs' sess' p' ids', p'.key = p.key →
        (∀ body' replayed' s₂,
          controlledSubmitTransferV1 d sess' p' ids' (run (exec d) cs' s₁) =
            .ok ((body', replayed'), s₂) →
          body' = body ∧ replayed' = true ∧ s₂ = run (exec d) cs' s₁ ∧
          ∃ r, s₁.idempotencyRequests.find? p.key = some r ∧ r.responseBody = some body) ∧
        (p'.requestFingerprint ≠ p.requestFingerprint →
          ∃ e, controlledSubmitTransferV1 d sess' p' ids' (run (exec d) cs' s₁) = .error e ∧
            (Guarded d sess' p' (run (exec d) cs' s₁) → e = idempotencyConflict))) ∧
    (∀ sess p ids e,
      controlledSubmitTransferV1 d sess p ids (run (exec d) cs s₀) = .error e →
      commit (exec d (.submitTransfer sess p ids)) (run (exec d) cs s₀) = run (exec d) cs s₀ ∧
      ((run (exec d) cs s₀).idempotencyRequests.find? p.key = none → ∀ sess' p' ids',
        p'.key = p.key → Guarded d sess' p' (run (exec d) cs s₀) →
        controlledSubmitTransferV1 d sess' p' ids' (run (exec d) cs s₀) =
          executeTransfer p' ids' (run (exec d) cs s₀))) := by
  refine ⟨fun k => length_transfersUnder_le d k cs s₀, ?_, ?_⟩
  -- The outcome is stored under the key and stays there.
  · intro sess p ids body replayed s₁ hfirst cs' sess' p' ids' hkey
    obtain ⟨r, hr, hbody, hfp, hstate⟩ := submit_stored hfirst
    have hlater : (run (exec d) cs' s₁).idempotencyRequests.find? p'.key = some r := by
      rw [hkey]
      exact run_request_kept d cs' hr
    -- Every later call under the key reads the stored outcome.
    constructor
    · intro body' replayed' s₂ hret
      have hguard := (controlledSubmitTransferV1_ok hret).1
      rw [submit_of_stored hlater hbody hstate hguard] at hret
      split_ifs at hret
      cases hret
      exact ⟨rfl, rfl, rfl, r, hr, hbody⟩
    -- Another fingerprint is refused, unless the guards refuse the call before.
    · intro hne
      by_cases hguard : Guarded d sess' p' (run (exec d) cs' s₁)
      · refine ⟨idempotencyConflict, ?_, fun _ => rfl⟩
        rw [submit_of_stored hlater hbody hstate hguard, if_neg]
        rw [hfp]
        exact hne.symm
      · obtain ⟨e, he⟩ := @submit_of_not_guarded _ _ _ ids' _ hguard
        exact ⟨e, he, fun h => absurd h hguard⟩
  -- An error leaves the state, and under a free key the next call executes.
  · intro sess p ids e herror
    refine ⟨commit_of_error (e := e) ?_, fun hfree sess' p' ids' hkey hguard => ?_⟩
    · exact Txn.bind_of_error herror
    · exact submit_of_free (by rw [hkey]; exact hfree) hguard

/-- A transfer of another amount under the key of the sample's transfer. -/
def Sample.otherTransfer : TransferRequest :=
  request (big 200) fingerprint200 "sample-transfer-01" (hour 1)

/-- The sample's transfer, after which its actor loses the role. -/
def Sample.revoked : List Call :=
  [transfer, .configure { settings with subjectRoles := [] }]

/-- The first call under the key returns, and a second one with another fingerprint meets the
conflict. -/
theorem exactly_once_sample : ∃ body replayed s₁,
    controlledSubmitTransferV1 Sample.digest Sample.session Sample.transferRequest
      (Sample.ids 100) (run (exec Sample.digest) [] Sample.db) = .ok ((body, replayed), s₁) ∧
    controlledSubmitTransferV1 Sample.digest Sample.session Sample.otherTransfer
      (Sample.ids 200) (run (exec Sample.digest) [] s₁) = .error idempotencyConflict := by
  -- The first transfer of the sample returns in a state where the second passes the guards.
  have hret : (match controlledSubmitTransferV1 Sample.digest Sample.session Sample.transferRequest
      (Sample.ids 100) Sample.db with
    | .ok (_, s₁) => decide (Sample.tenant ∈ s₁.settings.tenants ∧
        s₁.settings.HasRole Sample.tenant Sample.alice [.operator, .finance])
    | .error _ => false) = true := by decide +kernel
  have hinput : Sample.session.Allows Sample.tenant ∧ Sample.otherTransfer.WellFormed ∧
      Sample.otherTransfer.requestFingerprint =
        Sample.digest.sha256 Sample.otherTransfer.canonical := by decide +kernel
  rcases hfirst : controlledSubmitTransferV1 Sample.digest Sample.session Sample.transferRequest
      (Sample.ids 100) Sample.db with e | ⟨⟨body, replayed⟩, s₁⟩
  · rw [hfirst] at hret
    cases hret
  rw [hfirst] at hret
  obtain ⟨htenant, hrole⟩ := of_decide_eq_true hret
  have hguarded : Guarded Sample.digest Sample.session Sample.otherTransfer s₁ :=
    ⟨hinput.1, rfl, hinput.2.1, hinput.2.2, htenant, hrole⟩
  obtain ⟨e, he, hconflict⟩ := (((exactly_once Sample.digest Sample.db []).2.1 _ _ _ _ _ _
    hfirst) [] Sample.session Sample.otherTransfer (Sample.ids 200) rfl).2 (by decide)
  exact ⟨body, replayed, s₁, hfirst, he.trans (congrArg _ (hconflict hguarded))⟩

/-- After the caller's role is taken away, a call with another fingerprint under a used key raises
the error of the role check instead of the conflict. -/
theorem conflict_after_revoked_role :
    Sample.otherTransfer.key = Sample.transferRequest.key ∧
    Sample.otherTransfer.requestFingerprint ≠ Sample.transferRequest.requestFingerprint ∧
    (∃ r, (run (exec Sample.digest) Sample.revoked Sample.db).idempotencyRequests.find?
      Sample.otherTransfer.key = some r ∧
        r.requestFingerprint = Sample.transferRequest.requestFingerprint) ∧
    ∃ e, controlledSubmitTransferV1 Sample.digest Sample.session Sample.otherTransfer
        (Sample.ids 200) (run (exec Sample.digest) Sample.revoked Sample.db) = .error e ∧
      e ≠ idempotencyConflict := by
  have hstored : (((run (exec Sample.digest) Sample.revoked Sample.db).idempotencyRequests.find?
      Sample.otherTransfer.key).map IdempotencyRequest.requestFingerprint) =
      some Sample.transferRequest.requestFingerprint := by decide +kernel
  have hraised : (match controlledSubmitTransferV1 Sample.digest Sample.session
      Sample.otherTransfer (Sample.ids 200) (run (exec Sample.digest) Sample.revoked Sample.db) with
    | .ok _ => none
    | .error e => some e) = some ⟨"42501", "controlled_transfer_actor",
      "controlled transfer actor is not authorized"⟩ := by decide +kernel
  refine ⟨rfl, by decide, Option.map_eq_some_iff.mp hstored, ?_⟩
  rcases hexec : controlledSubmitTransferV1 Sample.digest Sample.session Sample.otherTransfer
      (Sample.ids 200) (run (exec Sample.digest) Sample.revoked Sample.db) with e | r
  · rw [hexec, Option.some.injEq] at hraised
    exact ⟨e, rfl, by rw [hraised]; decide⟩
  · rw [hexec] at hraised
    cases hraised

end LedgerSync
