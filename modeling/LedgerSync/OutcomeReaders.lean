import LedgerSync.LiveRooms
import LedgerSync.Reconciliation

/-!
# Three readers of an outcome

The outcome of a transfer request with a reference is read in three ways: by the status of the
request, which joins the transfer that the stored answer names; by the status that the live rooms
read, from the stored answer alone; and by a recovery, which joins an intent and an outcome by their
key. The first two look the request up by its reference, and the third looks the intent up by it. So
the third agrees with the others as long as an intent and an outcome with one reference have one key
(`outcome_readers_agree`). Saving an intent does not look whether the reference has an outcome under
another key, nor does a submission look at the intents.
-/

namespace LedgerSync

open Lib

/-! ## Casting the text of an identifier -/

section Cast

/-- One pair of digits is read. -/
theorem uuidBytes_cons {n acc high low : ℕ} {x y : Char} {cs : List Char}
    (hx : hexValue? x = some high) (hy : hexValue? y = some low) :
    uuidBytes (n + 1) acc (x :: y :: cs) = uuidBytes n (acc * 256 + (high * 16 + low))
      (if n % 2 = 0 ∧ n ≠ 0 ∧ cs.head? = some '-' then cs.tail else cs) := by
  simp [uuidBytes, hx, hy]

/-- The digits of a number and what follows them are read, with a hyphen after them where it is
allowed. -/
theorem uuidBytes_digits {k n acc v : ℕ} {ds rest : List Char} (hlength : ds.length = 2 * k + 2)
    (hds : ∀ c ∈ ds, c ≠ '-') (hv : ofHexDigits? ds = some v) :
    uuidBytes (n + k + 1) acc (ds ++ rest) = uuidBytes n (acc * 256 ^ (k + 1) + v)
      (if n % 2 = 0 ∧ n ≠ 0 ∧ rest.head? = some '-' then rest.tail else rest) := by
  -- The induction is on the pairs of digits, each of which gives one byte.
  induction k generalizing ds acc v with
  | zero =>
    obtain ⟨x, y, rfl⟩ := List.length_eq_two.mp hlength
    simp only [ofHexDigits?, Option.bind_eq_bind, Option.bind_eq_some_iff, Option.pure_def,
      Option.some.injEq] at hv
    obtain ⟨high, hx, -, ⟨low, hy, -, rfl, rfl⟩, rfl⟩ := hv
    have hread := @uuidBytes_cons n acc _ _ _ _ rest hx hy
    simpa using hread
  | succ k ih =>
    rcases ds with _ | ⟨x, _ | ⟨y, ds⟩⟩
    · simp at hlength
    · simp at hlength
    have hlength' : ds.length = 2 * k + 2 := by
      simp only [List.length_cons] at hlength
      omega
    simp only [ofHexDigits?, Option.bind_eq_bind, Option.bind_eq_some_iff, Option.pure_def,
      Option.some.injEq] at hv
    obtain ⟨high, hx, -, ⟨low, hy, r, hr, rfl⟩, rfl⟩ := hv
    obtain ⟨z, zs, rfl⟩ : ∃ z zs, ds = z :: zs := List.exists_cons_of_length_pos (by omega)
    have hz : (z :: zs ++ rest).head? ≠ some '-' := by
      simpa using hds z (by simp)
    -- No hyphen stands within the digits, so that none is skipped.
    have hskip : ¬((n + k + 1) % 2 = 0 ∧ n + k + 1 ≠ 0 ∧ (z :: zs ++ rest).head? = some '-') :=
      fun h => hz h.2.2
    show uuidBytes (n + k + 1 + 1) acc (x :: y :: (z :: zs ++ rest)) = _
    rw [uuidBytes_cons hx hy, if_neg hskip, ih hlength' (fun c hc => hds c (by simp [hc])) hr,
      List.length_cons, hlength']
    -- A pair of hexadecimal digits is one digit in base 256.
    have hpow : 16 ^ (2 * k + 2) = 256 ^ (k + 1) := by
      rw [show 2 * k + 2 = 2 * (k + 1) by ring, pow_mul]
      norm_num
    congr 1
    rw [pow_succ 16, hpow, pow_succ 256 (k + 1)]
    ring

/-- Digits behind digits are the number of both. -/
theorem ofHexDigits?_append {ds es : List Char} {v w : ℕ} (hv : ofHexDigits? ds = some v)
    (hw : ofHexDigits? es = some w) : ofHexDigits? (ds ++ es) = some (v * 16 ^ es.length + w) := by
  induction ds generalizing v with
  | nil =>
    cases hv
    simpa using hw
  | cons c ds ih =>
    simp only [ofHexDigits?, Option.bind_eq_bind, Option.bind_eq_some_iff, Option.pure_def,
      Option.some.injEq] at hv
    obtain ⟨x, hx, r, hr, rfl⟩ := hv
    simp only [List.cons_append, ofHexDigits?, hx, ih hr, List.length_append, Option.bind_eq_bind,
      Option.bind_some, Option.pure_def, Option.some.injEq, pow_add]
    ring

/-- Every text of hexadecimal digits denotes a number. -/
theorem exists_ofHexDigits? {ds : List Char} (h : ∀ c ∈ ds, ∃ d < 16, c = Nat.digitChar d) :
    ∃ v, ofHexDigits? ds = some v := by
  induction ds with
  | nil => exact ⟨0, rfl⟩
  | cons c ds ih =>
    obtain ⟨d, hd, rfl⟩ := h c List.mem_cons_self
    obtain ⟨r, hr⟩ := ih fun x hx => h x (List.mem_cons_of_mem _ hx)
    exact ⟨_, by simp [ofHexDigits?, hexValue?_digitChar hd, hr]; rfl⟩

/-- A text without braces is cast to the identifier of its bytes. -/
theorem castUuid_of_uuidBytes {s : String} {u : Uuid} (hbrace : '\x7b' ∉ s.toList)
    (h : uuidBytes 16 0 s.toList = some (u.toNat, [])) : castUuid s = some u := by
  unfold castUuid
  generalize s.toList = cs at hbrace h
  split
  next cs' stop hmatch =>
    split at hmatch
    · exact absurd List.mem_cons_self hbrace
    · obtain ⟨rfl, rfl⟩ := Prod.mk.inj hmatch
      have hlt := u.isLt
      simpa [h] using hlt

/-- The text of an identifier is cast to the identifier. -/
theorem castUuid_text (u : Uuid) : castUuid u.text = some u := by
  have hall := ofHexDigits?_hexDigits 32 u.toNat
  rw [Nat.mod_eq_of_lt (by simpa using u.isLt)] at hall
  have hdigits : ∀ c ∈ hexDigits 32 u.toNat, ∃ d < 16, c = Nat.digitChar d := fun c hc =>
    mem_hexDigits hc
  -- the digits in five groups
  obtain ⟨g₁, g₂, g₃, g₄, g₅, hgroups, h₁, h₂, h₃, h₄, h₅, htext⟩ : ∃ g₁ g₂ g₃ g₄ g₅ : List Char,
      hexDigits 32 u.toNat = g₁ ++ (g₂ ++ (g₃ ++ (g₄ ++ g₅))) ∧ g₁.length = 8 ∧ g₂.length = 4 ∧
        g₃.length = 4 ∧ g₄.length = 4 ∧ g₅.length = 12 ∧ u.text.toList =
          g₁ ++ '-' :: (g₂ ++ '-' :: (g₃ ++ '-' :: (g₄ ++ '-' :: g₅))) := by
    generalize hd : hexDigits 32 u.toNat = d
    have hlength : d.length = 32 := by rw [← hd, length_hexDigits]
    refine ⟨d.take 8, (d.drop 8).take 4, (d.drop 12).take 4, (d.drop 16).take 4, d.drop 20, ?_, ?_,
      ?_, ?_, ?_, ?_, ?_⟩
    · have hjoin : ∀ i j, (d.drop i).take j ++ d.drop (i + j) = d.drop i := fun i j => by
        rw [← List.drop_drop, List.take_append_drop]
      rw [hjoin 16 4, hjoin 12 4, hjoin 8 4, List.take_append_drop]
    · simp [hlength]
    · simp [hlength]
    · simp [hlength]
    · simp [hlength]
    · simp [hlength]
    · simp [Uuid.text, hd]
  rw [hgroups] at hdigits hall
  simp only [List.mem_append] at hdigits
  obtain ⟨v₁, hv₁⟩ := exists_ofHexDigits? fun c hc => hdigits c (.inl hc)
  obtain ⟨v₂, hv₂⟩ := exists_ofHexDigits? fun c hc => hdigits c (.inr (.inl hc))
  obtain ⟨v₃, hv₃⟩ := exists_ofHexDigits? fun c hc => hdigits c (.inr (.inr (.inl hc)))
  obtain ⟨v₄, hv₄⟩ := exists_ofHexDigits? fun c hc => hdigits c (.inr (.inr (.inr (.inl hc))))
  obtain ⟨v₅, hv₅⟩ := exists_ofHexDigits? fun c hc => hdigits c (.inr (.inr (.inr (.inr hc))))
  have hfree : ∀ g : List Char, (∀ c ∈ g, ∃ d < 16, c = Nat.digitChar d) → ∀ c ∈ g, c ≠ '-' := by
    intro g hg c hc
    obtain ⟨d, hd, rfl⟩ := hg c hc
    interval_cases d <;> decide
  have hvalue : u.toNat =
      v₁ * 16 ^ 24 + (v₂ * 16 ^ 20 + (v₃ * 16 ^ 16 + (v₄ * 16 ^ 12 + v₅))) := by
    have hread := ofHexDigits?_append hv₁ (ofHexDigits?_append hv₂ (ofHexDigits?_append hv₃
      (ofHexDigits?_append hv₄ hv₅)))
    simp only [List.length_append, h₂, h₃, h₄, h₅] at hread
    exact Option.some.inj (hall.symm.trans hread)
  have hread : uuidBytes 16 0 u.text.toList = some (u.toNat, []) := by
    rw [htext, uuidBytes_digits (k := 3) (n := 12) h₁ (hfree g₁ fun c hc => hdigits c (.inl hc)) hv₁,
      if_pos ⟨rfl, by decide, rfl⟩, List.tail_cons,
      uuidBytes_digits (k := 1) (n := 10) h₂ (hfree g₂ fun c hc => hdigits c (.inr (.inl hc))) hv₂,
      if_pos ⟨rfl, by decide, rfl⟩, List.tail_cons,
      uuidBytes_digits (k := 1) (n := 8) h₃ (hfree g₃ fun c hc => hdigits c (.inr (.inr (.inl hc))))
        hv₃, if_pos ⟨rfl, by decide, rfl⟩, List.tail_cons,
      uuidBytes_digits (k := 1) (n := 6) h₄
        (hfree g₄ fun c hc => hdigits c (.inr (.inr (.inr (.inl hc))))) hv₄,
      if_pos ⟨rfl, by decide, rfl⟩, List.tail_cons, ← List.append_nil g₅,
      uuidBytes_digits (k := 5) (n := 0) h₅
        (hfree g₅ fun c hc => hdigits c (.inr (.inr (.inr (.inr hc))))) hv₅, if_neg (by decide),
      uuidBytes, hvalue]
    norm_num
    ring
  exact castUuid_of_uuidBytes (u.not_mem_text (by decide)) hread

end Cast

/-! ## The status of a request -/

/-- `^[0-9a-f-]{36}$`. -/
def IsUuidText (s : String) : Prop :=
  s.toList.length = 36 ∧ ∀ c ∈ s.toList, c.isDigit = true ∨ ('a' ≤ c ∧ c ≤ 'f') ∨ c = '-'

/-- Whether a text is one of an identifier can be decided. -/
instance decidableIsUuidText (s : String) : Decidable (IsUuidText s) :=
  inferInstanceAs (Decidable (_ ∧ ∀ c ∈ _, _))

/-- The errors of `TransferRequestStatus`. -/
inductive StatusError where
  | liveRoomNotFound
  | read (e : PgError)

/-- The transfer that is joined to a request: the one of the tenant that the stored answer names. -/
def RecoveryDb.joinedTransfer (s : RecoveryDb) (r : IdempotencyRequest) :
    Except StatusError (Option Transfer) :=
  match r.responseBody.bind (·.text? "transfer_id") with
  | none => .ok none
  | some id =>
    if IsUuidText id then
      match castUuid id with
      | none => .error (.read ⟨"22P02", "", "invalid input syntax for type uuid"⟩)
      | some u => .ok ((s.db.transfers.find? u).filter (·.tenantId = r.tenantId))
    else .ok none

/-- `TransferRequestStatus`. -/
def transferRequestStatus (s : RecoveryDb) (tenant : Uuid) (actor reference : String)
    (checkedAt : Instant) : Except StatusError TransferRequestStatus :=
  match normalizeRequestReference reference with
  | none => .error .liveRoomNotFound
  | some reference =>
    if trimSpace actor = "" then .error .liveRoomNotFound
    else match s.requestBy? tenant actor reference with
      | none => .error .liveRoomNotFound
      | some r => do
        let transfer ← s.joinedTransfer r
        let transferStatus := (transfer.map (·.status.text)).getD ""
        let bodyStatus := (r.responseBody.bind (·.text? "status")).getD ""
        let bodyTransfer := (r.responseBody.bind (·.text? "transfer_id")).getD ""
        let result : RequestStatus × String :=
          if transferStatus = "posted" ∨ bodyStatus = "posted" then (.completed, toLower bodyTransfer)
          else (.unavailable, "")
        let result :=
          if transferStatus = "rejected" ∨ bodyStatus = "rejected" then (.rejected, "") else result
        let status :=
          if r.state = .inProgress then
            if checkedAt < r.expiresAt then RequestStatus.inProgress else .expired
          else result.1
        .ok ⟨reference, status, result.2, checkedAt⟩

/-! ## What a request records -/

/-- The outcome of a transfer as the status of its request. -/
def Transfer.report (x : Transfer) : RequestStatus × String :=
  match x.status with
  | .posted => (.completed, x.id.text)
  | .rejected => (.rejected, "")
  | .pending => (.unavailable, "")

/-- A request has the outcome of a transfer. -/
structure IdempotencyRequest.Records (r : IdempotencyRequest) (x : Transfer) : Prop where
  state : r.state = .completed
  operation : r.operation = transfersCreateV1
  tenant : x.tenantId = r.tenantId
  decided : x.status = .posted ∨ x.status = .rejected
  transfer : r.responseBody.bind (·.text? "transfer_id") = some x.id.text
  status : r.responseBody.bind (·.text? "status") = some x.status.text

/-- Every request has the outcome of a stored transfer. -/
def Db.Recorded (s : Db) : Prop :=
  ∀ r ∈ s.idempotencyRequests, ∃ x, s.transfers.find? x.id = some x ∧ r.Records x

section Recorded

variable {d : Digest} {s s' : Db}

/-- The outcome of a new transfer records it. -/
theorem FreshTransfer.records {p : TransferRequest} {ids : TransferIds} {body : Json}
    (h : FreshTransfer p ids s s' body) {x : Transfer} (htenant : x.tenantId = h.row.tenantId)
    (hid : x.id = h.row.id) (hdecided : x.status = .posted ∨ x.status = .rejected)
    (htransfer : body.text? "transfer_id" = some ids.transfer.text)
    (hstatus : body.text? "status" = some x.status.text) :
    (p.completion ids.transfer body).Records x := by
  obtain ⟨hrow, htenant', -⟩ := pendingTransfer?_eq_some h.row_eq
  exact ⟨rfl, rfl, htenant.trans htenant', hdecided, by rw [hid, hrow]; exact htransfer, hstatus⟩

/-- Every command keeps that. -/
theorem Change.recorded (h : Change d s s') (hs : s.Recorded) : s'.Recorded := by
  -- a request that was there keeps its transfer
  have hkept : ∀ r ∈ s.idempotencyRequests, ∃ x, s'.transfers.find? x.id = some x ∧ r.Records x := by
    intro r hr
    obtain ⟨x, hx, hrecords⟩ := hs r hr
    exact ⟨x, h.transfer_kept hx, hrecords⟩
  have hsame : s'.idempotencyRequests = s.idempotencyRequests → s'.Recorded := fun heq r hr =>
    hkept r (heq ▸ hr)
  have hnew : ∀ {p : TransferRequest} {ids : TransferIds} {body : Json} {x : Transfer}
      (t : Table IdempotencyRequest.key),
      s.idempotencyRequests.insert? (p.completion ids.transfer body) = some t →
      s'.idempotencyRequests = t → s'.transfers.find? x.id = some x →
      (p.completion ids.transfer body).Records x → s'.Recorded := by
    intro p ids body x t hinsert heq hx hrecords r hr
    rw [heq] at hr
    rcases (Table.mem_insert? hinsert).mp hr with rfl | hr
    · exact ⟨x, hx, hrecords⟩
    · exact hkept r hr
  cases h with
  | quiet frame => exact hsame (by rw [frame])
  | status => exact hsame rfl
  | claimed _ frame => exact hsame (by rw [frame])
  | cleared h frame => exact hsame (by rw [frame, h.frame])
  | rejected h =>
    refine hnew _ h.requests rfl (Table.find?_insert?_self h.transfers rfl) ?_
    exact h.toFreshTransfer.records rfl rfl (.inr rfl)
      (congrArg (Json.text? · "transfer_id") h.body_eq) (congrArg (Json.text? · "status") h.body_eq)
  | posted h =>
    refine hnew _ h.requests rfl (Table.find?_insert?_self h.transfers rfl) ?_
    exact h.toFreshTransfer.records rfl rfl (.inl rfl)
      (congrArg (Json.text? · "transfer_id") h.body_eq) (congrArg (Json.text? · "status") h.body_eq)
  | corrected h => exact hsame (by rw [h.frame])
  | funded h => exact hsame (by rw [h.frame])
  | reserved h => exact hsame (by rw [h.frame])
  | returned _ h => exact hsame (by rw [h.frame])
  | captured h =>
    have heq : s'.idempotencyRequests = h.mid.idempotencyRequests :=
      (congrArg Db.idempotencyRequests h.frame :)
    have htransfers : s'.transfers = h.mid.transfers := (congrArg Db.transfers h.frame :)
    have hstored := Table.find?_insert?_self h.posted.transfers rfl
    rw [← htransfers] at hstored
    refine hnew _ h.posted.requests heq hstored ?_
    exact h.posted.toFreshTransfer.records rfl rfl (.inl rfl)
      (congrArg (Json.text? · "transfer_id") h.posted.body_eq)
      (congrArg (Json.text? · "status") h.posted.body_eq)
  | imported h => exact hsame (by rw [h.frame])

end Recorded

/-! ## Reading an outcome -/

section Readers

variable {s : RecoveryDb} {r : IdempotencyRequest} {x : Transfer} {tenant reference : Uuid}
  {actor text : String}

/-- The text of an identifier is in lower case. -/
theorem toLower_text (u : Uuid) : toLower u.text = u.text := by
  have hlower : ∀ c ∈ u.text.toList, lowerLetter c = c := by
    intro c hc
    rcases Uuid.mem_text hc with rfl | ⟨d, hd, rfl⟩
    · decide
    · interval_cases d <;> decide
  rw [toLower, List.map_congr_left hlower, List.map_id', String.ofList_toList]

/-- The text of an identifier is one. -/
theorem isUuidText_text (u : Uuid) : IsUuidText u.text := by
  refine ⟨u.length_text, fun c hc => ?_⟩
  rcases Uuid.mem_text hc with rfl | ⟨d, hd, rfl⟩
  · decide
  · interval_cases d <;> decide

/-- The transfer that a request records is joined to it. -/
theorem IdempotencyRequest.Records.joined (h : r.Records x)
    (hx : s.db.transfers.find? x.id = some x) : s.joinedTransfer r = .ok (some x) := by
  unfold RecoveryDb.joinedTransfer
  simp only [h.transfer, if_pos (isUuidText_text x.id), castUuid_text, hx, Option.filter_some,
    decide_eq_true h.tenant, if_true]

/-- The status of a request with an outcome. -/
theorem IdempotencyRequest.Records.transferRequestStatus (h : r.Records x)
    (hx : s.db.transfers.find? x.id = some x) (hr : s.requestBy? tenant actor reference = some r)
    (htext : normalizeRequestReference text = some reference) (hactor : trimSpace actor ≠ "")
    (checkedAt : Instant) :
    LedgerSync.transferRequestStatus s tenant actor text checkedAt =
      .ok ⟨reference, x.report.1, x.report.2, checkedAt⟩ := by
  have hstate : ¬r.state = .inProgress := by
    rw [h.state]
    exact RequestState.noConfusion
  unfold LedgerSync.transferRequestStatus
  simp only [htext, if_neg hactor, hr, h.joined hx, h.status, h.transfer, if_neg hstate,
    Option.map_some, Option.getD_some, bind, Except.bind, or_self]
  rcases h.decided with hposted | hrejected
  · have hnot : ¬("posted" = "rejected") := by decide
    simp only [hposted, TransferStatus.text, if_neg hnot, if_true, toLower_text, Transfer.report]
  · simp only [hrejected, TransferStatus.text, if_true, Transfer.report]

/-- The status of a request with an outcome, as the live rooms read it. -/
theorem IdempotencyRequest.Records.transferRequestStatusWithQuerier (h : r.Records x)
    (hr : s.requestBy? tenant actor reference = some r) (when' : Instant) :
    LedgerSync.transferRequestStatusWithQuerier s tenant actor reference when' =
      some ⟨reference, x.report.1, x.report.2, when'⟩ := by
  have hstate : ¬r.state = .inProgress := by
    rw [h.state]
    exact RequestState.noConfusion
  have hsame : r.authoritative when' = x.report := by
    unfold IdempotencyRequest.authoritative Transfer.report
    rw [if_neg hstate, h.status]
    rcases h.decided with hposted | hrejected
    · rw [hposted]
      simp only [TransferStatus.text, h.transfer, Option.getD_some, toLower_text]
    · rw [hrejected]
      rfl
  unfold LedgerSync.transferRequestStatusWithQuerier
  rw [hr, Option.map_some, hsame]

/-- An intent that is joined to the outcome of a transfer is shown with it. -/
theorem IdempotencyRequest.Records.view (h : r.Records x) (i : RecoveryIntent) :
    (i.view (some r)).state = x.status.text ∧ (i.view (some r)).transferId = x.id.text := by
  constructor
  · simp only [RecoveryIntent.view, shownState, h.state, true_or, if_true, h.status, Option.getD_some]
  · simp only [RecoveryIntent.view, Option.bind_some, h.transfer, Option.getD_some]

end Readers

/-! ## References and keys -/

/-- An intent and an outcome of one actor with one reference have one key. -/
def RecoveryDb.OneKey (s : RecoveryDb) : Prop :=
  ∀ i ∈ s.intents, ∀ y ∈ s.references, y.reference = i.requestReference →
    y.request.1 = i.tenantId → y.request.2.1 = i.actorSubjectId → y.request = i.requestKey

/-- A call keeps intents and outcomes with one reference under one key: it submits with a reference
under the key of the intent that has the reference, if there is one, and saves an intent under the
key of the outcome that has its reference, if there is one. -/
def RecoveryCall.KeepsKey (c : RecoveryCall) (s : RecoveryDb) : Prop :=
  match c with
  | .command _ => True
  | .submit _ p _ reference => ∀ i ∈ s.intents,
      i.key = (p.tenantId, p.actorSubjectId, reference) → i.idempotencyKey = p.idempotencyKey
  | .prepare _ p _ => ∀ y ∈ s.references, y.reference = p.reference → y.request.1 = p.tenant →
      y.request.2.1 = p.actor → y.request = (p.tenant, p.actor, transfersCreateV1, p.key)

/-- Every call of a history keeps intents and outcomes with one reference under one key. -/
def KeepsKeys (d : Digest) : List RecoveryCall → RecoveryDb → Prop
  | [], _ => True
  | c :: cs, s => c.KeepsKey s ∧ KeepsKeys d cs (commit (recoveryExec d c) s)

section Keys

variable {d : Digest} {s s' : RecoveryDb}

/-- A call that keeps the keys together. -/
theorem RecoveryDb.OneKey.step (hs : s.OneKey) {c : RecoveryCall} {u : Unit}
    (h : recoveryExec d c s = .ok (u, s')) (hkeeps : c.KeepsKey s) : s'.OneKey := by
  cases c with
  | command c =>
    obtain ⟨t, -, rfl⟩ := onDb_ok.mp h
    exact hs
  | submit sess p ids reference =>
    obtain ⟨t, -, rfl | hattached⟩ := recoveryExec_submit_ok h
    -- A submission that attaches no reference changes neither table.
    · exact hs
    intro i hi y hy href htenant hactor
    rw [hattached.frame] at hi
    rcases (Table.mem_insert? hattached.references).mp hy with rfl | hold
    · have hkey := hkeeps i hi
        (by rw [RecoveryIntent.key, ← href, ← htenant, ← hactor])
      rw [RecoveryIntent.requestKey, hkey, ← htenant, ← hactor]
    · exact hs i hi y hold href htenant hactor
  -- A repeated preparation saves nothing.
  | prepare sess p now =>
    obtain rfl | ⟨hp, intents, -, -, hinsert, rfl⟩ := controlledPrepareTransferRecoveryV1_ok h
    · exact hs
    · intro i hi y hy href htenant hactor
      rcases (Table.mem_insert? hinsert).mp hi with rfl | hi
      · exact hkeeps y hy href htenant hactor
      · exact hs i hi y hy href htenant hactor

/-- What the readers need of a database. -/
structure RecoveryDb.Readable (s : RecoveryDb) : Prop where
  recorded : s.db.Recorded
  oneKey : s.OneKey

/-- A history that keeps the keys of intents leaves a database that can be read. -/
theorem RecoveryDb.Readable.run (hs : s.Readable) {cs : List RecoveryCall} (hcs : KeepsKeys d cs s) :
    (run (recoveryExec d) cs s).Readable := by
  induction cs generalizing s with
  | nil => exact hs
  | cons c cs ih =>
    rw [run_cons]
    refine ih ?_ hcs.2
    exact commit_invariant (I := RecoveryDb.Readable) (fun _ _ hexec _ =>
      ⟨(recoveryExec_change hexec).recorded hs.recorded, hs.oneKey.step hexec hcs.1⟩) hs

end Keys

/-! ## The main result -/

/-- The three readers report the outcome of a transfer for a reference: a posted one with its
identifier, and a rejected one without it, except in a recovery. A recovery is read while the actor
has its permissions, if an intent was saved. -/
structure RecoveryDb.ReadersAgree (s : RecoveryDb) (tenant : Uuid) (actor text : String)
    (reference : Uuid) (x : Transfer) : Prop where
  decided : x.status = .posted ∨ x.status = .rejected
  status : ∀ now, transferRequestStatus s tenant actor text now =
    .ok ⟨reference, x.report.1, x.report.2, now⟩
  withQuerier : ∀ now, transferRequestStatusWithQuerier s tenant actor reference now =
    some ⟨reference, x.report.1, x.report.2, now⟩
  recovery : ∀ i ∈ s.visible tenant actor, i.requestReference = reference → ∃ item,
    s.getRecovery tenant actor reference = some item ∧ item.state = x.status.text ∧
      item.transferId = x.id.text

section Agreement

variable {d : Digest} {s : RecoveryDb} {tenant reference : Uuid} {actor text : String}
  {r : IdempotencyRequest} {x : Transfer}

/-- The readers agree on the outcome of a request in such a database. -/
theorem RecoveryDb.Readable.agree (hs : s.Readable) (hr : s.requestBy? tenant actor reference = some r)
    (hx : s.db.transfers.find? x.id = some x) (hrecords : r.Records x)
    (htext : normalizeRequestReference text = some reference) (hactor : trimSpace actor ≠ "") :
    s.ReadersAgree tenant actor text reference x where
  decided := hrecords.decided
  status now := hrecords.transferRequestStatus hx hr htext hactor now
  withQuerier now := hrecords.transferRequestStatusWithQuerier hr now
  recovery i hi href := by
    obtain ⟨y, hy, hrequest⟩ := Option.bind_eq_some_iff.mp hr
    have hfound := List.find?_some hy
    rw [decide_eq_true_eq] at hfound
    -- every intent with the reference is joined to the outcome
    have hjoined : ∀ j ∈ s.visible tenant actor, j.requestReference = reference →
        s.outcome? j = some r := by
      intro j hj hjref
      obtain ⟨hmem, howner⟩ := List.mem_filter.mp hj
      obtain ⟨htenant, hactor', -⟩ := of_decide_eq_true howner
      have hkey := hs.oneKey j hmem y (List.mem_of_find?_eq_some hy) (hfound.1.trans hjref.symm)
        (hfound.2.1.trans htenant.symm) (hfound.2.2.1.trans hactor'.symm)
      rw [RecoveryDb.outcome?, ← hkey]
      exact hrequest
    rcases hfind : (s.visible tenant actor).find? (·.requestReference = reference) with _ | j
    · exact absurd (decide_eq_true href) (List.find?_eq_none.mp hfind i hi)
    · have hj := List.mem_of_find?_eq_some hfind
      have hjref := List.find?_some hfind
      rw [decide_eq_true_eq] at hjref
      have hview := hrecords.view j
      refine ⟨j.view (some r), ?_, hview.1, hview.2⟩
      rw [RecoveryDb.getRecovery, hfind, Option.map_some, hjoined j hj hjref]

end Agreement

/-- **The readers of an outcome agree**, and what they report does not change any more, in every
history that keeps intents and outcomes with one reference under one key. -/
theorem outcome_readers_agree (d : Digest) {s₀ : RecoveryDb} (hintents : s₀.intents = .empty)
    (houtcomes : s₀.db.idempotencyRequests = .empty) {cs : List RecoveryCall}
    (hcs : KeepsKeys d cs s₀) {pre later : List RecoveryCall} (hsplit : cs = pre ++ later)
    {tenant reference : Uuid} {actor text : String} {r : IdempotencyRequest}
    (hr : (run (recoveryExec d) pre s₀).requestBy? tenant actor reference = some r)
    (htext : normalizeRequestReference text = some reference) (hactor : trimSpace actor ≠ "") :
    ∃ x, (run (recoveryExec d) pre s₀).ReadersAgree tenant actor text reference x ∧
      (run (recoveryExec d) cs s₀).ReadersAgree tenant actor text reference x := by
  subst hsplit
  -- At the start nothing is stored, so that everything stored is readable.
  have hstart : s₀.Readable := by
    refine ⟨fun q hq => ?_, fun i hi => ?_⟩
    · rw [houtcomes] at hq
      cases hq
    · rw [hintents] at hi
      cases hi
  have hpre : KeepsKeys d pre s₀ := by
    clear hr hstart hintents houtcomes
    induction pre generalizing s₀ with
    | nil => trivial
    | cons c pre ih => exact ⟨hcs.1, ih hcs.2⟩
  have hbefore := hstart.run hpre
  have hafter := hstart.run hcs
  rw [run_append] at hafter ⊢
  obtain ⟨y, hy, hrequest⟩ := Option.bind_eq_some_iff.mp hr
  obtain ⟨x, hx, hrecords⟩ := hbefore.recorded r (Table.mem_of_find? hrequest)
  refine ⟨x, hbefore.agree hr hx hrecords htext hactor, ?_⟩
  -- The request and its transfer are still there after the later commands.
  have hr' : (run (recoveryExec d) later (run (recoveryExec d) pre s₀)).requestBy? tenant actor
      reference = some r :=
    run_invariant (I := fun t : RecoveryDb => t.requestBy? tenant actor reference = some r)
      (fun _ _ _ _ hexec hI => (recoveryExec_step hexec).requestBy? hI) later hr
  have hx' : (run (recoveryExec d) later (run (recoveryExec d) pre s₀)).db.transfers.find? x.id =
      some x :=
    run_invariant (I := fun t : RecoveryDb => t.db.transfers.find? x.id = some x)
      (fun _ _ _ _ hexec hI => (recoveryExec_change hexec).transfer_kept hI) later hx
  exact hafter.agree hr' hx' hrecords htext hactor

/-- The readers agree on the outcome of an intent that was saved and submitted, and again after the
submission is repeated. -/
theorem outcome_readers_agree_sample : ∃ x,
    Sample.recovered.ReadersAgree Sample.tenant Sample.alice Sample.recoveryReference.text
      Sample.recoveryReference x ∧
    (run (recoveryExec Sample.digest) ([Sample.prepareTransfer, Sample.submitIntended] ++
      [Sample.submitIntended]) Sample.recoveryDb).ReadersAgree Sample.tenant Sample.alice
        Sample.recoveryReference.text Sample.recoveryReference x := by
  have hfacts : (((commit (recoveryExec Sample.digest Sample.prepareTransfer)
      Sample.recoveryDb).intents.rows.all (·.idempotencyKey = "sample-transfer-01")) = true ∧
      (Sample.recovered.intents.rows.all (·.idempotencyKey = "sample-transfer-01")) = true) ∧
      (Sample.recovered.requestBy? Sample.tenant Sample.alice Sample.recoveryReference).isSome =
        true ∧
      normalizeRequestReference Sample.recoveryReference.text = some Sample.recoveryReference ∧
      trimSpace Sample.alice ≠ "" := by
    decide +kernel
  obtain ⟨⟨hsaved, hsubmitted⟩, hrequest, htext, hactor⟩ := hfacts
  -- The intent was saved under the key that the submission uses.
  have hkeep : ∀ s : RecoveryDb, s.intents.rows.all (·.idempotencyKey = "sample-transfer-01") = true →
      Sample.submitIntended.KeepsKey s := by
    intro s hs i hi hkey
    exact of_decide_eq_true (List.all_eq_true.mp hs i hi)
  have hfirst : Sample.prepareTransfer.KeepsKey Sample.recoveryDb := by
    intro y hy
    cases hy
  have hlast : Sample.recovered = commit (recoveryExec Sample.digest Sample.submitIntended)
      (commit (recoveryExec Sample.digest Sample.prepareTransfer) Sample.recoveryDb) := by
    rw [Sample.recovered, run_cons, run_cons, run_nil]
  have hkeeps : KeepsKeys Sample.digest ([Sample.prepareTransfer, Sample.submitIntended] ++
      [Sample.submitIntended]) Sample.recoveryDb :=
    ⟨hfirst, hkeep _ hsaved, hkeep _ (hlast ▸ hsubmitted), trivial⟩
  obtain ⟨r, hr⟩ := Option.isSome_iff_exists.mp hrequest
  have hempty : Sample.recoveryDb.intents = .empty ∧
      Sample.recoveryDb.db.idempotencyRequests = .empty := ⟨rfl, rfl⟩
  exact outcome_readers_agree Sample.digest hempty.1 hempty.2 hkeeps rfl hr htext hactor

/-- The intent of the same payment under another key. -/
def Sample.prepareOther : RecoveryCall :=
  .prepare session ⟨tenant, alice, recoveryReference, "sample-transfer-02", source, destination, "INR",
    big 100, fingerprint100⟩ 0

/-- **A recovery can miss the outcome of its reference.** A transfer is submitted with a reference,
an intent is saved under the reference with another key, and the intent is shown without an outcome.
-/
theorem recovery_misses_outcome :
    let s := run (recoveryExec Sample.digest) [Sample.submitIntended, Sample.prepareOther]
      Sample.recoveryDb
    (s.requestBy? Sample.tenant Sample.alice Sample.recoveryReference).isSome = true ∧
      ∀ x, ¬s.ReadersAgree Sample.tenant Sample.alice Sample.recoveryReference.text
        Sample.recoveryReference x := by
  intro s
  have hfacts : (s.requestBy? Sample.tenant Sample.alice Sample.recoveryReference).isSome = true ∧
      (s.getRecovery Sample.tenant Sample.alice Sample.recoveryReference).map (·.state) =
        some "unresolved" ∧
      ((s.visible Sample.tenant Sample.alice).any
        (·.requestReference = Sample.recoveryReference)) = true := by
    decide +kernel
  obtain ⟨hrequest, hstate, hvisible⟩ := hfacts
  refine ⟨hrequest, fun x hagree => ?_⟩
  obtain ⟨i, hi, href⟩ := List.any_eq_true.mp hvisible
  obtain ⟨item, hitem, hshown, -⟩ := hagree.recovery i hi (of_decide_eq_true href)
  rw [hitem, Option.map_some, hshown, Option.some.injEq] at hstate
  rcases hagree.decided with hposted | hrejected
  · rw [hposted] at hstate
    exact absurd hstate (by decide)
  · rw [hrejected] at hstate
    exact absurd hstate (by decide)

end LedgerSync
