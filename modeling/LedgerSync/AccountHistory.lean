import LedgerSync.CommandSequence
import LedgerSync.CorrectionControls
import LedgerSync.Exports
import LedgerSync.Lib.Base64
import LedgerSync.Lib.GoTime
import LedgerSync.Lib.JsonText
import LedgerSync.Lib.LivePaging
import LedgerSync.OutcomeReaders

/-!
# The history of an account

`TransactionHistoryRepository` lists the posted transfers of an account, the newest first, in pages
that continue behind the time and the identifier of the last one, with the correction that each of
them takes part in. The ledger export of an account over this repository is complete
(`account_ledger_exported`), and a reader that takes page after page while commands go on misses
nothing that was posted before it began (`history_read_live`).
-/

namespace LedgerSync

open Lib

/-! ## Cursors -/

/-- The errors of `ListAccountHistory` and `List`. -/
inductive HistoryError where
  /-- `ErrHistoryNotFound`. -/
  | notFound
  /-- "history limit must be between 1 and 100". -/
  | limit
  | scope
  /-- "authorize history". -/
  | authorize
  /-- "invalid history cursor". -/
  | cursor
  /-- "list history". -/
  | list
  /-- "scan history". -/
  | scan
deriving DecidableEq

/-- `historyCursor`, the time in nanoseconds. -/
structure HistoryCursor where
  completedAt : ℤ
  transferId : String
deriving DecidableEq

/-- `decodeHistoryCursor`. -/
def decodeHistoryCursor (raw : String) : Except HistoryError HistoryCursor :=
  if raw = "" then .ok ⟨0, ""⟩
  else match (rawUrlDecode? raw.toList).map fun bytes => (runes bytes).splitOn '|' with
    | some [time, transfer] =>
      match parseGoTime time with
      | none => .error .cursor
      | some t =>
        if trimSpace (String.ofList transfer) = "" then .error .cursor
        else .ok ⟨t, String.ofList transfer⟩
    | _ => .error .cursor

/-- `encodeHistoryCursor`. -/
def encodeHistoryCursor (entry : ExportedEntry) : String :=
  String.ofList (rawUrlEncode
    (encodeRunes (rfc3339Nano (entry.occurredAt.micros * 1000) ++ ['|']) ++ entry.transferId.bytes))

/-- The time and the number of the transfer that `nullableTime` and `nullableString` pass to the
query. The time of no instant is the zero time. -/
def HistoryCursor.position (cursor : HistoryCursor) : Except HistoryError (Option (ℤ × ℕ)) :=
  if cursor.transferId = "" then .ok none
  else match castUuid cursor.transferId with
    | none => .error .list
    | some id =>
      .ok (if cursor.completedAt = 0 then none else some (cursor.completedAt / 1000, id.toNat))

/-- The second key comes behind the first one in `ORDER BY completed_at DESC, id DESC`. -/
def HistoryBehind (k k' : ℤ × ℕ) : Prop := k'.1 < k.1 ∨ (k'.1 = k.1 ∧ k'.2 < k.2)

/-- Whether a position is behind another can be decided. -/
instance HistoryBehind.decidable : DecidableRel HistoryBehind := fun _ _ =>
  inferInstanceAs (Decidable (_ ∨ _))

/-- Being behind is a strict order of the positions. -/
instance HistoryBehind.isStrictOrder : IsStrictOrder (ℤ × ℕ) HistoryBehind where
  irrefl k h := by
    rcases h with h | ⟨-, h⟩
    · exact lt_irrefl _ h
    · exact lt_irrefl _ h
  trans k k' k'' h h' := by
    unfold HistoryBehind at h h' ⊢
    omega

/-! ## Rows -/

/-- A transfer and what the `LEFT JOIN` finds for it. -/
abbrev HistoryRow : Type := Transfer × Option Correction

/-- The transfer is a row of the history of the account. -/
def Transfer.InHistory (x : Transfer) (tenant account : Uuid) : Prop :=
  x.tenantId = tenant ∧ x.status = .posted ∧
    (x.debitAccountId = account ∨ x.creditAccountId = account)

/-- Whether a transfer is in a history can be decided. -/
instance Transfer.InHistory.decidable (x : Transfer) (tenant account : Uuid) :
    Decidable (x.InHistory tenant account) :=
  inferInstanceAs (Decidable (_ ∧ _ ∧ (_ ∨ _)))

/-- The correction concerns the transfer. -/
def Correction.Concerns (k : Correction) (x : Transfer) : Prop :=
  k.tenantId = x.tenantId ∧ (k.originalTransferId = x.id ∨ k.compensationTransferId = some x.id)

/-- Whether a correction concerns a transfer can be decided. -/
instance Correction.Concerns.decidable (k : Correction) (x : Transfer) : Decidable (k.Concerns x) :=
  inferInstanceAs (Decidable (_ ∧ (_ ∨ _)))

/-- The rows that a `LEFT JOIN` makes of one row and those that it finds for it. -/
def leftJoin {α β : Type} (a : α) : List β → List (α × Option β)
  | [] => [(a, none)]
  | bs => bs.map fun b => (a, some b)

/-- `ORDER BY completed_at DESC, id DESC`, where a time that is missing comes first. -/
def historyOrder (row row' : HistoryRow) : Bool :=
  match row.1.completedAt, row'.1.completedAt with
  | none, none => row'.1.id.toNat ≤ row.1.id.toNat
  | none, some _ => true
  | some _, none => false
  | some t, some t' => t' < t ∨ (t' = t ∧ row'.1.id.toNat ≤ row.1.id.toNat)

/-- The rows of an account, in order. -/
def Db.historyRows (s : Db) (tenant account : Uuid) : List HistoryRow :=
  ((s.transfers.rows.filter fun x => x.InHistory tenant account).flatMap fun x =>
    leftJoin x (s.corrections.rows.filter fun k => k.Concerns x)).insertionSort
      fun a b => historyOrder a b = true

/-- `(completed_at, id) < ($3, $4)`, unless the parameter is missing. -/
def HistoryRow.behind (position : Option (ℤ × ℕ)) (row : HistoryRow) : Bool :=
  position.all fun k => row.1.completedAt.any fun t => HistoryBehind k (t, row.1.id.toNat)

/-- A stored time. -/
def timestamp? (t : Instant) : Option Timestamp :=
  if h : 0 ≤ t ∧ t.toNat < 315537897600000000 then some ⟨t.toNat, h.2⟩ else none

/-- The entry of a row that was completed at `t`. -/
def HistoryRow.entry (account : Uuid) (row : HistoryRow) (t : Timestamp) : ExportedEntry where
  transferId := goString row.1.id.text
  direction := goString (if row.1.debitAccountId = account then "debit" else "credit")
  amount := goString (decimal row.1.amount)
  currency := goString row.1.currency
  status := goString row.1.status.text
  occurredAt := t
  correctionId := goString ((row.2.map fun k => k.id.text).getD "")
  correctionStatus := goString ((row.2.map fun k => k.status.text).getD "")
  correctionRole := goString ((row.2.map fun k =>
    if k.originalTransferId = row.1.id then "original" else "compensation").getD "")
  originalTransferId := goString ((row.2.map fun k => k.originalTransferId.text).getD "")
  compensationTransferId :=
    goString (((row.2.bind (·.compensationTransferId)).map Uuid.text).getD "")

/-- `Scan`: a time that is missing has no value. -/
def HistoryRow.scan (account : Uuid) (row : HistoryRow) : Except HistoryError ExportedEntry :=
  match row.1.completedAt.bind timestamp? with
  | none => .error .scan
  | some t => .ok (row.entry account t)

/-- The actor owns the account and may read it. -/
def Settings.MayReadHistory (c : Settings) (tenant account : Uuid) (actor : String) : Prop :=
  ∃ o ∈ c.accountOwners, o.tenantId = tenant ∧ o.accountId = account ∧ o.subjectId = actor ∧
    (o.permission = .read ∨ o.permission = .debit)

/-- Whether an actor may read a history can be decided. -/
instance Settings.MayReadHistory.decidable (c : Settings) (tenant account : Uuid)
    (actor : String) : Decidable (c.MayReadHistory tenant account actor) :=
  inferInstanceAs (Decidable (∃ o ∈ _, _))

/-! ## Pages -/

/-- A page of the rows of an account. One row more than asked for is read. -/
def Db.historyPage (s : Db) (tenant account : Uuid) (rawCursor : String) (limit : ℕ) :
    Except HistoryError (List ExportedEntry × String) := do
  let cursor ← decodeHistoryCursor rawCursor
  let position ← cursor.position
  let entries ← (((s.historyRows tenant account).filter (HistoryRow.behind position)).take
    (limit + 1)).mapM (HistoryRow.scan account)
  if limit < entries.length then
    .ok (entries.take limit, ((entries.take limit).getLast?.map encodeHistoryCursor).getD "")
  else .ok (entries, "")

/-- `ListAccountHistory`. -/
def Db.listAccountHistory (s : Db) (tenantId actorId accountId rawCursor : String) (limit : ℕ) :
    Except HistoryError (List ExportedEntry × String) :=
  match TenantScope.canonical ⟨tenantId, actorId⟩ with
  | none => .error .scope
  | some _ =>
    match castUuid tenantId, castUuid accountId with
    | some tenant, some account =>
      if ¬s.settings.MayReadHistory tenant account actorId then .error .notFound
      else s.historyPage tenant account rawCursor limit
    | _, _ => .error .authorize

/-- `List`. -/
def Db.history (s : Db) (tenantId actorId accountId cursor : String) (limit : ℤ) :
    Except HistoryError (List ExportedEntry × String) :=
  if tenantId = "" ∨ actorId = "" ∨ accountId = "" then .error .notFound
  else if limit < 1 ∨ 100 < limit then .error .limit
  else s.listAccountHistory tenantId actorId accountId cursor limit.toNat

section Cursor

/-- The time and the number of the transfer of an entry. -/
def ExportedEntry.historyKey (entry : ExportedEntry) : ℤ × ℕ :=
  (entry.occurredAt.micros,
    ((castUuid (String.ofList (entry.transferId.map GoRune.rune))).map Uuid.toNat).getD 0)

/-- The octets of a text of the database are its UTF-8. -/
theorem bytes_goString (s : String) : (goString s).bytes = encodeRunes s.toList := by
  rw [goString, GoString.bytes, List.flatMap_map]
  rfl

/-- A text of the database is read back as itself. -/
theorem ofList_goString (s : String) : String.ofList ((goString s).map GoRune.rune) = s := by
  rw [goString, List.map_map]
  simp [Function.comp_def, GoRune.rune]

/-- The position of an entry is the time and the number of its transfer. -/
theorem HistoryRow.historyKey_entry (account : Uuid) (row : HistoryRow) (t : Timestamp) :
    (row.entry account t).historyKey = ((t.micros : ℤ), row.1.id.toNat) := by
  unfold ExportedEntry.historyKey HistoryRow.entry
  dsimp only
  rw [ofList_goString, castUuid_text]
  rfl

/-- The text of an identifier has no spaces to trim. -/
theorem trimSpace_text (u : Uuid) : trimSpace u.text = u.text := by
  have hspace : ∀ c ∈ u.text.toList, isSpace c = false := by
    intro c hc
    rcases Uuid.mem_text hc with rfl | ⟨d, hd, rfl⟩
    · decide
    · interval_cases d <;> decide
  exact trimSpace_of_ends (fun c hc => hspace c (List.mem_of_mem_head? hc))
    fun c hc => hspace c (List.mem_of_getLast? hc)

/-- A clock reading is an instant that Go writes. -/
theorem hasWrittenYear_micros (t : Timestamp) : HasWrittenYear ((t.micros : ℤ) * 1000) := by
  have hfirst : daysOf 0 1 1 ≤ 0 := by decide +kernel
  have hlast : daysOf 10000 1 1 = 3652059 := by decide +kernel
  have hrange := t.inRange
  have hday : dayOf ((t.micros : ℤ) * 1000) = ((t.micros / 86400000000 : ℕ) : ℤ) := by
    unfold dayOf
    omega
  refine ⟨le_yearOfDay.mpr (by omega), ?_⟩
  by_contra hyear
  have hle : daysOf 10000 1 1 ≤ dayOf ((t.micros : ℤ) * 1000) := le_yearOfDay.mp (by omega)
  omega

/-- The cursor of an entry is read as its time and its transfer. -/
theorem decodeHistoryCursor_encode {entry : ExportedEntry} {id : Uuid}
    (hid : entry.transferId = goString id.text) :
    decodeHistoryCursor (encodeHistoryCursor entry) =
      .ok ⟨entry.occurredAt.micros * 1000, id.text⟩ := by
  -- The cursor joins the instant and the id by a bar, the only one in the text.
  have hbytes : encodeRunes (rfc3339Nano (entry.occurredAt.micros * 1000) ++ ['|']) ++
      entry.transferId.bytes =
        encodeRunes (rfc3339Nano (entry.occurredAt.micros * 1000) ++ '|' :: id.text.toList) := by
    rw [hid, bytes_goString, encodeRunes, encodeRunes, encodeRunes, ← List.flatMap_append,
      List.append_assoc, List.singleton_append]
  have htime : '|' ∉ rfc3339Nano ((entry.occurredAt.micros : ℤ) * 1000) := by
    intro h
    rcases List.mem_append.mp h with h | h
    · rcases isStampChar_stampBody h with h | h
      · exact absurd h (by decide)
      · exact absurd h (by decide)
    · exact absurd h (by decide)
  have htransfer : '|' ∉ id.text.toList := id.not_mem_text (by decide)
  have hsplit := List.splitOn_append_cons_self_of_not_mem htime id.text.toList
  rw [List.splitOn_eq_singleton htransfer] at hsplit
  -- An empty cursor would start from the newest entry; this one is not empty.
  have hne : encodeHistoryCursor entry ≠ "" := by
    intro h
    have hnil := String.ofList_eq_empty_iff.mp h
    rw [hbytes, rawUrlEncode_eq_nil] at hnil
    have hruns := runes_encodeRunes
      (rfc3339Nano ((entry.occurredAt.micros : ℤ) * 1000) ++ '|' :: id.text.toList)
    rw [hnil] at hruns
    exact absurd hruns.symm (List.append_ne_nil_of_right_ne_nil _ (List.cons_ne_nil _ _))
  -- The id is not blank, which the decoder checks last.
  have htrim : trimSpace id.text ≠ "" := by
    rw [trimSpace_text]
    intro h
    have hlength := id.length_text
    rw [h] at hlength
    cases hlength
  unfold decodeHistoryCursor
  rw [if_neg hne, encodeHistoryCursor, hbytes, String.toList_ofList, rawUrlDecode?_rawUrlEncode,
    Option.map_some, runes_encodeRunes, hsplit]
  simp only [parseGoTime_rfc3339Nano (hasWrittenYear_micros entry.occurredAt), String.ofList_toList,
    if_neg htrim]

/-- Behind the cursor of an entry comes what comes behind its key, unless its time is the zero
time. -/
theorem position_encode {entry : ExportedEntry} {id : Uuid}
    (hid : entry.transferId = goString id.text) (htime : entry.occurredAt.micros ≠ 0) :
    (decodeHistoryCursor (encodeHistoryCursor entry)).bind HistoryCursor.position =
      .ok (some entry.historyKey) := by
  have hne : id.text ≠ "" := by
    intro h
    have hlength := id.length_text
    rw [h] at hlength
    cases hlength
  have hzero : ¬(entry.occurredAt.micros : ℤ) * 1000 = 0 := by omega
  have hmicros : (entry.occurredAt.micros : ℤ) * 1000 / 1000 = entry.occurredAt.micros :=
    Int.mul_ediv_cancel _ (by decide)
  have hkey : entry.historyKey = ((entry.occurredAt.micros : ℤ), id.toNat) := by
    rw [ExportedEntry.historyKey, hid, ofList_goString, castUuid_text, Option.map_some,
      Option.getD_some]
  simp only [decodeHistoryCursor_encode hid, hkey, Except.bind, HistoryCursor.position, if_neg hne,
    castUuid_text, if_neg hzero, hmicros]

end Cursor

/-! ## What the rows rely on -/

/-- The transfer has a currency and a completion time that Go writes. -/
def Transfer.Stamped (x : Transfer) : Prop :=
  IsCurrency x.currency ∧ ∃ t : Timestamp, x.completedAt = some (instant t)

/-- Transfers are completed, and a transfer is the original of one correction at most. -/
structure Db.Historic (s : Db) : Prop where
  stamped : ∀ x ∈ s.transfers, x.Stamped
  single : ∀ k ∈ s.corrections, ∀ k' ∈ s.corrections,
    k.originalTransferId = k'.originalTransferId → k = k'
  compensated : ∀ k ∈ s.corrections, k.compensationTransferId ≠ none → k.status = .posted

section Historic

variable {d : Digest} {c : Call} {s s' : Db}

/-- The currency of a new transfer is a currency. -/
theorem FreshTransfer.isCurrency {p : TransferRequest} {ids : TransferIds} {body : Json}
    (h : FreshTransfer p ids s s' body) : IsCurrency h.row.currency := by
  obtain ⟨a, -, -, hcurrency⟩ := h.admitted.source_find
  obtain ⟨-, -, -, -, -, -, hrow, -⟩ := pendingTransfer?_eq_some h.row_eq
  rw [hrow, ← hcurrency]
  exact a.currency_shape

/-- Every transfer after a call keeps a currency and times that a listing can show. -/
theorem Change.stamped (h : Change d s s') (hs : ∀ x ∈ s.transfers, x.Stamped) :
    ∀ x ∈ s'.transfers, x.Stamped := by
  have hkeep : s'.transfers = s.transfers → ∀ x ∈ s'.transfers, x.Stamped := fun heq x hx =>
    hs x (heq ▸ hx)
  have hinsert : ∀ {x : Transfer} {t : Table Transfer.id}, s.transfers.insert? x = some t →
      s'.transfers = t → x.Stamped → ∀ y ∈ s'.transfers, y.Stamped := by
    intro x t hinsert heq hx y hy
    rw [heq] at hy
    rcases (Table.mem_insert? hinsert).mp hy with rfl | hold
    · exact hx
    · exact hs y hold
  -- Only transfers, corrections and captures insert a transfer.
  cases h with
  | quiet frame => exact hkeep (by rw [frame])
  | status => exact hkeep rfl
  | claimed _ frame => exact hkeep (by rw [frame])
  | cleared h frame => exact hkeep (by rw [frame, h.frame])
  | @rejected p _ _ _ h =>
    exact hinsert h.transfers rfl ⟨h.toFreshTransfer.isCurrency, p.occurredAt, rfl⟩
  | @posted p _ _ _ h =>
    exact hinsert h.transfers rfl ⟨h.toFreshTransfer.isCurrency, p.occurredAt, rfl⟩
  | @corrected p _ _ h =>
    exact hinsert h.transfers rfl
      ⟨(hs _ (Table.mem_of_find? h.original_find)).1, p.occurredAt, rfl⟩
  | funded h => exact hkeep (by rw [h.frame])
  | reserved h => exact hkeep (by rw [h.frame])
  | returned _ h => exact hkeep (by rw [h.frame])
  | captured h =>
    exact hinsert h.posted.transfers (congrArg Db.transfers h.frame :)
      ⟨h.posted.toFreshTransfer.isCurrency, _, rfl⟩
  | imported h => exact hkeep (by rw [h.frame])

/-- A correction takes the place of one with its identifier and its original. -/
theorem Db.Historic.replace (hs : s.Historic) {k k' : Correction} (hk : k ∈ s.corrections)
    (hid : k'.id = k.id) (horiginal : k'.originalTransferId = k.originalTransferId)
    (hcompensated : k'.compensationTransferId ≠ none → k'.status = .posted)
    (hstamped : ∀ x ∈ s'.transfers, x.Stamped)
    (hcorrections : s'.corrections = s.corrections.replace k') : s'.Historic where
  stamped := hstamped
  single := by
    -- A correction that stays is not the one that is replaced, so it has another original.
    have hother : ∀ x ∈ s.corrections, x.id ≠ k'.id →
        x.originalTransferId ≠ k'.originalTransferId := by
      intro x hx hne heq
      have hsame := hs.single x hx k hk (heq.trans horiginal)
      exact hne ((congrArg Correction.id hsame).trans hid.symm)
    intro x hx y hy heq
    rw [hcorrections] at hx hy
    rcases Table.mem_replace hx with rfl | ⟨hxold, hxne⟩ <;>
      rcases Table.mem_replace hy with rfl | ⟨hyold, hyne⟩
    · rfl
    · exact absurd heq.symm (hother y hyold hyne)
    · exact absurd heq (hother x hxold hxne)
    · exact hs.single x hxold y hyold heq
  compensated x hx := by
    rw [hcorrections] at hx
    rcases Table.mem_replace hx with rfl | ⟨hx, -⟩
    · exact hcompensated
    · exact hs.compensated x hx

/-- A request adds nothing, or the first correction of its original. -/
theorem controlledRequestCorrectionV1_first {sess : Session} {p : CorrectionRequest}
    {ids : EvidenceIds} {r : Uuid × Bool}
    (h : controlledRequestCorrectionV1 d sess p ids s = .ok (r, s')) :
    s'.corrections = s.corrections ∨ ∃ policy,
      s.corrections.insert? (requestedCorrection p policy ids.created) = some s'.corrections ∧
        ∀ k ∈ s.corrections, k.tenantId = p.tenant → k.originalTransferId ≠ p.original := by
  simp only [controlledRequestCorrectionV1, Txn.get_bind_ok, Txn.raiseIf_bind_ok] at h
  obtain ⟨-, -, h⟩ := h
  rcases hprior : s.corrections.rows.find? (fun c => c.tenantId = p.tenant ∧
    c.requesterSubjectId = p.actor ∧ c.idempotencyKey = p.key) with _ | prior
  · simp only [hprior, createCorrection, insertCorrection, insertApproval, Txn.bind_assoc,
      Txn.get_bind_ok, Txn.raiseIf_bind_ok, Txn.orRaise_bind_ok, insertRow_bind_ok] at h
    obtain ⟨-, original, -, policy, -, -, -, hclash, corrections, hc, -, approvals, -, h⟩ := h
    obtain ⟨_, _, haudit, h⟩ := Txn.bind_ok.mp h
    obtain ⟨audit, -, rfl⟩ := controlledAppendAuditV1_ok haudit
    obtain ⟨-, rfl⟩ := Txn.pure_ok.mp h
    exact .inr ⟨policy, hc, fun k hk htenant horiginal => hclash ⟨k, hk, htenant, .inr horiginal⟩⟩
  · simp only [hprior, Txn.raiseIf_bind_ok, Txn.pure_ok] at h
    rw [← h.2.2]
    exact .inl rfl

/-- A returning call keeps what the histories rely on. -/
theorem exec_historic {u : Unit} (h : exec d c s = .ok (u, s')) (hl : Linked s)
    (hs : s.Historic) : s'.Historic := by
  have heffect := exec_effect h
  have hstamped := heffect.change.stamped hs.stamped
  have hkeep : s'.corrections = s.corrections → s'.Historic := fun heq =>
    ⟨hstamped, heq ▸ hs.single, heq ▸ hs.compensated⟩
  cases c with
  | requestCorrection sess p ids =>
    obtain ⟨r, h⟩ := Txn.discard_ok.mp h
    rcases controlledRequestCorrectionV1_first h with hsame | ⟨policy, hinsert, hfirst⟩
    · exact hkeep hsame
    have hlinked := heffect.linked hl
    -- The tenant of a correction is that of its original.
    have hother : ∀ k ∈ s.corrections, k.originalTransferId ≠ p.original := by
      intro k hk horiginal
      have hstays := (Table.mem_insert? hinsert).mpr (.inr hk)
      obtain ⟨o, ho, htenant⟩ := hlinked.corrections k hstays
      have hnew := (Table.mem_insert? hinsert).mpr (.inl rfl)
      obtain ⟨o', ho', htenant'⟩ := hlinked.corrections _ hnew
      rw [horiginal] at ho
      obtain rfl := Option.some.inj (ho.symm.trans ho')
      exact hfirst k hk (htenant.symm.trans htenant') horiginal
    refine ⟨hstamped, fun x hx y hy heq => ?_, fun x hx => ?_⟩
    · rcases (Table.mem_insert? hinsert).mp hx with rfl | hx <;>
        rcases (Table.mem_insert? hinsert).mp hy with rfl | hy
      · rfl
      · exact absurd heq.symm (hother y hy)
      · exact absurd heq (hother x hx)
      · exact hs.single x hx y hy heq
    · rcases (Table.mem_insert? hinsert).mp hx with rfl | hx
      · exact fun hne => absurd rfl hne
      · exact hs.compensated x hx
  | decideCorrection sess p ids =>
    cases heffect with
    | none => exact hs
    | @decidedCorrection _ _ _ _ _ k v find corrections frame pending =>
      have hmem := Table.mem_of_find? find
      refine hs.replace hmem (Correction.decide_id k v _) (Correction.decide_original k v _)
        (fun hne => ?_) hstamped corrections
      have hsame : (k.decide v (instant p.decidedAt)).compensationTransferId =
          k.compensationTransferId := by
        unfold Correction.decide
        split_ifs <;> rfl
      rw [hsame] at hne
      rcases pending with hpending | hpending <;>
        cases hpending.symm.trans (hs.compensated k hmem hne)
  | postCorrection sess p ids =>
    cases heffect with
    | none => exact hs
    | @lapsedCorrection _ _ _ _ _ k h =>
      have hmem := Table.mem_of_find? h.find
      exact @Db.Historic.replace s s' hs k (k.lapse p.now) hmem rfl rfl
        (fun hne => by cases h.status.symm.trans (hs.compensated k hmem hne)) hstamped h.corrections
    | postedCorrection h =>
      exact @Db.Historic.replace s s' hs h.correction
        (h.correction.post ids.compensation p.idempotencyKey p.now)
        (Table.mem_of_find? h.correction_find) rfl rfl (fun _ => rfl) hstamped h.corrections
  | _ => exact hkeep (heffect.untouched.corrections id)

/-- What holds of every history. -/
theorem run_historic (d : Digest) (cs : List Call) (hs : s.Provisioned) :
    Reversing (run (exec d) cs s) ∧ (run (exec d) cs s).Historic := by
  refine ⟨(run_reversing d cs hs).2, ?_⟩
  refine (run_invariant (I := fun s => Linked s ∧ s.Historic) (fun _ _ _ _ h hI => ?_) cs
    ⟨hs.linked, ?_⟩).2
  · exact ⟨(exec_effect h).linked hI.1, exec_historic h hI.1 hI.2⟩
  · refine ⟨fun x hx => ?_, fun k hk => ?_, fun k hk => ?_⟩
    · rw [Table.mem_def, hs.transfers] at hx
      cases hx
    · rw [Table.mem_def, hs.corrections] at hk
      cases hk
    · rw [Table.mem_def, hs.corrections] at hk
      cases hk

end Historic

/-! ## The entries of an account -/

/-- The correction of a transfer. -/
def Db.correctionOf (s : Db) (x : Transfer) : Option Correction :=
  (s.corrections.rows.filter fun k => k.Concerns x).head?

/-- The zero time is one that is stored. -/
theorem zeroTime_inRange : (0 : ℕ) < 315537897600000000 := by
  decide

/-- The entry of a row, at the zero time where none is stored. -/
def HistoryRow.entryOf (account : Uuid) (row : HistoryRow) : ExportedEntry :=
  row.entry account ((row.1.completedAt.bind timestamp?).getD ⟨0, zeroTime_inRange⟩)

/-- The entries of an account. -/
def Db.accountHistory (s : Db) (tenant account : Uuid) : List ExportedEntry :=
  (s.historyRows tenant account).map (HistoryRow.entryOf account)

/-- The time and the number of the transfer of a row. -/
def HistoryRow.key (row : HistoryRow) : ℤ × ℕ := (row.1.completedAt.getD 0, row.1.id.toNat)

section Rows

variable {s : Db} {tenant account : Uuid} {x : Transfer} {k k' : Correction} {row : HistoryRow}

/-- A transfer takes part in one correction at most: it is not an original and a compensation. -/
theorem Db.Historic.concerns_unique (hs : s.Historic) (hr : Reversing s) (hx : x ∈ s.transfers)
    (hk : k ∈ s.corrections) (hk' : k' ∈ s.corrections) (h : k.Concerns x) (h' : k'.Concerns x) :
    k = k' := by
  have hfind : s.transfers.find? x.id = some x := Table.find?_eq_some.mpr ⟨hx, rfl⟩
  -- A transfer with an original is never itself the original of a correction.
  have hfirst : ∀ k ∈ s.corrections, k.originalTransferId = x.id →
      x.compensationOfTransferId = none := by
    intro k hk horiginal
    obtain ⟨o, ho, -, hnone⟩ := hr.original k hk
    rw [horiginal] at ho
    obtain rfl := Option.some.inj (hfind.symm.trans ho)
    exact hnone
  have hsecond : ∀ k ∈ s.corrections, k.compensationTransferId = some x.id →
      x.compensationOfTransferId = some k.originalTransferId := by
    intro k hk hcompensation
    have hposted := hs.compensated k hk (hcompensation ▸ Option.some_ne_none _)
    obtain ⟨y, hy, hid, hof, -⟩ := hr.posted k hk hposted
    obtain rfl := Table.eq_of_key hx hy (Option.some.inj (hcompensation.symm.trans hid))
    exact hof
  refine hs.single k hk k' hk' ?_
  -- In the mixed cases the transfer would be both an original and a compensation.
  rcases h.2 with ho | hc <;> rcases h'.2 with ho' | hc'
  · exact ho.trans ho'.symm
  · cases (hfirst k hk ho).symm.trans (hsecond k' hk' hc')
  · cases (hfirst k' hk' ho').symm.trans (hsecond k hk hc)
  · exact Option.some.inj ((hsecond k hk hc).symm.trans (hsecond k' hk' hc'))

/-- The correction of a transfer is the one that concerns it. -/
theorem Db.Historic.correctionOf_eq_some (hs : s.Historic) (hr : Reversing s)
    (hx : x ∈ s.transfers) :
    s.correctionOf x = some k ↔ k ∈ s.corrections ∧ k.Concerns x := by
  have hmem : ∀ k, k ∈ s.corrections.rows.filter (fun k => k.Concerns x) ↔
      k ∈ s.corrections ∧ k.Concerns x := fun k => by
    rw [List.mem_filter, decide_eq_true_eq, Table.mem_def]
  constructor
  · exact fun h => (hmem k).mp (List.mem_of_head? h)
  · intro h
    rcases hhead : s.correctionOf x with _ | k'
    · rw [Db.correctionOf, List.head?_eq_none_iff] at hhead
      exact absurd ((hmem k).mpr h) (hhead ▸ List.not_mem_nil)
    · obtain ⟨hk', hconcerns⟩ := (hmem k').mp (List.mem_of_head? hhead)
      rw [hs.concerns_unique hr hx h.1 hk' h.2 hconcerns]

/-- The join finds the correction of a transfer or nothing. -/
theorem Db.Historic.leftJoin_eq (hs : s.Historic) (hr : Reversing s) (hx : x ∈ s.transfers) :
    leftJoin x (s.corrections.rows.filter fun k => k.Concerns x) = [(x, s.correctionOf x)] := by
  have hunique : ∀ k ∈ s.corrections.rows.filter (fun k => k.Concerns x),
      ∀ k' ∈ s.corrections.rows.filter (fun k => k.Concerns x), k = k' := by
    intro k hk k' hk'
    rw [List.mem_filter, decide_eq_true_eq] at hk hk'
    exact hs.concerns_unique hr hx hk.1 hk'.1 hk.2 hk'.2
  have hnodup : (s.corrections.rows.filter fun k => k.Concerns x).Nodup :=
    (List.Nodup.of_map _ s.corrections.nodup).filter _
  unfold Db.correctionOf
  generalize s.corrections.rows.filter (fun k => k.Concerns x) = ks at hunique hnodup ⊢
  rcases ks with _ | ⟨k, _ | ⟨k', ks⟩⟩
  · rfl
  · rfl
  · have heq := hunique k List.mem_cons_self k' (List.mem_cons_of_mem _ List.mem_cons_self)
    exact absurd (heq ▸ List.mem_cons_self) (List.nodup_cons.mp hnodup).1

/-- The rows of a history are the posted transfers of the account, each with its correction, in some
order. -/
theorem Db.Historic.historyRows_perm (hs : s.Historic) (hr : Reversing s) :
    (s.historyRows tenant account).Perm
      ((s.transfers.rows.filter fun x => x.InHistory tenant account).map
        fun x => (x, s.correctionOf x)) := by
  have hjoin : ((s.transfers.rows.filter fun x => x.InHistory tenant account).flatMap fun x =>
      leftJoin x (s.corrections.rows.filter fun k => k.Concerns x)) =
        (s.transfers.rows.filter fun x => x.InHistory tenant account).map
          fun x => (x, s.correctionOf x) := by
    rw [List.map_eq_flatMap]
    refine List.flatMap_congr fun x hx => ?_
    exact hs.leftJoin_eq hr (List.mem_of_mem_filter hx)
  rw [Db.historyRows, hjoin]
  exact List.perm_insertionSort _ _

/-- A row of a history is a posted transfer of the account with its correction. -/
theorem Db.Historic.mem_historyRows (hs : s.Historic) (hr : Reversing s) :
    row ∈ s.historyRows tenant account ↔
      row.1 ∈ s.transfers ∧ row.1.InHistory tenant account ∧ row.2 = s.correctionOf row.1 := by
  rw [(hs.historyRows_perm hr).mem_iff, List.mem_map]
  constructor
  · rintro ⟨x, hx, rfl⟩
    rw [List.mem_filter, decide_eq_true_eq] at hx
    exact ⟨hx.1, hx.2, rfl⟩
  · rintro ⟨hx, hhistory, hjoin⟩
    exact ⟨row.1, List.mem_filter.mpr ⟨hx, decide_eq_true hhistory⟩, Prod.ext rfl hjoin.symm⟩

/-- An identifier is its number. -/
theorem uuid_of_number {u v : Uuid} (h : u.toNat = v.toNat) : u = v := by
  cases u
  cases v
  cases h
  rfl

/-- Of two completed rows the later comes first, and of two at one time the one with the larger
identifier. -/
theorem historyOrder_some {row row' : HistoryRow} {t t' : ℤ} (h : row.1.completedAt = some t)
    (h' : row'.1.completedAt = some t') : historyOrder row row' =
      decide (t' < t ∨ (t' = t ∧ row'.1.id.toNat ≤ row.1.id.toNat)) := by
  unfold historyOrder
  rw [h, h']

/-- What follows a follower follows. -/
instance historyOrder_trans : IsTrans HistoryRow fun a b => historyOrder a b = true := by
  refine ⟨fun a b c h h' => ?_⟩
  have htimes : ∀ (t t' t'' : ℤ) (i i' i'' : ℕ), (t' < t ∨ (t' = t ∧ i' ≤ i)) →
      (t'' < t' ∨ (t'' = t' ∧ i'' ≤ i')) → (t'' < t ∨ (t'' = t ∧ i'' ≤ i)) := by
    omega
  rcases ha : a.1.completedAt with _ | t <;> rcases hb : b.1.completedAt with _ | t' <;>
    rcases hc : c.1.completedAt with _ | t'' <;>
      simp only [historyOrder, ha, hb, hc, decide_eq_true_eq, reduceCtorEq] at h h' ⊢
  · omega
  · exact htimes _ _ _ _ _ _ h h'

/-- Of two rows one comes first. -/
instance historyOrder_total : Std.Total fun a b : HistoryRow => historyOrder a b = true := by
  refine ⟨fun a b => ?_⟩
  have htimes : ∀ (t t' : ℤ) (i i' : ℕ), (t' < t ∨ (t' = t ∧ i' ≤ i)) ∨
      (t < t' ∨ (t = t' ∧ i ≤ i')) := by
    omega
  rcases ha : a.1.completedAt with _ | t <;> rcases hb : b.1.completedAt with _ | t' <;>
    simp only [historyOrder, ha, hb, decide_eq_true_eq, reduceCtorEq, or_true, true_or]
  · omega
  · exact htimes _ _ _ _

/-- The rows come in the order of their keys. -/
theorem Db.Historic.historyRows_sorted (hs : s.Historic) (hr : Reversing s) :
    (s.historyRows tenant account).Pairwise fun a b => HistoryBehind a.key b.key := by
  have hordered : (s.historyRows tenant account).Pairwise fun a b => historyOrder a b = true :=
    List.pairwise_insertionSort _ _
  have hdistinct : ((s.historyRows tenant account).map fun row => row.1.id).Nodup := by
    rw [((hs.historyRows_perm hr).map _).nodup_iff, List.map_map]
    exact (s.transfers.nodup.sublist (List.filter_sublist.map _))
  rw [List.Nodup, List.pairwise_map] at hdistinct
  refine (hordered.and hdistinct).imp_of_mem fun {a b} ha hb h => ?_
  obtain ⟨-, t, ht⟩ := hs.stamped _ ((hs.mem_historyRows hr).mp ha).1
  obtain ⟨-, t', ht'⟩ := hs.stamped _ ((hs.mem_historyRows hr).mp hb).1
  have horder := h.1
  have hne : b.1.id.toNat ≠ a.1.id.toNat := fun heq => h.2 (uuid_of_number heq.symm)
  rw [historyOrder_some ht ht', decide_eq_true_eq] at horder
  unfold HistoryBehind HistoryRow.key
  rw [ht, ht']
  exact horder.imp_right fun h => ⟨h.1, lt_of_le_of_ne h.2 hne⟩

/-- A row of a completed transfer is scanned. -/
theorem Transfer.Stamped.scan (h : row.1.Stamped) :
    row.scan account = .ok (row.entryOf account) ∧ (row.entryOf account).historyKey = row.key ∧
      ∃ t, row.1.completedAt = some (instant t) ∧ row.entryOf account = row.entry account t := by
  obtain ⟨-, t, ht⟩ := h
  have hstored : row.1.completedAt.bind timestamp? = some t := by
    rw [ht, Option.bind_some, timestamp?,
      dif_pos ⟨Int.natCast_nonneg t.micros, show (t.micros : ℤ).toNat < _ from t.inRange⟩]
    rfl
  have hentry : row.entryOf account = row.entry account t := by
    rw [HistoryRow.entryOf, hstored, Option.getD_some]
  refine ⟨?_, ?_, t, ht, hentry⟩
  · unfold HistoryRow.scan
    rw [hstored, hentry]
  · rw [hentry, HistoryRow.historyKey_entry, HistoryRow.key, ht]
    rfl

/-- The pages are those of a listing by key. -/
theorem Db.Historic.historyPage_eq (hs : s.Historic) (hr : Reversing s) (rawCursor : String)
    (limit : ℕ) : s.historyPage tenant account rawCursor limit =
      keysetPage HistoryBehind "" (fun raw => (decodeHistoryCursor raw).bind HistoryCursor.position)
        encodeHistoryCursor ExportedEntry.historyKey (s.accountHistory tenant account) rawCursor
        limit := by
  have hstamped : ∀ row ∈ s.historyRows tenant account, row.1.Stamped := fun row hrow =>
    hs.stamped _ ((hs.mem_historyRows hr).mp hrow).1
  unfold Db.historyPage keysetPage Db.accountHistory
  -- An unreadable cursor fails both ways.
  rcases hdecode : decodeHistoryCursor rawCursor with e | cursor
  · simp only [hdecode, bind, Except.bind, Except.map]
  rcases hposition : cursor.position with e | position
  · simp only [hdecode, bind, Except.bind, hposition, Except.map]
  -- The condition of the query and the keyset order agree on stamped rows.
  have hbehind : ∀ row ∈ s.historyRows tenant account, HistoryRow.behind position row =
      position.all fun k => HistoryBehind k (row.entryOf account).historyKey := by
    intro row hrow
    obtain ⟨-, hkey, t, ht, -⟩ := @Transfer.Stamped.scan account row (hstamped row hrow)
    rw [hkey, HistoryRow.behind, HistoryRow.key, ht]
    rfl
  -- Scanning a stamped row never fails.
  have hscan : ∀ rows : List HistoryRow, (∀ row ∈ rows, row.1.Stamped) →
      rows.mapM (HistoryRow.scan account) = .ok (rows.map (HistoryRow.entryOf account)) := by
    intro rows hrows
    induction rows with
    | nil => rfl
    | cons row rows ih =>
      have hhead := (@Transfer.Stamped.scan account row (hrows row List.mem_cons_self)).1
      rw [List.mapM_cons, hhead, ih fun row h => hrows row (List.mem_cons_of_mem _ h)]
      rfl
  have hfound : (((s.historyRows tenant account).filter (HistoryRow.behind position)).take
      (limit + 1)).mapM (HistoryRow.scan account) =
        .ok ((((s.historyRows tenant account).map (HistoryRow.entryOf account)).filter fun e =>
          position.all fun k => HistoryBehind k e.historyKey).take (limit + 1)) := by
    rw [hscan _ fun row hrow => hstamped row (List.mem_of_mem_filter (List.mem_of_mem_take hrow)),
      List.map_take, List.filter_map, List.filter_congr hbehind]
    rfl
  simp only [hdecode, bind, Except.bind, hposition, hfound, Except.map]
  split_ifs <;> rfl

/-- A history is in strict order, so that no two entries have one position. -/
theorem Db.Historic.accountHistory_sorted (hs : s.Historic) (hr : Reversing s) :
    (s.accountHistory tenant account).Pairwise fun a b =>
      HistoryBehind a.historyKey b.historyKey := by
  rw [Db.accountHistory, List.pairwise_map]
  refine (hs.historyRows_sorted hr).imp_of_mem fun {a b} ha hb h => ?_
  have ha := hs.stamped _ ((hs.mem_historyRows hr).mp ha).1
  have hb := hs.stamped _ ((hs.mem_historyRows hr).mp hb).1
  rw [(@Transfer.Stamped.scan account a ha).2.1, (@Transfer.Stamped.scan account b hb).2.1]
  exact h

/-- The cursor of an entry of an account stands for its key. -/
theorem Db.Historic.decode_encode (hs : s.Historic) (hr : Reversing s)
    (htime : ∀ x ∈ s.transfers, x.completedAt ≠ some 0) {e : ExportedEntry}
    (he : e ∈ s.accountHistory tenant account) :
    (decodeHistoryCursor (encodeHistoryCursor e)).bind HistoryCursor.position =
      .ok (some e.historyKey) := by
  obtain ⟨row, hrow, rfl⟩ := List.mem_map.mp he
  have hx := ((hs.mem_historyRows hr).mp hrow).1
  obtain ⟨-, -, t, ht, hentry⟩ := @Transfer.Stamped.scan account row (hs.stamped _ hx)
  have hid : (row.entry account t).transferId = goString row.1.id.text := by
    rw [HistoryRow.entry]
  have hne : (row.entry account t).occurredAt.micros ≠ 0 := by
    intro hzero
    have hmicros : t.micros = 0 := hzero
    apply htime _ hx
    rw [ht, instant, hmicros, Nat.cast_zero]
  rw [hentry]
  exact position_encode hid hne

/-- The empty cursor is the start. -/
theorem decode_start :
    (decodeHistoryCursor "").bind HistoryCursor.position = .ok none := by
  decide +kernel

end Rows

/-! ## What the entries say -/

/-- The entry tells of the transfer, and of its correction when it takes part in one. -/
def Db.Tells (s : Db) (account : Uuid) (x : Transfer) (e : ExportedEntry) : Prop :=
  ∃ t correction, x.completedAt = some (instant t) ∧
    (∀ k, correction = some k ↔ k ∈ s.corrections ∧ k.Concerns x) ∧
      e = HistoryRow.entry account (x, correction) t

/-- The entries are the history of the account: one entry for each of its posted transfers, the
newest first. -/
structure Db.HistoryOf (s : Db) (tenant account : Uuid) (entries : List ExportedEntry) : Prop where
  sorted : entries.Pairwise fun e e' => HistoryBehind e.historyKey e'.historyKey
  complete : ∀ x ∈ s.transfers, x.InHistory tenant account → ∃ e ∈ entries, s.Tells account x e
  sound : ∀ e ∈ entries, ∃ x ∈ s.transfers, x.InHistory tenant account ∧ s.Tells account x e

section Entries

variable {s : Db} {tenant account : Uuid}

/-- The listed history is the history of the account. -/
theorem Db.Historic.historyOf (hs : s.Historic) (hr : Reversing s) :
    s.HistoryOf tenant account (s.accountHistory tenant account) := by
  have htells : ∀ x ∈ s.transfers,
      s.Tells account x (HistoryRow.entryOf account (x, s.correctionOf x)) := by
    intro x hx
    obtain ⟨-, -, t, ht, hentry⟩ :=
      @Transfer.Stamped.scan account (x, s.correctionOf x) (hs.stamped x hx)
    exact ⟨t, _, ht, fun k => hs.correctionOf_eq_some hr hx, hentry⟩
  refine ⟨hs.accountHistory_sorted hr, fun x hx hhistory => ?_, fun e he => ?_⟩
  · exact ⟨_, List.mem_map_of_mem ((hs.mem_historyRows hr).mpr ⟨hx, hhistory, rfl⟩), htells x hx⟩
  · obtain ⟨row, hrow, rfl⟩ := List.mem_map.mp he
    obtain ⟨hx, hhistory, hjoin⟩ := (hs.mem_historyRows hr).mp hrow
    have hrow : row = (row.1, s.correctionOf row.1) := Prod.ext rfl hjoin
    rw [hrow]
    exact ⟨_, hx, hhistory, htells _ hx⟩

/-- A decimal text is an exact cell. -/
theorem isExactMinor_decimal (n : ℤ) : isExactMinor (goString (decimal n)) = true := by
  obtain ⟨sign, digits, htext, hsign, hne, hdigits, hzero⟩ := decimal_shape n
  -- No digits but a lone zero start with a zero.
  have hcount : isExactCount (digits.map .char) = true := by
    rcases digits with _ | ⟨c, cs⟩
    · exact absurd rfl hne
    rw [List.map_cons, isExactCount, decide_eq_true_eq]
    have hc := hdigits c List.mem_cons_self
    have hcs : ∀ c ∈ cs, c.isDigit = true := fun c h => hdigits c (List.mem_cons_of_mem _ h)
    rcases hzero with hzero | hzero
    · obtain ⟨rfl, rfl⟩ := List.cons.inj hzero
      exact .inl ⟨rfl, rfl⟩
    · obtain ⟨d, hd, rfl⟩ := digit_cases hc fun h => hzero (h ▸ rfl)
      refine .inr ⟨?_, ?_, ?_⟩
      · interval_cases d <;> decide
      · interval_cases d <;> decide
      · rw [List.all_map, List.all_eq_true]
        exact hcs
  rw [goString, htext, List.map_append, isExactMinor]
  -- A sign is a minus or missing.
  rcases hsign with rfl | rfl
  · rw [List.map_nil, List.nil_append, hcount, Bool.true_or]
  · rw [List.map_singleton, List.singleton_append, List.head?_cons, List.tail_cons, hcount]
    simp [GoRune.rune]

/-- A currency is a cell of a currency. -/
theorem isCurrencyCell_currency {currency : String} (h : IsCurrency currency) :
    isCurrencyCell (goString currency) = true := by
  unfold isCurrencyCell goString
  rw [List.length_map, List.all_map, decide_eq_true_eq, List.all_eq_true]
  exact ⟨h.1, fun c hc => decide_eq_true (h.2 c hc)⟩

/-- The export refuses no entry of a history. -/
theorem Db.Historic.rows (hs : s.Historic) (hr : Reversing s) {ε : Type}
    {entries : List ExportedEntry} (h : ∀ e ∈ entries, e ∈ s.accountHistory tenant account) :
    ∃ rows, entries.mapM accountLedgerRow = (.ok rows : Except (ExportError ε) _) := by
  induction entries with
  | nil => exact ⟨[], rfl⟩
  | cons e entries ih =>
    obtain ⟨rows, hrows⟩ := ih fun e he => h e (List.mem_cons_of_mem _ he)
    obtain ⟨x, hx, -, t, correction, -, -, rfl⟩ :=
      (hs.historyOf hr).sound e (h e List.mem_cons_self)
    have hexact : ¬(isExactMinor (HistoryRow.entry account (x, correction) t).amount = false ∨
        isCurrencyCell (HistoryRow.entry account (x, correction) t).currency = false) := by
      change ¬(isExactMinor (goString (decimal x.amount)) = false ∨
        isCurrencyCell (goString x.currency) = false)
      rw [isExactMinor_decimal, isCurrencyCell_currency (hs.stamped x hx).1]
      decide
    rw [List.mapM_cons, accountLedgerRow, if_neg hexact, hrows]
    exact ⟨_, rfl⟩

end Entries

/-! ## Exports of the history -/

section Reading

variable {s : Db} {tenantId actorId accountId : String} {tenant account : Uuid}

/-- The pages of an owner. -/
theorem Db.listAccountHistory_eq
    (hscope : (TenantScope.canonical ⟨tenantId, actorId⟩).isSome = true)
    (htenant : castUuid tenantId = some tenant) (haccount : castUuid accountId = some account)
    (howner : s.settings.MayReadHistory tenant account actorId) :
    s.listAccountHistory tenantId actorId accountId = s.historyPage tenant account := by
  obtain ⟨scope, hscope⟩ := Option.isSome_iff_exists.mp hscope
  funext rawCursor limit
  unfold Db.listAccountHistory
  simp only [hscope, htenant, haccount, not_true_eq_false, if_false, howner]

/-- A page that is handed out is one of a listing by key. -/
theorem Db.Historic.history_ok (hs : s.Historic) (hr : Reversing s)
    (htenant : castUuid tenantId = some tenant) (haccount : castUuid accountId = some account)
    {cursor : String} {limit : ℕ} {page : List ExportedEntry × String}
    (h : s.history tenantId actorId accountId cursor limit = .ok page) :
    0 < limit ∧ keysetPage HistoryBehind ""
      (fun raw => (decodeHistoryCursor raw).bind HistoryCursor.position) encodeHistoryCursor
      ExportedEntry.historyKey (s.accountHistory tenant account) cursor limit = .ok page := by
  unfold Db.history at h
  split_ifs at h with _ hlimit
  refine ⟨by omega, ?_⟩
  rw [Int.toNat_natCast] at h
  unfold Db.listAccountHistory at h
  rw [← hs.historyPage_eq hr]
  split at h
  · cases h
  · simp only [htenant, haccount] at h
    split_ifs at h
    exact h

end Reading

/-- **The ledger export of an account is complete.** -/
theorem account_ledger_exported (d : Digest) {s : Db} (hs : s.Provisioned) (cs : List Call)
    (service : ExportService HistoryError)
    (hrepository : service.repository.listAccountHistory =
      (run (exec d) cs s).listAccountHistory) {tenantId actorId accountId : String}
    {tenant account : Uuid} (hscope : (TenantScope.canonical ⟨tenantId, actorId⟩).isSome = true)
    (htenant : castUuid tenantId = some tenant) (haccount : castUuid accountId = some account)
    (hblank : trimSpace accountId ≠ "")
    (howner : (run (exec d) cs s).settings.MayReadHistory tenant account actorId)
    (htime : ∀ x ∈ (run (exec d) cs s).transfers, x.completedAt ≠ some 0) {requestedRows : ℤ}
    {limit : ℕ} (hlimit : service.validate tenantId requestedRows = .ok limit) :
    ∃ entries, (run (exec d) cs s).HistoryOf tenant account entries ∧
      (entries.take limit).mapM (@accountLedgerRow HistoryError) =
        .ok (service.streamAccountLedger tenantId actorId accountId requestedRows).rows ∧
      (service.streamAccountLedger tenantId actorId accountId requestedRows).error = none ∧
      ((service.streamAccountLedger tenantId actorId accountId requestedRows).truncated = true ↔
        limit < entries.length) := by
  obtain ⟨hr, hh⟩ := run_historic d cs hs
  -- The scope was accepted, so that the actor is not blank.
  have hactor : trimSpace actorId ≠ "" := by
    obtain ⟨scope, hscope⟩ := Option.isSome_iff_exists.mp hscope
    unfold TenantScope.canonical at hscope
    obtain ⟨t, -, hscope⟩ := Option.bind_eq_some_iff.mp hscope
    split_ifs at hscope with hrefused
    rw [not_or, not_or, not_or, not_not] at hrefused
    rw [hrefused.2.2.1]
    exact hrefused.1
  -- Every page of the repository is a page of the one keyset over the history.
  have hannounces : Announces "" (service.repository.listAccountHistory tenantId actorId accountId)
      ((run (exec d) cs s).accountHistory tenant account) := by
    have hpages : (run (exec d) cs s).historyPage tenant account = keysetPage HistoryBehind ""
        (fun raw => (decodeHistoryCursor raw).bind HistoryCursor.position) encodeHistoryCursor
        ExportedEntry.historyKey ((run (exec d) cs s).accountHistory tenant account) :=
      funext fun rawCursor => funext fun n => hh.historyPage_eq hr rawCursor n
    rw [hrepository, Db.listAccountHistory_eq hscope htenant haccount howner, hpages]
    exact announces_keyset (hh.accountHistory_sorted hr) decode_start
      fun e he => hh.decode_encode hr htime he
  have hhonest := service.streamAccountLedger_honest hlimit hactor hblank hannounces
  -- Every entry of the history can be written as a row.
  obtain ⟨rows, hrows⟩ := @Db.Historic.rows _ tenant account hh hr HistoryError
    (((run (exec d) cs s).accountHistory tenant account).take limit)
    fun e he => List.mem_of_mem_take he
  have hended := hhonest.completed.mpr ⟨rows, hrows⟩
  exact ⟨_, hh.historyOf hr, hhonest.written hended, hended, hhonest.flagged hended⟩

/-- Entries of different transfers are different. -/
theorem Db.Tells.transfer_eq {s : Db} {account : Uuid} {x y : Transfer} {e : ExportedEntry}
    (h : s.Tells account x e) (h' : s.Tells account y e) : x.id = y.id := by
  obtain ⟨t, k, -, -, he⟩ := h
  obtain ⟨t', k', -, -, he'⟩ := h'
  have htexts :=
    congrArg (fun e => String.ofList (e.transferId.map GoRune.rune)) (he.symm.trans he')
  simp only [HistoryRow.entry, ofList_goString] at htexts
  exact Uuid.text_inj.mp htexts

namespace Sample

/-- A service whose repository reads the histories behind a correction. -/
def historyService : ExportService HistoryError where
  repository := {
    listTransfers := fun _ _ _ => .ok ([], "")
    listAccountHistory :=
      (run (exec correctionDigest) correctionCalls correctionDb).listAccountHistory
    listReconciliationRuns := fun _ _ _ => .ok ([], "")
    listReconciliationMismatches := fun _ _ _ _ _ => .ok ([], "") }
  pageSize := 250
  maxRows := 10000
  pageSize_bounds := defaultPageSize_bounds
  maxRows_bounds := defaultMaxRows_bounds

/-- What the sample has: a reader, a permission, completed transfers and one that was corrected. -/
theorem corrected_facts :
    (TenantScope.canonical ⟨tenant.text, alice⟩).isSome = true ∧ trimSpace tenant.text ≠ "" ∧
      trimSpace source.text ≠ "" ∧
      (run (exec correctionDigest) correctionCalls correctionDb).settings.MayReadHistory tenant
        source alice ∧
      (∀ x ∈ (run (exec correctionDigest) correctionCalls correctionDb).transfers.rows,
        x.completedAt ≠ some 0) ∧
      ∃ x ∈ (run (exec correctionDigest) correctionCalls correctionDb).transfers.rows,
        x.InHistory tenant source ∧
          ∃ y ∈ (run (exec correctionDigest) correctionCalls correctionDb).transfers.rows,
            y.InHistory tenant source ∧ x.id ≠ y.id := by
  decide +kernel

/-- The sample service accepts a limit of one row. -/
theorem historyService_validate : historyService.validate tenant.text 1 = .ok 1 := by
  have hmax : ¬((1 : ℤ) < 1 ∨ ((10000 : ℕ) : ℤ) < 1) := by omega
  rw [ExportService.validate, if_neg corrected_facts.2.1]
  exact if_neg hmax

end Sample

/-- The export of one row for the owner of the source, which was debited and then got its money
back, says that it leaves a row out. -/
theorem account_ledger_exported_sample : ∃ entries,
    (run (exec Sample.correctionDigest) Sample.correctionCalls Sample.correctionDb).HistoryOf
      Sample.tenant Sample.source entries ∧
      (Sample.historyService.streamAccountLedger Sample.tenant.text Sample.alice Sample.source.text
        1).error = none ∧
      (Sample.historyService.streamAccountLedger Sample.tenant.text Sample.alice Sample.source.text
        1).truncated = true := by
  obtain ⟨hscope, -, hblank, howner, htime, x, hx, hxh, y, hy, hyh, hne⟩ := Sample.corrected_facts
  have hprovisioned : Sample.correctionDb.Provisioned :=
    Sample.provisioned.configured Sample.correctionSettings
  obtain ⟨entries, hhistory, -, hended, hflag⟩ := account_ledger_exported Sample.correctionDigest
    hprovisioned Sample.correctionCalls Sample.historyService rfl hscope
    (castUuid_text Sample.tenant) (castUuid_text Sample.source) hblank howner htime
    Sample.historyService_validate
  refine ⟨entries, hhistory, hended, hflag.mpr ?_⟩
  obtain ⟨e, he, hxe⟩ := hhistory.complete x hx hxh
  obtain ⟨e', he', hye⟩ := hhistory.complete y hy hyh
  by_contra hshort
  obtain ⟨e₀, rfl⟩ := List.length_eq_one_iff.mp
    (Nat.le_antisymm (Nat.le_of_not_lt hshort) (List.length_pos_of_mem he))
  rw [List.mem_singleton] at he he'
  exact hne (hxe.transfer_eq (he.trans he'.symm ▸ hye))

/-! ## Reading while commands go on -/

/-- A transfer that is stored stays stored in every history. -/
theorem run_transfer_kept (d : Digest) (cs : List Call) {s : Db} {x : Transfer}
    (hx : x ∈ s.transfers) : x ∈ (run (exec d) cs s).transfers := by
  have hfind : (run (exec d) cs s).transfers.find? x.id = some x :=
    run_invariant (I := fun s => s.transfers.find? x.id = some x)
      (fun _ _ _ _ h hI => (exec_effect h).change.transfer_kept hI) cs
      (Table.find?_eq_some.mpr ⟨hx, rfl⟩)
  exact Table.mem_of_find? hfind

/-- Commands and then more commands. -/
theorem foldl_run (d : Digest) (batches : List (List Call)) (s : Db) :
    batches.foldl (fun s cs => run (exec d) cs s) s = run (exec d) batches.flatten s := by
  induction batches generalizing s with
  | nil => rfl
  | cons cs batches ih => rw [List.foldl_cons, ih, List.flatten_cons, run_append]

/-- The history of an account as a listing by key. -/
def historyListing (d : Digest) {tenantId actorId accountId : String} {tenant account : Uuid}
    (htenant : castUuid tenantId = some tenant) (haccount : castUuid accountId = some account) :
    LiveListing HistoryBehind (fun s cs => run (exec d) cs s)
      (fun s cursor n => s.history tenantId actorId accountId cursor (n : ℕ)) ""
      ExportedEntry.historyKey (fun s => s.accountHistory tenant account)
      (fun s => Reversing s ∧ s.Historic ∧ ∀ x ∈ s.transfers, x.completedAt ≠ some 0) where
  decode raw := (decodeHistoryCursor raw).bind HistoryCursor.position
  encode := encodeHistoryCursor
  page s hs cursor n x h := hs.2.1.history_ok hs.1 htenant haccount h
  sorted s hs := hs.2.1.accountHistory_sorted hs.1
  grows s cs hs hs' e he := by
    obtain ⟨row, hrow, rfl⟩ := List.mem_map.mp he
    obtain ⟨hx, hhistory, -⟩ := (hs.2.1.mem_historyRows hs.1).mp hrow
    have hx' := run_transfer_kept d cs hx
    have hrow' : (row.1, (run (exec d) cs s).correctionOf row.1) ∈
        (run (exec d) cs s).historyRows tenant account :=
      (hs'.2.1.mem_historyRows hs'.1).mpr ⟨hx', hhistory, rfl⟩
    refine ⟨_, List.mem_map_of_mem hrow', ?_⟩
    rw [(@Transfer.Stamped.scan account row (hs.2.1.stamped _ hx)).2.1,
      (@Transfer.Stamped.scan account (row.1, (run (exec d) cs s).correctionOf row.1)
        (hs'.2.1.stamped _ hx')).2.1]
    rfl
  decode_start := decode_start
  decode_encode s hs e he := hs.2.1.decode_encode hs.1 hs.2.2 he

/-- **A reader of a history misses nothing that was posted before it began**, whatever is posted
between its pages, and reads nothing twice. -/
theorem history_read_live (d : Digest) {s : Db} (hs : s.Provisioned) (before : List Call)
    (pages : List (List Call × ℕ)) {tenantId actorId accountId : String} {tenant account : Uuid}
    (htenant : castUuid tenantId = some tenant) (haccount : castUuid accountId = some account)
    (htime : ∀ x ∈ (run (exec d) (before ++ (pages.map Prod.fst).flatten) s).transfers,
      x.completedAt ≠ some 0) {entries : List ExportedEntry} {finished : Bool}
    (h : crawl (fun s cs => run (exec d) cs s)
      (fun s cursor n => s.history tenantId actorId accountId cursor (n : ℕ)) "" pages
      (run (exec d) before s) "" = .ok (entries, finished)) :
    entries.Pairwise (fun e e' => HistoryBehind e.historyKey e'.historyKey) ∧
      (∀ e ∈ entries, ∃ earlier, earlier <+: pages.map Prod.fst ∧
        ∃ x ∈ (run (exec d) (before ++ earlier.flatten) s).transfers,
          x.InHistory tenant account ∧
            (run (exec d) (before ++ earlier.flatten) s).Tells account x e) ∧
      (finished = true → ∀ x ∈ (run (exec d) before s).transfers, x.InHistory tenant account →
        ∃ e ∈ entries, e.transferId = goString x.id.text) := by
  -- The state before a page is that after all the commands up to it.
  have hstates : ∀ earlier : List (List Call),
      earlier.foldl (fun s cs => run (exec d) cs s) (run (exec d) before s) =
        run (exec d) (before ++ earlier.flatten) s := fun earlier => by
    rw [foldl_run, run_append]
  -- Transfers are never removed, so that the condition on the times holds in every earlier state.
  have hI : ∀ earlier, earlier <+: pages.map Prod.fst →
      Reversing (run (exec d) (before ++ earlier.flatten) s) ∧
        (run (exec d) (before ++ earlier.flatten) s).Historic ∧
          ∀ x ∈ (run (exec d) (before ++ earlier.flatten) s).transfers,
            x.completedAt ≠ some 0 := by
    rintro earlier ⟨later, hlater⟩
    obtain ⟨hr, hh⟩ := run_historic d (before ++ earlier.flatten) hs
    refine ⟨hr, hh, fun x hx => htime x ?_⟩
    rw [← hlater, List.flatten_append, ← List.append_assoc, run_append]
    exact run_transfer_kept d _ hx
  obtain ⟨hsorted, hfrom, hall⟩ := crawl_keyset (historyListing d htenant haccount)
    (fun earlier hearlier => (hstates earlier).symm ▸ hI earlier hearlier)
    (historyListing d htenant haccount).decode_start h
  have htold : ∀ e ∈ entries, ∃ earlier, earlier <+: pages.map Prod.fst ∧
      ∃ x ∈ (run (exec d) (before ++ earlier.flatten) s).transfers, x.InHistory tenant account ∧
        (run (exec d) (before ++ earlier.flatten) s).Tells account x e := by
    intro e he
    obtain ⟨-, earlier, hearlier, hrow⟩ := hfrom e he
    rw [hstates] at hrow
    obtain ⟨hr, hh, -⟩ := hI earlier hearlier
    exact ⟨earlier, hearlier, (hh.historyOf hr).sound e hrow⟩
  -- An entry in the first state is behind no cursor at the start, so that the crawl reaches it.
  refine ⟨hsorted, htold, fun hfinished x hx hhistory => ?_⟩
  have hstart := hI [] List.nil_prefix
  rw [List.flatten_nil, List.append_nil] at hstart
  obtain ⟨e₀, he₀, t, k, -, -, rfl⟩ := (hstart.2.1.historyOf hstart.1).complete x hx hhistory
  obtain ⟨e, he, hkey⟩ := List.mem_map.mp (hall hfinished _ (mem_behind.mpr
    ⟨he₀, fun _ hnone => by cases hnone⟩))
  obtain ⟨earlier, -, y, -, -, t', k', -, -, rfl⟩ := htold e he
  rw [HistoryRow.historyKey_entry, HistoryRow.historyKey_entry] at hkey
  -- The key holds the number of the id, which gives back the id.
  have hid : y.id = x.id := uuid_of_number (Prod.mk.inj hkey).2
  refine ⟨_, he, ?_⟩
  rw [HistoryRow.entry, hid]

namespace Sample

/-- A transfer of 200 in the hour behind that of the transfer of 100. -/
def secondTransfer : Call :=
  .submitTransfer session (request (big 200) fingerprint200 "sample-transfer-02" (hour 1)) (ids 200)

/-- Another transfer of 100 in the first hour. -/
def thirdTransfer : Call :=
  .submitTransfer session (request (big 100) fingerprint100 "sample-transfer-03" (hour 0)) (ids 300)

/-- A page of one entry, and a page of two with a transfer posted before it. -/
def readPages : List (List Call × ℕ) := [([], 1), ([thirdTransfer], 2)]

/-- What the reader of these pages gets. -/
def readHistory : Except HistoryError (List ExportedEntry × Bool) :=
  crawl (fun s cs => run (exec digest) cs s)
    (fun s cursor n => s.history tenant.text alice source.text cursor (n : ℕ)) "" readPages
    (run (exec digest) [transfer, secondTransfer] db) ""

/-- The reader gets all three transfers and comes to the last page. -/
theorem readHistory_facts :
    (readHistory.map fun r => (r.1.length, r.2)).toOption = some (3, true) ∧
    (∀ x ∈ (run (exec digest)
      ([transfer, secondTransfer] ++ (readPages.map Prod.fst).flatten) db).transfers.rows,
        x.completedAt ≠ some 0) ∧
    ∀ id ∈ [uuid 100, uuid 200], ∃ x ∈ (run (exec digest) [transfer, secondTransfer]
      db).transfers.rows, x.InHistory tenant source ∧ x.id = id := by
  decide +kernel

end Sample

/-- Between the two pages of the history of the source a transfer is posted, which the second page
shows. The reader finds both transfers that were there before, and no transfer twice. -/
theorem history_read_live_sample : ∃ entries : List ExportedEntry,
    Sample.readHistory = .ok (entries, true) ∧ entries.length = 3 ∧
      entries.Pairwise (fun e e' => HistoryBehind e.historyKey e'.historyKey) ∧
      (∃ e ∈ entries, e.transferId = goString (Sample.uuid 100).text) ∧
      ∃ e ∈ entries, e.transferId = goString (Sample.uuid 200).text := by
  obtain ⟨hread, htime, hposted⟩ := Sample.readHistory_facts
  rcases hcrawl : Sample.readHistory with e | ⟨entries, finished⟩
  · rw [hcrawl] at hread
    cases hread
  rw [hcrawl] at hread
  obtain ⟨hlength, rfl⟩ := Prod.mk.inj (Option.some.inj hread)
  obtain ⟨hsorted, -, hall⟩ := history_read_live Sample.digest Sample.provisioned
    [Sample.transfer, Sample.secondTransfer] Sample.readPages (castUuid_text Sample.tenant)
    (castUuid_text Sample.source) htime hcrawl
  have hfound : ∀ id ∈ [Sample.uuid 100, Sample.uuid 200], ∃ e ∈ entries,
      e.transferId = goString id.text := by
    intro id hid
    obtain ⟨x, hx, hhistory, rfl⟩ := hposted id hid
    exact hall rfl x hx hhistory
  exact ⟨entries, rfl, hlength, hsorted, hfound _ List.mem_cons_self,
    hfound _ (List.mem_cons_of_mem _ List.mem_cons_self)⟩

end LedgerSync
