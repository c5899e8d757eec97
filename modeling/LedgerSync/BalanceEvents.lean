import LedgerSync.HoldLifecycle
import LedgerSync.Projector

/-!
# The stream of balance events

Six commands raise the version of a balance, and each stores an event for it. For every customer
account and after every history, the stored events carry the versions `1, 2, …` up to the version
of the balance, and the projector reads from each of them the balance as it stood right after the
call that stored it (`balance_event_stream`).

The events of a clearing account are not complete: a funding command moves its balance without an
event. Customer accounts are the ones that may not go negative, which is an invariant of its own
(`CustomersCovered`).
-/

namespace LedgerSync

open Lib

/-! ## Customer accounts do not go negative -/

/-- Rewritten balances keep which of them may go negative. -/
def SignKept (t t' : Table Balance.accountId) : Prop :=
  ∀ x b', t'.find? x = some b' → ∃ b, t.find? x = some b ∧ b'.allowNegative = b.allowNegative

/-- The signs are kept when nothing happens. -/
theorem SignKept.refl (t : Table Balance.accountId) : SignKept t t := fun _ b hb => ⟨b, hb, rfl⟩

/-- Keeping the signs composes. -/
theorem SignKept.trans {t t₁ t' : Table Balance.accountId} (h : SignKept t t₁)
    (h' : SignKept t₁ t') : SignKept t t' := by
  intro x b' hb'
  obtain ⟨b₁, hb₁, hsign⟩ := h' x b' hb'
  obtain ⟨b, hb, hsign₁⟩ := h x b₁ hb₁
  exact ⟨b, hb, hsign.trans hsign₁⟩

/-- A balance that is written without going below zero keeps the signs. -/
theorem Balance.Written.signKept {t : Table Balance.accountId} {account : Uuid} {b b' : Balance}
    {available ledger version : ℤ} {now : Instant} (hb : t.find? account = some b)
    (hw : b.Written b' available ledger version now) : SignKept t (t.replace b') := by
  intro x c hc
  by_cases hx : x = account
  · subst hx
    obtain rfl := Option.some.inj (hc.symm.trans (hw.find?_replace hb))
    exact ⟨b, hb, hw.allowNegative⟩
  · exact ⟨c, by rw [← hw.find?_replace_ne hb hx, hc], rfl⟩

/-- A move between two balances keeps the signs. -/
theorem Balance.Move.signKept {t t' : Table Balance.accountId} {debitAccount creditAccount : Uuid}
    {amount : ℤ} {now : Instant} {source source' destination destination' : Balance}
    (h : Balance.Move t t' debitAccount creditAccount amount now source source' destination
      destination') : SignKept t t' := by
  rw [h.result]
  exact (h.source_written.signKept h.source_find).trans
    (h.destination_written.signKept h.destination_find)

/-- A move of what is available keeps the signs. -/
theorem AvailableMoved.signKept {account : Uuid} {delta : ℤ} {now : Instant}
    {t t' : Table Balance.accountId} {b b' : Balance}
    (h : AvailableMoved account delta now t t' b b') : SignKept t t' := by
  rw [h.result]
  exact h.written.signKept h.find

/-- No account of a customer may go negative. -/
def CustomersCovered (s : Db) : Prop :=
  ∀ x a b, s.accounts.find? x = some a → s.balances.find? x = some b → a.kind = .customer →
    b.allowNegative = false

section Covered

variable {d : Digest} {s s' : Db}

/-- The balance of an account that was there keeps whether it may go negative. -/
theorem Change.sign (h : Change d s s') {x : Uuid} {a : Account} {b' : Balance}
    (ha : s.accounts.find? x = some a) (hb' : s'.balances.find? x = some b') :
    ∃ b, s.balances.find? x = some b ∧ b'.allowNegative = b.allowNegative := by
  have hkeep : SignKept s.balances s'.balances → ∃ b, s.balances.find? x = some b ∧
      b'.allowNegative = b.allowNegative := fun hkept => hkept x b' hb'
  have hsame : s'.balances = s.balances → SignKept s.balances s'.balances := fun heq => by
    rw [heq]
    exact .refl _
  cases h with
  | quiet frame => exact hkeep (hsame (by rw [frame]))
  | status => exact hkeep (hsame rfl)
  | claimed _ frame => exact hkeep (hsame (by rw [frame]))
  | cleared h frame =>
    -- The new account had no row, so the balance is that of another account.
    obtain ⟨account, haccount, hins⟩ := h.accounts
    have hne : x ≠ (clearingBalance account.id 0).accountId := by
      rintro rfl
      cases ha.symm.trans (Table.insert?_eq_some.mp hins).1
    rw [show account.id = _ from (clearingAccount?_eq_some haccount).1] at hne
    refine ⟨b', ?_, rfl⟩
    rw [← hb', frame]
    exact (Table.find?_insert?_ne h.balances hne).symm
  | rejected h => exact hkeep (hsame (by rw [h.frame]; rfl))
  | posted h => exact hkeep h.move.signKept
  | corrected h => exact hkeep h.move.signKept
  | funded h => exact hkeep h.move.signKept
  | reserved h => exact hkeep h.moved.signKept
  | returned _ h => exact hkeep h.moved.signKept
  | captured h =>
    have heq : s'.balances = h.mid.balances := (congrArg Db.balances h.frame :)
    rw [heq] at hkeep
    exact hkeep ((h.freed_written.signKept h.balance_find).trans h.posted.move.signKept)
  | imported h =>
    rcases hrow : rowFor (s.manifest _) x with _ | r
    · rw [h.find?_balances_of_not_mem (rowFor_eq_none.mp hrow)] at hb'
      exact ⟨b', hb', rfl⟩
    · obtain ⟨hr, rfl⟩ := (rowFor_eq_some (nodup_manifest s _)).mp hrow
      obtain ⟨b, hwait⟩ := h.ready r hr
      obtain ⟨b₁, hb₁, hw⟩ := h.find?_balances hr hwait.balance
      obtain rfl := Option.some.inj (hb'.symm.trans hb₁)
      exact ⟨b, hwait.balance, hw.allowNegative⟩

/-- A returning call keeps the balances of customers covered. -/
theorem Change.customersCovered (h : Change d s s') (hs : CustomersCovered s) :
    CustomersCovered s' := by
  intro x a' b' ha' hb' hkind
  rcases h.account_new ha' with ⟨a, ha, hsame⟩ | ⟨-, hclearing, -⟩
  · obtain ⟨b, hb, hsign⟩ := h.sign ha hb'
    rw [hsign]
    exact hs x a b ha hb (hsame.kind.symm.trans hkind)
  · cases hkind.symm.trans hclearing

/-- The balances of customers are covered at first. -/
theorem Db.Provisioned.customersCovered (h : s.Provisioned) : CustomersCovered s := by
  intro x a b ha hb hkind
  rw [← Bool.not_eq_true]
  intro hneg
  obtain ⟨a', ha', hclearing⟩ := h.clearing b (Table.mem_of_find? hb) hneg
  rw [Table.key_of_find? hb] at ha'
  cases ha.symm.trans ha'
  cases hkind.symm.trans hclearing

/-- Every history keeps them covered. -/
theorem run_customersCovered (d : Digest) (cs : List Call) {s : Db} (hs : CustomersCovered s) :
    CustomersCovered (run (exec d) cs s) :=
  run_invariant (fun _ _ _ _ h hc => (exec_change h).customersCovered hc) cs hs

/-- Nothing reserved is negative. -/
theorem Db.reserved_nonneg (s : Db) (x : Uuid) : 0 ≤ s.reserved x := by
  refine Table.total_nonneg fun h _ => ?_
  split_ifs
  · exact h.amount_pos.le
  · exact le_refl 0

/-- The balance of a customer is not negative, and the ledger amount covers the available one. -/
theorem Booked.sound {s : Db} (hs : Booked s) (hc : CustomersCovered s) {x : Uuid} {a : Account}
    {b : Balance} (ha : s.accounts.find? x = some a) (hb : s.balances.find? x = some b)
    (hkind : a.kind = .customer) : b.Sound := by
  obtain ⟨p, hp, hbalanced⟩ := hs.balanced x a ha
  obtain ⟨b', o, hb', -, rfl⟩ := Db.position?_eq_some.mp hp
  obtain rfl := Option.some.inj (hb.symm.trans hb')
  have hsign := hc x a b ha hb hkind
  have havailable : (b.available : ℤ) = b.ledger - s.reserved x := hbalanced.available
  have hreserved := s.reserved_nonneg x
  refine ⟨?_, by omega⟩
  have hpolicy := b.available_policy
  rw [hsign] at hpolicy
  exact hpolicy.resolve_left (by decide)

end Covered

/-! ## The events of an account -/

/-- The stored balance events of an account, the newest first. -/
def balanceEventsIn (t : Table OutboxEvent.id) (x : Uuid) : List OutboxEvent :=
  t.rows.filter fun e => e.accountId = some x ∧ e.IsBalance

/-- The stored balance events of an account, the newest first. -/
def Db.balanceEvents (s : Db) (x : Uuid) : List OutboxEvent := balanceEventsIn s.outbox x

section Events

variable {t t' : Table OutboxEvent.id} {e : OutboxEvent} {x : Uuid}

/-- A balance event of the account comes first. -/
theorem balanceEventsIn_insert? (h : t.insert? e = some t') (hx : e.accountId = some x)
    (he : e.IsBalance) : balanceEventsIn t' x = e :: balanceEventsIn t x := by
  unfold balanceEventsIn
  rw [(Table.insert?_eq_some.mp h).2, List.filter_cons, if_pos (decide_eq_true ⟨hx, he⟩)]

/-- An event of another account is not among them. -/
theorem balanceEventsIn_insert?_ne (h : t.insert? e = some t') (hx : e.accountId ≠ some x) :
    balanceEventsIn t' x = balanceEventsIn t x := by
  unfold balanceEventsIn
  rw [(Table.insert?_eq_some.mp h).2, List.filter_cons, if_neg]
  simp [hx]

/-- Events of other accounts are not balance events of this one. -/
theorem balanceEventsIn_insertAll?_ne {es : List OutboxEvent} (h : t.insertAll? es = some t')
    (hx : ∀ e ∈ es, e.accountId ≠ some x) : balanceEventsIn t' x = balanceEventsIn t x := by
  induction es generalizing t with
  | nil =>
    cases h
    rfl
  | cons e es ih =>
    obtain ⟨t₁, h₁, h₂⟩ := Table.insertAll?_cons.mp h
    rw [ih h₂ fun e' he' => hx e' (List.mem_cons_of_mem _ he'),
      balanceEventsIn_insert?_ne h₁ (hx e List.mem_cons_self)]

/-- The events of an import are of the accounts of its rows, in their order. -/
theorem map_accountId {R : ImportRow → OutboxEvent → Prop} {rows : List ImportRow}
    {es : List OutboxEvent} (hR : ∀ r e, R r e → e.accountId = some r.accountId ∧ e.IsBalance)
    (hes : List.Forall₂ R rows es) :
    es.map OutboxEvent.accountId = rows.map fun r => some r.accountId := by
  induction hes with
  | nil => rfl
  | cons hhead _ ih => rw [List.map_cons, List.map_cons, ih, (hR _ _ hhead).1]

/-- Of the events of a manifest, one is of a given account of the manifest. -/
theorem balanceEventsIn_insertAll? {R : ImportRow → OutboxEvent → Prop} {rows : List ImportRow}
    {es : List OutboxEvent} (hR : ∀ r e, R r e → e.accountId = some r.accountId ∧ e.IsBalance)
    (hes : List.Forall₂ R rows es) (h : t.insertAll? es = some t')
    (hnd : (rows.map ImportRow.accountId).Nodup) {r : ImportRow} (hr : r ∈ rows) :
    ∃ e, R r e ∧ balanceEventsIn t' r.accountId = e :: balanceEventsIn t r.accountId := by
  -- The induction is on the rows; the accounts are distinct, so that one row tells of each.
  induction hes generalizing t with
  | nil => cases hr
  | @cons r₀ e₀ rows es hhead htail ih =>
    obtain ⟨t₁, h₁, h₂⟩ := Table.insertAll?_cons.mp h
    rw [List.map_cons, List.nodup_cons] at hnd
    rcases List.mem_cons.mp hr with rfl | hr'
    · -- The row comes first, and the later rows are of other accounts.
      have hothers : ∀ e ∈ es, e.accountId ≠ some r.accountId := by
        intro e he heq
        have hmem : e.accountId ∈ rows.map fun r => some r.accountId := by
          rw [← map_accountId hR htail]
          exact List.mem_map_of_mem he
        obtain ⟨r', hr', hsome⟩ := List.mem_map.mp hmem
        exact hnd.1 (List.mem_map.mpr ⟨r', hr', Option.some.inj (hsome.trans heq)⟩)
      refine ⟨e₀, hhead, ?_⟩
      rw [balanceEventsIn_insertAll?_ne h₂ hothers,
        balanceEventsIn_insert? h₁ (hR _ _ hhead).1 (hR _ _ hhead).2]
    · have hne : e₀.accountId ≠ some r.accountId := by
        rw [(hR _ _ hhead).1, ne_eq, Option.some.injEq]
        intro heq
        exact hnd.1 (List.mem_map.mpr ⟨r, hr', heq.symm⟩)
      obtain ⟨e, he, hevents⟩ := ih h₂ hnd.2 hr'
      exact ⟨e, he, by rw [hevents, balanceEventsIn_insert?_ne h₁ hne]⟩

end Events

/-! ## One command -/

/-- The command left the account alone. -/
structure BalanceKept (x : Uuid) (s s' : Db) : Prop where
  balance : s'.balances.find? x = s.balances.find? x
  events : s'.balanceEvents x = s.balanceEvents x

/-- The command raised the version of the account by one, and stored one event that reports the
new balance. -/
def BalanceMoved (x tenant : Uuid) (currency : String) (s s' : Db) : Prop :=
  ∃ b b' e, s.balances.find? x = some b ∧ s'.balances.find? x = some b' ∧
    (b'.version : ℤ) = b.version + 1 ∧ s'.balanceEvents x = e :: s.balanceEvents x ∧
    (b'.Sound → e.Reports b' tenant currency)

/-- A written row has the key that it was read with. -/
theorem Balance.Written.key {b b' : Balance} {available ledger version : ℤ} {now : Instant}
    (hw : b.Written b' available ledger version now) {t : Table Balance.accountId} {account : Uuid}
    (hb : t.find? account = some b) : b'.accountId = account :=
  hw.accountId.trans (Table.key_of_find? hb)

/-- The event of a transfer announces the balance that it was made from. -/
theorem transferBalanceEvent_announces {tenant eventId account transfer : Uuid} {currency : String}
    {b : Balance} {occurredAt : Timestamp} {amount : Option ℤ} (h : b.accountId = account) :
    (transferBalanceEvent tenant eventId account transfer currency b occurredAt amount).Announces b
      tenant currency occurredAt := by
  subst h
  exact ⟨rfl, rfl, rfl, rfl, "transfer_id", by decide, transfer, amount, rfl⟩

/-- The event of a funding announces the balance that it was made from. -/
theorem fundingBalanceEvent_announces {p : FundingPost} {ids : FundingPostIds} {e : FundingEvent}
    {b : Balance} (h : b.accountId = e.destinationAccountId) :
    (fundingBalanceEvent p ids e b).Announces b p.tenantId e.currency p.occurredAt := by
  refine ⟨rfl, congrArg some h.symm, rfl, rfl, "funding_event_id", by decide, p.fundingEventId,
    some e.destinationDelta, ?_⟩
  rw [h]
  rfl

/-- The event of an import announces the balance that it was made from. -/
theorem importEvent_announces {p : ImportExecute} {ids : ImportIds} {currency : String}
    {r : ImportRow} {b : Balance} (h : b.accountId = r.accountId) :
    (importEvent p ids currency r b).Announces b p.tenant currency p.occurredAt := by
  refine ⟨rfl, congrArg some h.symm, rfl, rfl, "opening_import_id", by decide, p.batch,
    some r.opening, ?_⟩
  rw [h]
  rfl

/-- The event of a hold carries both amounts itself. -/
theorem holdBalanceEvent_reports {tenant : Uuid} {h : Hold} {b : Balance} {ids : ChangeIds}
    {clock : ChangeClock} (hb : b.accountId = h.debitAccountId) (hcurrency : IsCurrency h.currency)
    (hsound : b.Sound) : (holdBalanceEvent tenant h b ids clock).Reports b tenant h.currency := by
  refine reports_of_payload (e := holdBalanceEvent tenant h b ids clock)
    (p := ⟨ids.outbox.text, balanceChangedV2, h.debitAccountId.text, h.currency, b.available.text,
      b.ledger.text, decimal (b.ledger - b.available), b.version.text, offsetText clock.payload⟩)
    hcurrency (.inr rfl) ?_ rfl rfl rfl rfl ?_ rfl hsound.nonneg (decodeLedger_v2 hsound rfl rfl rfl)
    rfl (parseRfc3339_offsetText clock.payload)
  · exact congrArg some hb.symm
  · exact congrArg Uuid.text hb.symm

section Commands

variable {d : Digest} {s s' : Db} {x tenant : Uuid} {currency : String}

/-- An announced balance is a move of its account. -/
theorem BalanceMoved.of_announced {b b' : Balance} {e e' : OutboxEvent} {occurredAt : Timestamp}
    (hb : s.balances.find? x = some b) (hb' : s'.balances.find? x = some b')
    (hversion : (b'.version : ℤ) = b.version + 1)
    (he : e.Announces b' tenant currency occurredAt)
    (hstored : enrichReservedBalanceEventV1 s' e = some e') (hcurrency : IsCurrency currency)
    (hevents : s'.balanceEvents x = e' :: s.balanceEvents x) :
    BalanceMoved x tenant currency s s' := by
  have hkey : s'.balances.find? b'.accountId = some b' := by rwa [Table.key_of_find? hb']
  exact ⟨b, b', e', hb, hb', hversion, hevents, (he.stored hkey hstored hcurrency).2.2⟩

/-- The two events of a movement between two accounts. -/
theorem balanceEventsIn_pair {t t₁ t₂ : Table OutboxEvent.id} {e₁ e₂ : OutboxEvent}
    {debit credit : Uuid} (hne : debit ≠ credit) (h₁ : t.insert? e₁ = some t₁)
    (h₂ : t₁.insert? e₂ = some t₂) (he₁ : e₁.accountId = some debit ∧ e₁.IsBalance)
    (he₂ : e₂.accountId = some credit ∧ e₂.IsBalance) :
    balanceEventsIn t₂ debit = e₁ :: balanceEventsIn t debit ∧
      balanceEventsIn t₂ credit = e₂ :: balanceEventsIn t credit ∧
      ∀ x, x ≠ debit → x ≠ credit → balanceEventsIn t₂ x = balanceEventsIn t x := by
  have hother₁ : ∀ x, x ≠ debit → balanceEventsIn t₁ x = balanceEventsIn t x := fun x hx =>
    balanceEventsIn_insert?_ne h₁ (by rw [he₁.1]; simpa using Ne.symm hx)
  have hother₂ : ∀ x, x ≠ credit → balanceEventsIn t₂ x = balanceEventsIn t₁ x := fun x hx =>
    balanceEventsIn_insert?_ne h₂ (by rw [he₂.1]; simpa using Ne.symm hx)
  refine ⟨?_, ?_, fun x hd hc => (hother₂ x hc).trans (hother₁ x hd)⟩
  · rw [hother₂ debit hne, balanceEventsIn_insert? h₁ he₁.1 he₁.2]
  · rw [balanceEventsIn_insert? h₂ he₂.1 he₂.2, hother₁ credit hne.symm]

/-- What a command says about the accounts that it moves and about the others. -/
structure BalancePair (debit credit tenant : Uuid) (currency : String) (s s' : Db) : Prop where
  source : BalanceMoved debit tenant currency s s'
  destination : BalanceMoved credit tenant currency s s'
  other : ∀ x, x ≠ debit → x ≠ credit → BalanceKept x s s'

/-- A movement between two accounts with an event for each. -/
theorem Balance.Move.balancePair {debit credit : Uuid} {amount : ℤ} {now : Instant}
    {source source' destination destination' : Balance} {eventId eventId' transfer : Uuid}
    {occurredAt : Timestamp} {change : Option ℤ} {e₁ e₂ : OutboxEvent}
    {t₁ t₂ : Table OutboxEvent.id}
    (h : Balance.Move s.balances s'.balances debit credit amount now source source' destination
      destination') (hne : debit ≠ credit) (hcurrency : IsCurrency currency)
    (he₁ : enrichReservedBalanceEventV1 s' (transferBalanceEvent tenant eventId debit transfer
      currency source' occurredAt change) = some e₁)
    (he₂ : enrichReservedBalanceEventV1 s' (transferBalanceEvent tenant eventId' credit transfer
      currency destination' occurredAt change) = some e₂)
    (h₁ : s.outbox.insert? e₁ = some t₁) (h₂ : t₁.insert? e₂ = some t₂)
    (hevents : ∀ x, s'.balanceEvents x = balanceEventsIn t₂ x) :
    BalancePair debit credit tenant currency s s' := by
  -- After the move each of the two accounts has the balance its event was made from.
  have hdebit := h.find?_debit hne
  have hcredit := h.find?_credit
  have hkey : source'.accountId = debit := h.source_written.key h.source_find
  have hkey' : destination'.accountId = credit := h.destination_written.key h.destination_find
  have ha₁ : (transferBalanceEvent tenant eventId debit transfer currency source' occurredAt
      change).Announces source' tenant currency occurredAt := transferBalanceEvent_announces hkey
  have ha₂ : (transferBalanceEvent tenant eventId' credit transfer currency destination' occurredAt
      change).Announces destination' tenant currency occurredAt :=
    transferBalanceEvent_announces hkey'
  obtain ⟨hacc₁, hbal₁, -⟩ := ha₁.stored (hkey.symm ▸ hdebit) he₁ hcurrency
  obtain ⟨hacc₂, hbal₂, -⟩ := ha₂.stored (hkey'.symm ▸ hcredit) he₂ hcurrency
  -- The two events are of different accounts, so that neither is in the list of the other.
  obtain ⟨hev₁, hev₂, hev⟩ :=
    balanceEventsIn_pair hne h₁ h₂ ⟨hkey ▸ hacc₁, hbal₁⟩ ⟨hkey' ▸ hacc₂, hbal₂⟩
  refine ⟨?_, ?_, fun x hd hc => ⟨h.find?_other hd hc, (hevents x).trans (hev x hd hc)⟩⟩
  · exact .of_announced h.source_find hdebit h.source_written.version ha₁ he₁ hcurrency
      ((hevents debit).trans hev₁)
  · exact .of_announced (h.find?_credit_before hne) hcredit h.destination_written.version ha₂ he₂
      hcurrency ((hevents credit).trans hev₂)

/-- A posted transfer stores and announces the balances of its two accounts. -/
theorem PostedTransfer.balancePair {p : TransferRequest} {ids : TransferIds} {body : Json}
    (h : PostedTransfer p ids s s' body) :
    BalancePair p.debitAccountId p.creditAccountId p.tenantId p.currency s s' := by
  obtain ⟨-, -, -, hd, hc, -⟩ := pendingTransfer?_eq_some h.row_eq
  obtain ⟨a, -, -, hcurrency⟩ := h.admitted.source_find
  obtain ⟨t₁, t₂, h₁, h₂, h₃⟩ := h.outbox
  refine h.move.balancePair (hd ▸ hc ▸ h.row.distinct) (hcurrency ▸ a.currency_shape)
    h.source_enrich h.destination_enrich h₁ h₂ fun x => ?_
  exact balanceEventsIn_insert?_ne h₃ (by nofun)

/-- A posted correction stores and announces the balances of its two accounts. -/
theorem PostedCorrection.balancePair {p : CorrectionPost} {ids : CorrectionPostIds}
    (h : PostedCorrection p ids s s') :
    BalancePair h.original.creditAccountId h.original.debitAccountId p.tenantId h.original.currency
      s s' := by
  obtain ⟨a, -, -, hcurrency⟩ := h.accounts.source
  obtain ⟨t₁, h₁, h₂⟩ := h.outbox
  exact h.move.balancePair h.original.distinct.symm (hcurrency ▸ a.currency_shape) h.source_enrich
    h.destination_enrich h₁ h₂ fun _ => rfl

/-- The row of an account, among those that a command moves, in one of them. -/
theorem BalancePair.step {debit credit : Uuid} (h : BalancePair debit credit tenant currency s s')
    {a : Account} (ha : s.accounts.find? x = some a)
    (hdebit : ∃ a, s.accounts.find? debit = some a ∧ a.tenantId = tenant ∧ a.currency = currency)
    (hcredit : ∃ a, s.accounts.find? credit = some a ∧ a.tenantId = tenant ∧
      a.currency = currency) :
    BalanceKept x s s' ∨ BalanceMoved x a.tenantId a.currency s s' := by
  by_cases hd : x = debit
  · subst hd
    obtain ⟨a', ha', rfl, rfl⟩ := hdebit
    cases ha.symm.trans ha'
    exact .inr h.source
  · by_cases hc : x = credit
    · subst hc
      obtain ⟨a', ha', rfl, rfl⟩ := hcredit
      cases ha.symm.trans ha'
      exact .inr h.destination
    · exact .inl (h.other x hd hc)

/-- The accounts of an admitted transfer are of its tenant and currency. -/
theorem Admitted.accounts_of {p : TransferRequest} {policy : TransferPolicy}
    {source destination : Balance} (h : Admitted s p policy source destination) :
    (∃ a, s.accounts.find? p.debitAccountId = some a ∧ a.tenantId = p.tenantId ∧
      a.currency = p.currency) ∧
    ∃ a, s.accounts.find? p.creditAccountId = some a ∧ a.tenantId = p.tenantId ∧
      a.currency = p.currency := by
  obtain ⟨a, ha, -, hcur⟩ := h.source_find
  obtain ⟨b, hb, -, hcur'⟩ := h.destination_find
  obtain ⟨hfind, -, htenant⟩ := Db.account?_eq_some.mp ha
  obtain ⟨hfind', -, htenant'⟩ := Db.account?_eq_some.mp hb
  exact ⟨⟨a, hfind, htenant, hcur⟩, b, hfind', htenant', hcur'⟩

/-- The accounts of a correction are of its tenant and its currency. -/
theorem CorrectionAccounts.accounts_of {p : CorrectionPost} {o : Transfer}
    (h : CorrectionAccounts s p o) :
    (∃ a, s.accounts.find? o.creditAccountId = some a ∧ a.tenantId = p.tenantId ∧
      a.currency = o.currency) ∧
    ∃ a, s.accounts.find? o.debitAccountId = some a ∧ a.tenantId = p.tenantId ∧
      a.currency = o.currency := by
  obtain ⟨a, _, ha, hcur⟩ := h.source
  obtain ⟨b, _, hb, hcur'⟩ := h.destination
  obtain ⟨hfind, -, htenant⟩ := Db.account?_eq_some.mp ha
  obtain ⟨hfind', -, htenant'⟩ := Db.account?_eq_some.mp hb
  exact ⟨⟨a, hfind, htenant, hcur⟩, b, hfind', htenant', hcur'⟩

/-- A funding command stores an event for the customer, and moves the clearing account without
one. -/
theorem PostedFunding.balanceStep {p : FundingPost} {ids : FundingPostIds}
    (h : PostedFunding p ids s s') (hcovered : CustomersCovered s) {a : Account}
    (ha : s.accounts.find? x = some a) (hkind : a.kind = .customer) :
    BalanceKept x s s' ∨ BalanceMoved x a.tenantId a.currency s s' := by
  have hne := h.event.distinct
  have hsystem : x ≠ h.event.systemAccountId := by
    rintro rfl
    have hsign := hcovered _ a h.clearing ha h.move.source_find hkind
    cases hsign.symm.trans h.clearing_negative
  have hkey : h.destination'.accountId = h.event.destinationAccountId :=
    h.move.destination_written.key h.move.destination_find
  have hfind := h.move.find?_credit
  obtain ⟨a', ha', htenant⟩ := h.destination_tenant
  -- The postings of the journal compare the currency with that of both accounts.
  have hcur : a'.currency = h.event.currency := by
    have hpair : (∃ c, s.accounts.find? h.event.debitAccountId = some c ∧
        c.currency = h.event.currency) ∧ ∃ c, s.accounts.find? h.event.creditAccountId = some c ∧
        c.currency = h.event.currency := ⟨h.postings.debit_currency, h.postings.credit_currency⟩
    unfold FundingEvent.debitAccountId FundingEvent.creditAccountId at hpair
    split_ifs at hpair
    · obtain ⟨-, c, hc, hcur⟩ := hpair
      cases ha'.symm.trans hc
      exact hcur
    · obtain ⟨⟨c, hc, hcur⟩, -⟩ := hpair
      cases ha'.symm.trans hc
      exact hcur
  have hann := @fundingBalanceEvent_announces p ids _ _ hkey
  obtain ⟨hacc, hbal, -⟩ := hann.stored (hkey.symm ▸ hfind) h.enrich (hcur ▸ a'.currency_shape)
  by_cases hx : x = h.event.destinationAccountId
  · subst hx
    cases ha.symm.trans ha'
    refine .inr ?_
    rw [htenant, hcur]
    exact .of_announced (h.move.find?_credit_before hne.symm) hfind
      h.move.destination_written.version hann h.enrich (hcur ▸ a.currency_shape)
      (balanceEventsIn_insert? h.outbox (hkey ▸ hacc) hbal)
  · refine .inl ⟨h.move.find?_other hsystem hx, balanceEventsIn_insert?_ne h.outbox ?_⟩
    rw [hacc, hkey, ne_eq, Option.some.injEq]
    exact Ne.symm hx

/-- A change of the available amount, with the event of its hold. -/
theorem AvailableMoved.balanceStep {hold : Hold} {delta : ℤ} {now : Instant} {b b' : Balance}
    {ids : ChangeIds} {clock : ChangeClock}
    (h : AvailableMoved hold.debitAccountId delta now s.balances s'.balances b b')
    (houtbox : s.outbox.insert? (holdBalanceEvent tenant hold b' ids clock) = some s'.outbox)
    (hplaced : hold.Placed s) (htenant : hold.tenantId = tenant) {a : Account}
    (ha : s.accounts.find? x = some a) :
    BalanceKept x s s' ∨ BalanceMoved x a.tenantId a.currency s s' := by
  by_cases hx : x = hold.debitAccountId
  · subst hx
    obtain ⟨a', ha', htenant', hcurrency, -⟩ := hplaced.source
    cases ha.symm.trans ha'
    have hfind : s'.balances.find? hold.debitAccountId = some b' := by
      rw [h.result]
      exact h.written.find?_replace h.find
    refine .inr ⟨b, b', _, h.find, hfind, h.written.version,
      balanceEventsIn_insert? houtbox rfl (.inr rfl), fun hsound => ?_⟩
    rw [htenant', htenant, hcurrency]
    exact holdBalanceEvent_reports (h.written.key h.find) hplaced.currency hsound
  · refine .inl ⟨?_, balanceEventsIn_insert?_ne houtbox ?_⟩
    · rw [h.result]
      exact h.written.find?_replace_ne h.find hx
    · rw [ne_eq, holdBalanceEvent, Option.some.injEq]
      exact Ne.symm hx

/-- A capture frees the amount without a version, so that its transfer makes the one change of the
source account. -/
theorem HoldCaptured.balancePair {p : HoldDecisionRequest} {clock : DecisionClock}
    {ids : DecisionIds} (h : HoldCaptured d p clock ids s s') :
    BalancePair h.hold.debitAccountId h.hold.creditAccountId p.tenant h.hold.currency s s' := by
  -- The balances and the events are those of the middle state.
  have hbalances : s'.balances = h.mid.balances := (congrArg Db.balances h.frame :)
  have hevents : ∀ x, s'.balanceEvents x = h.mid.balanceEvents x := fun x =>
    (congrArg (fun t : Db => t.balanceEvents x) h.frame :)
  have hother : ∀ x, x ≠ h.hold.debitAccountId →
      (s.balances.replace h.freed).find? x = s.balances.find? x := fun x hx =>
    h.freed_written.find?_replace_ne h.balance_find hx
  have hpair := h.posted.balancePair
  refine ⟨?_, ?_, fun x hd hc => ?_⟩
  -- Freeing the amount writes no version, so that the two steps make one version.
  · obtain ⟨b, b', e, hb, hb', hversion, hcons, hreports⟩ := hpair.source
    obtain rfl := Option.some.inj (hb.symm.trans (h.freed_written.find?_replace h.balance_find))
    refine ⟨h.balance, b', e, h.balance_find, by rw [hbalances]; exact hb', ?_,
      (hevents _).trans hcons, hreports⟩
    rw [hversion, h.freed_written.version]
  · obtain ⟨b, b', e, hb, hb', hversion, hcons, hreports⟩ := hpair.destination
    exact ⟨b, b', e, (hother _ h.hold.distinct.symm).symm.trans hb, by rw [hbalances]; exact hb',
      hversion, (hevents _).trans hcons, hreports⟩
  · obtain ⟨hbalance, hevent⟩ := hpair.other x hd hc
    refine ⟨?_, (hevents x).trans hevent⟩
    rw [hbalances]
    exact hbalance.trans (hother x hd)

/-- A manifest opens each of its accounts with one event, and leaves the others. -/
theorem OpeningImported.balanceStep {p : ImportExecute} {ids : ImportIds}
    (h : OpeningImported p ids s s') {a : Account} (ha : s.accounts.find? x = some a) :
    BalanceKept x s s' ∨ BalanceMoved x a.tenantId a.currency s s' := by
  -- Every event of the import is a balance event of the account of its row.
  have hannounced : ∀ r e, (∃ b, s'.balances.find? r.accountId = some b ∧
      e = importEvent p ids h.batch.currency r b) → e.accountId = some r.accountId ∧
      e.IsBalance := by
    rintro r e ⟨b, -, rfl⟩
    exact ⟨rfl, .inl rfl⟩
  -- An account outside the manifest keeps its balance and gets no event.
  rcases hrow : rowFor (s.manifest p) x with _ | r
  · have hnot := rowFor_eq_none.mp hrow
    refine .inl ⟨h.find?_balances_of_not_mem hnot, balanceEventsIn_insertAll?_ne h.outbox ?_⟩
    intro e he heq
    have hmem : e.accountId ∈ (s.manifest p).map fun r => some r.accountId := by
      rw [← map_accountId hannounced h.events_eq]
      exact List.mem_map_of_mem he
    obtain ⟨r, hr, hsome⟩ := List.mem_map.mp hmem
    exact hnot r hr (Option.some.inj (hsome.trans heq))
  · obtain ⟨hr, rfl⟩ := (rowFor_eq_some (nodup_manifest s p)).mp hrow
    obtain ⟨b, hwait⟩ := h.ready r hr
    obtain ⟨b', hb', hw⟩ := h.find?_balances hr hwait.balance
    obtain ⟨e, ⟨b₁, hb₁, rfl⟩, hcons⟩ := balanceEventsIn_insertAll? hannounced h.events_eq h.outbox
      (nodup_manifest s p) hr
    obtain rfl := Option.some.inj (hb'.symm.trans hb₁)
    obtain ⟨a', ha', htenant, hcurrency, -⟩ := hwait.account
    cases ha.symm.trans ha'
    refine .inr ⟨b, b', _, hwait.balance, hb', hw.version, hcons, fun hsound => ?_⟩
    rw [htenant, (mem_manifest.mp hr).2.2, hcurrency]
    refine (importEvent_announces (hw.key hwait.balance)).reports hsound
      (hcurrency ▸ a.currency_shape) ?_
    exact Bigint.ext (hw.ledger.trans hw.available.symm)

/-- Every command leaves a customer account alone or raises its version by one with one event. -/
theorem Change.balanceStep (h : Change d s s') (hbooked : Booked s) (hcovered : CustomersCovered s)
    {a : Account} (ha : s.accounts.find? x = some a) (hkind : a.kind = .customer) :
    BalanceKept x s s' ∨ BalanceMoved x a.tenantId a.currency s s' := by
  have hkeep : s'.balances = s.balances → s'.outbox = s.outbox →
      BalanceKept x s s' ∨ BalanceMoved x a.tenantId a.currency s s' := fun hb ho =>
    .inl ⟨by rw [hb], by rw [Db.balanceEvents, ho]; rfl⟩
  cases h with
  | quiet frame => exact hkeep (by rw [frame]) (by rw [frame])
  | status => exact hkeep rfl rfl
  | claimed _ frame => exact hkeep (by rw [frame]) (by rw [frame])
  -- A new clearing account is another one: this account exists already.
  | cleared h frame =>
    obtain ⟨account, haccount, hins⟩ := h.accounts
    obtain ⟨hid, -⟩ := clearingAccount?_eq_some haccount
    refine .inl ⟨?_, ?_⟩
    · rw [frame]
      refine Table.find?_insert?_ne h.balances ?_
      rintro rfl
      cases ha.symm.trans (hid ▸ (Table.insert?_eq_some.mp hins).1)
    · rw [frame, h.frame]
      rfl
  | rejected h => exact hkeep (by rw [h.frame]; rfl) (by rw [h.frame]; rfl)
  -- Each of the other changes has its lemma above.
  | posted h => exact h.balancePair.step ha h.admitted.accounts_of.1 h.admitted.accounts_of.2
  | corrected h => exact h.balancePair.step ha h.accounts.accounts_of.1 h.accounts.accounts_of.2
  | funded h => exact h.balanceStep hcovered ha hkind
  | reserved h =>
    obtain ⟨-, htenant, hdebit, -⟩ := activeHold?_eq_some h.hold_eq
    have hmoved := h.moved
    rw [← hdebit] at hmoved
    exact hmoved.balanceStep h.outbox h.placed htenant ha
  | returned _ h =>
    exact h.moved.balanceStep h.outbox (hbooked.holds _ (Table.mem_of_find? h.find)) h.hold_tenant ha
  | captured h =>
    exact h.balancePair.step ha h.posted.admitted.accounts_of.1 h.posted.admitted.accounts_of.2
  | imported h => exact h.balanceStep ha

end Commands

/-! ## Every history -/

/-- The versions of `n` changes, in their order. -/
def versionsTo (n : ℕ) : List ℤ := (List.range n).map fun i : ℕ => (i : ℤ) + 1

/-- The versions up to the next one are those before and it. -/
theorem versionsTo_succ (n : ℕ) : versionsTo (n + 1) = versionsTo n ++ [(n : ℤ) + 1] := by
  simp [versionsTo, List.range_succ]

/-- No version of the list is beyond its end. -/
theorem le_of_mem_versionsTo {n : ℕ} {v : ℤ} (h : v ∈ versionsTo n) : v ≤ n := by
  obtain ⟨i, hi, rfl⟩ := List.mem_map.mp h
  have := List.mem_range.mp hi
  omega

/-- One call of the history stored the event, and what the projector reads from the event is the
balance of the account right after that call. -/
def OutboxEvent.StoredIn (e : OutboxEvent) (d : Digest) (cs : List Call) (s : Db) (a : Account) :
    Prop :=
  ∃ pre c post, cs = pre ++ c :: post ∧ e ∉ (run (exec d) pre s).balanceEvents a.id ∧
    e ∈ (run (exec d) (pre ++ [c]) s).balanceEvents a.id ∧
    ∃ b asOf, (run (exec d) (pre ++ [c]) s).balances.find? a.id = some b ∧
      e.aggregateVersion = b.version ∧
      decodeBalance e.published = .ok (b.cached a.tenantId a.currency asOf)

/-- What was stored in a history is stored in a longer one. -/
theorem OutboxEvent.StoredIn.append {e : OutboxEvent} {d : Digest} {cs : List Call} {s : Db}
    {a a' : Account} (h : e.StoredIn d cs s a) (hsame : a.Same a') (ds : List Call) :
    e.StoredIn d (cs ++ ds) s a' := by
  obtain ⟨pre, c, post, rfl, hbefore, hafter, b, asOf, hb, hversion, hdecode⟩ := h
  refine ⟨pre, c, post ++ ds, by simp, ?_, ?_, b, asOf, ?_, hversion, ?_⟩
  · rw [hsame.id]
    exact hbefore
  · rw [hsame.id]
    exact hafter
  · rw [hsame.id]
    exact hb
  · rw [hsame.tenantId, hsame.currency]
    exact hdecode

/-- After every history, the stored balance events of every customer account carry the versions
`1, 2, …` up to the version of its balance, each once and in this order, and the projector reads
from each of them the tenant, the account, the currency, the two amounts and the version as they
stood right after the call that stored it. -/
theorem balance_event_stream (d : Digest) (s : Db) (hs : s.Provisioned) (cs : List Call) :
    ∀ a ∈ (run (exec d) cs s).accounts, a.kind = .customer →
      ∃ b, (run (exec d) cs s).balances.find? a.id = some b ∧
        ((run (exec d) cs s).balanceEvents a.id).reverse.map OutboxEvent.aggregateVersion =
          versionsTo (b.version : ℤ).toNat ∧
        ∀ e ∈ (run (exec d) cs s).balanceEvents a.id, e.StoredIn d cs s a := by
  -- The induction is on the history; the last call leaves the account or moves it by one version.
  induction cs using List.reverseRecOn with
  | nil =>
    intro a ha _
    obtain ⟨b, -, hb, -⟩ := hs.accounts a ha
    have hevents : s.balanceEvents a.id = [] := by
      simp [Db.balanceEvents, balanceEventsIn, hs.outbox]
    refine ⟨b, hb, ?_, ?_⟩
    · rw [run_nil, hevents, hs.versions b (Table.mem_of_find? hb)]
      rfl
    · rw [run_nil, hevents]
      nofun
  | append_singleton cs c ih =>
    intro a' ha' hkind
    have hbooked := run_booked d cs hs.booked
    have hcovered := run_customersCovered d cs hs.customersCovered
    have hbooked' := run_booked d (cs ++ [c]) hs.booked
    have hcovered' := run_customersCovered d (cs ++ [c]) hs.customersCovered
    have hfind' := Table.find?_eq_some.mpr ⟨ha', rfl⟩
    have hrun : run (exec d) (cs ++ [c]) s = commit (exec d c) (run (exec d) cs s) := by
      rw [run_append, run_cons, run_nil]
    rcases commit_cases (exec d c) (run (exec d) cs s) with hraised | ⟨u, hok⟩
    · -- The call raised: nothing changed.
      rw [hrun, hraised] at ha' ⊢
      obtain ⟨b, hb, hversions, hstored⟩ := ih a' ha' hkind
      exact ⟨b, hb, hversions, fun e he => (hstored e he).append (.refl a') [c]⟩
    rw [← hrun] at hok
    have hchange := exec_change hok
    -- A customer account is never new.
    rcases hchange.account_new hfind' with ⟨a, ha, hsame⟩ | ⟨-, hclearing, -⟩
    swap
    · cases hkind.symm.trans hclearing
    have hkey : a.id = a'.id := hsame.id.symm
    have hkind₀ : a.kind = .customer := hsame.kind.symm.trans hkind
    obtain ⟨b, hb, hversions, hstored⟩ := ih a (Table.mem_of_find? ha) hkind₀
    rw [hkey] at hb hversions hstored
    rcases hchange.balanceStep hbooked hcovered ha hkind₀ with
      hkept | ⟨b₀, b', e, hb₀, hb', hnext, hcons, hreports⟩
    · refine ⟨b, by rw [hkept.balance, hb], by rw [hkept.events, hversions], fun e he => ?_⟩
      rw [hkept.events] at he
      exact (hstored e he).append hsame [c]
    · obtain rfl := Option.some.inj (hb.symm.trans hb₀)
      have hnonneg := b.version_nonneg
      have hnat : (b'.version : ℤ).toNat = (b.version : ℤ).toNat + 1 := by omega
      obtain ⟨-, -, hversion, asOf, hdecode⟩ :=
        hreports (hbooked'.sound hcovered' hfind' hb' hkind)
      refine ⟨b', hb', ?_, fun x hx => ?_⟩
      · rw [hcons, List.reverse_cons, List.map_append, hversions, hnat, versionsTo_succ,
          List.map_singleton, hversion, hnext, Int.toNat_of_nonneg hnonneg]
      · rw [hcons] at hx
        rcases List.mem_cons.mp hx with rfl | hx
        · -- The event is new: every earlier one has a smaller version.
          refine ⟨cs, c, [], rfl, fun hmem => ?_, by rw [hcons]; exact List.mem_cons_self, b', asOf,
            hb', hversion, ?_⟩
          · have hle : x.aggregateVersion ≤ (b.version : ℤ).toNat := by
              apply le_of_mem_versionsTo
              rw [← hversions]
              exact List.mem_map_of_mem (List.mem_reverse.mpr hmem)
            omega
          · rw [hsame.tenantId, hsame.currency]
            exact hdecode
        · exact (hstored x hx).append hsame [c]

/-- The two events of the source account of a hold that was created and captured. -/
theorem balance_event_stream_sample : Sample.db.Provisioned ∧
    ∃ b, Sample.captured.balances.find? Sample.source = some b ∧ (b.version : ℤ) = 2 ∧
      (Sample.captured.balanceEvents Sample.source).reverse.map OutboxEvent.aggregateVersion =
        [1, 2] ∧
      ∀ e ∈ Sample.captured.balanceEvents Sample.source, e.StoredIn Sample.digest
        [Sample.openHold, Sample.capture] Sample.db (Sample.account Sample.source) := by
  have hmem : Sample.account Sample.source ∈ (run (exec Sample.digest)
      [Sample.openHold, Sample.capture] Sample.db).accounts := Table.mem_def.mpr (by decide +kernel)
  have htwo : (Sample.captured.balances.find? Sample.source).map (fun b => (b.version : ℤ)) =
      some 2 := by
    decide +kernel
  obtain ⟨b, hb, hversions, hstored⟩ := balance_event_stream Sample.digest Sample.db
    Sample.provisioned [Sample.openHold, Sample.capture] _ hmem rfl
  have hversion : (b.version : ℤ) = 2 := by
    rw [show Sample.captured.balances.find? Sample.source = some b from hb] at htwo
    exact Option.some.inj htwo
  refine ⟨Sample.provisioned, b, hb, hversion, ?_, hstored⟩
  rw [hversion] at hversions
  exact hversions

end LedgerSync
