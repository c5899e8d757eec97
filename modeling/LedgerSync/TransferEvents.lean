import LedgerSync.BalanceEvents

/-!
# The events of a transfer

A posting stores one balance event for each of its two accounts, and a transfer that was submitted
also the event that it was posted. The trigger of the outbox stores a balance event as one of the
second version when the account has a reserved amount. No other command stores an event of the
transfer, so whatever calls follow, a posted transfer has exactly these events (`told_of_run`).
-/

namespace LedgerSync

open Lib

/-- The events of a transfer among those of a table, the newest first. -/
def transferEventsIn (t : Table OutboxEvent.id) (transfer : Uuid) : List OutboxEvent :=
  t.rows.filter fun e => e.transferId = some transfer

/-- The stored events of a transfer, the newest first. -/
def Db.transferEvents (s : Db) (transfer : Uuid) : List OutboxEvent :=
  transferEventsIn s.outbox transfer

/-- The event tells the balance that the transfer left an account with. -/
structure OutboxEvent.Tells (e : OutboxEvent) (x : Transfer) (b : Balance) : Prop where
  tenant : e.tenantId = x.tenantId
  account : e.accountId = some b.accountId
  version : e.aggregateVersion = b.version
  eventType : e.eventType = if b.ledger ≠ b.available then balanceChangedV2 else balanceChangedV1

/-- The events that a posting stores, the newest first, where it left the debited account with `b`
and the credited one with `b'`. -/
structure Told (events : List OutboxEvent) (x : Transfer) (b b' : Balance) : Prop where
  debit_key : b.accountId = x.debitAccountId
  credit_key : b'.accountId = x.creditAccountId
  split : ∃ rest e e', events = rest ++ [e', e] ∧ e.Tells x b ∧ e'.Tells x b' ∧
    rest.length ≤ 1 ∧ ∀ y ∈ rest, y.tenantId = x.tenantId ∧ ¬y.IsBalance

/-- A command posted the transfer and stored its events. -/
structure TransferTold (s s' : Db) (x : Transfer) (b b' : Balance) : Prop where
  insert : s.transfers.insert? x = some s'.transfers
  posted : x.status = .posted
  debit : s'.balances.find? x.debitAccountId = some b
  credit : s'.balances.find? x.creditAccountId = some b'
  events : ∃ added, Told added x b b' ∧ s'.transferEvents x.id = added ++ s.transferEvents x.id
  other : ∀ u, u ≠ x.id → s'.transferEvents u = s.transferEvents u

/-- What pairs two lists has something to say of each member of the second. -/
theorem exists_of_forall₂ {α β : Type} {R : α → β → Prop} {l : List α} {l' : List β}
    (h : List.Forall₂ R l l') {b : β} (hb : b ∈ l') : ∃ a ∈ l, R a b := by
  induction h with
  | nil => cases hb
  | cons hhead _ ih =>
    rcases List.mem_cons.mp hb with rfl | hb
    · exact ⟨_, List.mem_cons_self, hhead⟩
    · obtain ⟨a, ha, hR⟩ := ih hb
      exact ⟨a, List.mem_cons_of_mem _ ha, hR⟩

section Events

variable {t t' : Table OutboxEvent.id} {e : OutboxEvent} {u : Uuid}

/-- An event of a transfer is the newest of its events. -/
theorem transferEventsIn_insert? (h : t.insert? e = some t') (he : e.transferId = some u) :
    transferEventsIn t' u = e :: transferEventsIn t u := by
  unfold transferEventsIn
  rw [(Table.insert?_eq_some.mp h).2, List.filter_cons, if_pos (decide_eq_true he)]

/-- An event of something else leaves the events of a transfer. -/
theorem transferEventsIn_insert?_ne (h : t.insert? e = some t') (he : e.transferId ≠ some u) :
    transferEventsIn t' u = transferEventsIn t u := by
  unfold transferEventsIn
  rw [(Table.insert?_eq_some.mp h).2, List.filter_cons, if_neg]
  simp [he]

/-- Events of something else leave the events of a transfer. -/
theorem transferEventsIn_insertAll?_ne {es : List OutboxEvent} (h : t.insertAll? es = some t')
    (hes : ∀ e ∈ es, e.transferId ≠ some u) : transferEventsIn t' u = transferEventsIn t u := by
  induction es generalizing t with
  | nil =>
    cases h
    rfl
  | cons e es ih =>
    obtain ⟨t₁, h₁, h₂⟩ := Table.insertAll?_cons.mp h
    rw [ih h₂ fun e' he' => hes e' (List.mem_cons_of_mem _ he'),
      transferEventsIn_insert?_ne h₁ (hes e List.mem_cons_self)]

/-- The trigger leaves everything of an event but its type and its payload. -/
theorem transferId_of_enrich {s : Db} {e e' : OutboxEvent}
    (h : enrichReservedBalanceEventV1 s e = some e') : e'.transferId = e.transferId := by
  unfold enrichReservedBalanceEventV1 at h
  split at h
  · cases h
    rfl
  · split_ifs at h
    · obtain ⟨b, -, rfl⟩ := Option.map_eq_some_iff.mp h
      split <;> rfl
    · cases h
      rfl

/-- The stored event of an announced balance tells it. -/
theorem OutboxEvent.Announces.tells {s : Db} {e e' : OutboxEvent} {b : Balance} {tenant : Uuid}
    {currency : String} {occurredAt : Timestamp} {x : Transfer}
    (h : e.Announces b tenant currency occurredAt) (hb : s.balances.find? b.accountId = some b)
    (he : enrichReservedBalanceEventV1 s e = some e') (htenant : tenant = x.tenantId) :
    e'.Tells x b := by
  have hstored := Option.some.inj (he.symm.trans (h.enriched hb))
  split_ifs at hstored with hreserved
  · subst hstored
    exact ⟨h.tenant.trans htenant, h.account, h.version, by rw [if_pos hreserved]⟩
  · subst hstored
    exact ⟨h.tenant.trans htenant, h.account, h.version, by rw [if_neg hreserved]; exact h.eventType⟩

end Events

/-! ## One command -/

section Commands

variable {d : Digest} {s s' : Db}

/-- A movement between two accounts with an event for each of them, and the events after these. -/
theorem Balance.Move.told {x : Transfer} {amount : ℤ} {now : Instant}
    {source source' destination destination' : Balance} {eventId eventId' : Uuid}
    {occurredAt : Timestamp} {change : Option ℤ} {e₁ e₂ : OutboxEvent}
    {t₁ t₂ : Table OutboxEvent.id} {base : Table Balance.accountId}
    (h : Balance.Move base s'.balances x.debitAccountId x.creditAccountId amount now source
      source' destination destination')
    (hinsert : s.transfers.insert? x = some s'.transfers) (hposted : x.status = .posted)
    (he₁ : enrichReservedBalanceEventV1 s' (transferBalanceEvent x.tenantId eventId
      x.debitAccountId x.id x.currency source' occurredAt change) = some e₁)
    (he₂ : enrichReservedBalanceEventV1 s' (transferBalanceEvent x.tenantId eventId'
      x.creditAccountId x.id x.currency destination' occurredAt change) = some e₂)
    (h₁ : s.outbox.insert? e₁ = some t₁) (h₂ : t₁.insert? e₂ = some t₂)
    {rest : List OutboxEvent} (hlength : rest.length ≤ 1)
    (hrest : ∀ y ∈ rest, y.tenantId = x.tenantId ∧ ¬y.IsBalance)
    (hevents : s'.transferEvents x.id = rest ++ transferEventsIn t₂ x.id)
    (hother : ∀ u, u ≠ x.id → s'.transferEvents u = transferEventsIn t₂ u) :
    TransferTold s s' x source' destination' := by
  -- After the move both balances are those that the events tell.
  have hdebit := h.find?_debit x.distinct
  have hcredit := h.find?_credit
  have hkey : source'.accountId = x.debitAccountId := h.source_written.key h.source_find
  have hkey' : destination'.accountId = x.creditAccountId :=
    h.destination_written.key h.destination_find
  have htells := (@transferBalanceEvent_announces x.tenantId eventId _ x.id x.currency source'
    occurredAt change hkey).tells (hkey ▸ hdebit) he₁ rfl
  have htells' := (@transferBalanceEvent_announces x.tenantId eventId' _ x.id x.currency destination'
    occurredAt change hkey').tells (hkey' ▸ hcredit) he₂ rfl
  -- Both events carry the id of the transfer.
  have hid₁ : e₁.transferId = some x.id := transferId_of_enrich he₁
  have hid₂ : e₂.transferId = some x.id := transferId_of_enrich he₂
  refine ⟨hinsert, hposted, hdebit, hcredit, ⟨rest ++ [e₂, e₁], ⟨hkey, hkey', rest, e₁, e₂, rfl,
    htells, htells', hlength, hrest⟩, ?_⟩, fun u hu => ?_⟩
  · rw [hevents, transferEventsIn_insert? h₂ hid₂, transferEventsIn_insert? h₁ hid₁,
      List.append_assoc]
    rfl
  -- Events of another transfer are not among these.
  · have hne : ∀ {e : OutboxEvent}, e.transferId = some x.id → e.transferId ≠ some u := by
      intro e he heq
      exact hu (Option.some.inj (heq.symm.trans he))
    rw [hother u hu, transferEventsIn_insert?_ne h₂ (hne hid₂),
      transferEventsIn_insert?_ne h₁ (hne hid₁)]
    rfl

/-- A posted transfer is told with the balances that it left. -/
theorem PostedTransfer.told {p : TransferRequest} {ids : TransferIds} {body : Json}
    (h : PostedTransfer p ids s s' body) :
    TransferTold s s' (h.row.post ids.journal p.now) h.source' h.destination' := by
  obtain ⟨hid, htenant, -, hdebit, hcredit, -, hcurrency, -⟩ := pendingTransfer?_eq_some h.row_eq
  obtain ⟨t₁, t₂, h₁, h₂, h₃⟩ := h.outbox
  have hmove := h.move
  have he₁ := h.source_enrich
  have he₂ := h.destination_enrich
  -- The row has taken its accounts, its id and its currency from the request.
  rw [← hdebit, ← hcredit] at hmove
  rw [← htenant, ← hdebit, ← hid, ← hcurrency] at he₁
  rw [← htenant, ← hcredit, ← hid, ← hcurrency] at he₂
  refine @Balance.Move.told _ _ (h.row.post ids.journal p.now) _ _ _ _ _ _ _ _ _ _ _ _ _ _ _ hmove
    h.transfers rfl he₁ he₂ h₁ h₂ [transferPostedEvent p ids] le_rfl ?_ ?_ ?_
  -- The third event of the posting tells no balance.
  · intro y hy
    obtain rfl := List.mem_singleton.mp hy
    have hfirst : "transfer.posted.v1" ≠ balanceChangedV1 := by decide
    have hsecond : "transfer.posted.v1" ≠ balanceChangedV2 := by decide
    exact ⟨htenant.symm, fun hbalance => hbalance.elim hfirst hsecond⟩
  · exact transferEventsIn_insert? h₃ (congrArg some hid.symm)
  · intro u hu
    exact transferEventsIn_insert?_ne h₃ fun heq => hu (hid.trans (Option.some.inj heq)).symm

/-- A posted correction is told with the balances that it left. -/
theorem PostedCorrection.told {p : CorrectionPost} {ids : CorrectionPostIds}
    (h : PostedCorrection p ids s s') :
    TransferTold s s' (compensationTransfer p ids h.correction h.original) h.source'
      h.destination' := by
  obtain ⟨t₁, h₁, h₂⟩ := h.outbox
  exact @Balance.Move.told _ _ (compensationTransfer p ids h.correction h.original) _ _ _ _ _ _ _ _
    _ _ _ _ _ _ _ h.move h.transfers rfl h.source_enrich h.destination_enrich h₁ h₂ []
    (Nat.zero_le _) nofun rfl fun _ _ => rfl

/-- A call stores events of a transfer only when it posts it. -/
theorem Change.transferEvents (h : Change d s s') :
    (∃ x b b', TransferTold s s' x b b') ∨
      (∀ u, s'.transferEvents u = s.transferEvents u) ∧
        ∀ x ∈ s'.transfers, x.status = .posted → x ∈ s.transfers := by
  have hkeep : s'.outbox = s.outbox → s'.transfers = s.transfers →
      (∀ u, s'.transferEvents u = s.transferEvents u) ∧
        ∀ x ∈ s'.transfers, x.status = .posted → x ∈ s.transfers := by
    intro houtbox htransfers
    refine ⟨fun u => by rw [Db.transferEvents, houtbox]; rfl, fun x hx _ => ?_⟩
    rw [htransfers] at hx
    exact hx
  -- An event of something else than a transfer.
  have hforeign : ∀ {e : OutboxEvent}, s.outbox.insert? e = some s'.outbox → e.transferId = none →
      s'.transfers = s.transfers → (∀ u, s'.transferEvents u = s.transferEvents u) ∧
        ∀ x ∈ s'.transfers, x.status = .posted → x ∈ s.transfers := by
    intro e hins hnone htransfers
    refine ⟨fun u => transferEventsIn_insert?_ne hins (by rw [hnone]; nofun), fun x hx _ => ?_⟩
    rw [htransfers] at hx
    exact hx
  cases h with
  | quiet frame => exact .inr (hkeep (by rw [frame]) (by rw [frame]))
  | status => exact .inr (hkeep rfl rfl)
  | claimed _ frame => exact .inr (hkeep (by rw [frame]) (by rw [frame]))
  | cleared h frame => exact .inr (hkeep (by rw [frame, h.frame]) (by rw [frame, h.frame]))
  -- A rejection adds its transfer and no event.
  | rejected h =>
    refine .inr ⟨fun u => by rw [Db.transferEvents, h.frame]; rfl, fun x hx hposted => ?_⟩
    rcases (Table.mem_insert? h.transfers).mp hx with rfl | hold
    · cases hposted
    · exact hold
  | posted h => exact .inl ⟨_, _, _, h.told⟩
  | corrected h => exact .inl ⟨_, _, _, h.told⟩
  | funded h =>
    exact .inr (hforeign h.outbox (transferId_of_enrich h.enrich) (by rw [h.frame]))
  | reserved h => exact .inr (hforeign h.outbox rfl (by rw [h.frame]))
  | returned _ h => exact .inr (hforeign h.outbox rfl (by rw [h.frame]))
  | captured h =>
    -- The hold is freed first; the events are those of the posting.
    have htold := h.posted.told
    have houtbox : s'.outbox = h.mid.outbox := (congrArg Db.outbox h.frame :)
    have htransfers : s'.transfers = h.mid.transfers := (congrArg Db.transfers h.frame :)
    have hbalances : s'.balances = h.mid.balances := (congrArg Db.balances h.frame :)
    have hevents : ∀ u, s'.transferEvents u = h.mid.transferEvents u := fun u => by
      rw [Db.transferEvents, houtbox]
      rfl
    refine .inl ⟨_, h.posted.source', h.posted.destination', ?_, htold.posted, ?_, ?_, ?_, fun u hu =>
      ?_⟩
    · rw [htransfers]
      exact htold.insert
    · rw [hbalances]
      exact htold.debit
    · rw [hbalances]
      exact htold.credit
    · rw [hevents]
      exact htold.events
    · rw [hevents]
      exact htold.other u hu
  | imported h =>
    have hnone : ∀ e ∈ h.events, e.transferId = none := by
      intro e he
      obtain ⟨r, -, b, -, rfl⟩ := exists_of_forall₂ h.events_eq he
      rfl
    refine .inr ⟨fun u => transferEventsIn_insertAll?_ne h.outbox fun e he => ?_, fun x hx _ => ?_⟩
    · rw [hnone e he]
      nofun
    · rw [h.frame] at hx
      exact hx

end Commands

/-! ## Every history -/

/-- Only stored transfers have events. -/
def Untold (s : Db) : Prop := ∀ u, s.transfers.find? u = none → s.transferEvents u = []

section Histories

variable {d : Digest} {s s' : Db}

/-- A returning call tells nothing of transfers that are not stored. -/
theorem Change.untold (h : Change d s s') (hs : Untold s) : Untold s' := by
  intro u hnone
  have hbefore : s.transfers.find? u = none := by
    cases hfind : s.transfers.find? u with
    | none => rfl
    | some x =>
      rw [h.transfer_kept hfind] at hnone
      cases hnone
  rcases h.transferEvents with ⟨x, b, b', htold⟩ | ⟨hsame, -⟩
  · have hne : u ≠ x.id := by
      rintro rfl
      rw [Table.find?_insert?_self htold.insert rfl] at hnone
      cases hnone
    rw [htold.other u hne]
    exact hs u hbefore
  · rw [hsame u]
    exact hs u hbefore

/-- A stored transfer gets no more events. -/
theorem Change.transferEvents_kept (h : Change d s s') {u : Uuid} {x : Transfer}
    (hx : s.transfers.find? u = some x) : s'.transferEvents u = s.transferEvents u := by
  rcases h.transferEvents with ⟨y, b, b', htold⟩ | ⟨hsame, -⟩
  · refine htold.other u ?_
    rintro rfl
    rw [(Table.insert?_eq_some.mp htold.insert).1] at hx
    cases hx
  · exact hsame u

/-- At first nothing is told. -/
theorem Db.Provisioned.untold (h : s.Provisioned) : Untold s := by
  intro u _
  unfold Db.transferEvents transferEventsIn
  rw [h.outbox, List.filter_nil]

/-- Every history tells nothing of transfers that are not stored. -/
theorem run_untold (d : Digest) (cs : List Call) (hs : Untold s) : Untold (run (exec d) cs s) :=
  run_invariant (fun _ _ _ _ h hu => (exec_change h).untold hu) cs hs

/-- A transfer that a call posts has the events that the call stored, whatever calls follow. -/
theorem told_of_run (hs : s.Provisioned) {pre : List Call} {c : Call} (post : List Call)
    {x : Transfer}
    (hbefore : x ∉ (run (exec d) pre s).transfers)
    (hafter : x ∈ (run (exec d) (pre ++ [c]) s).transfers) (hposted : x.status = .posted) :
    ∃ b b', (run (exec d) (pre ++ [c]) s).balances.find? x.debitAccountId = some b ∧
      (run (exec d) (pre ++ [c]) s).balances.find? x.creditAccountId = some b' ∧
        x ∈ (run (exec d) (pre ++ c :: post) s).transfers ∧
          Told ((run (exec d) (pre ++ c :: post) s).transferEvents x.id) x b b' := by
  have huntold := run_untold d pre hs.untold
  rw [run_append] at hafter ⊢
  rw [run_append]
  generalize run (exec d) pre s = s₀ at hbefore hafter huntold ⊢
  rw [run_cons, run_nil] at hafter ⊢
  rw [run_cons]
  -- A call that raises would not have added the transfer.
  have hchange : Change d s₀ (commit (exec d c) s₀) := by
    rcases commit_cases (exec d c) s₀ with hsame | ⟨u, hok⟩
    · rw [hsame] at hafter
      exact absurd hafter hbefore
    · exact exec_change hok
  generalize commit (exec d c) s₀ = s₁ at hafter hchange ⊢
  rcases hchange.transferEvents with ⟨y, b, b', htold⟩ | ⟨-, hold⟩
  · -- The transfer is the one that the call has posted.
    obtain rfl : x = y := by
      rcases (Table.mem_insert? htold.insert).mp hafter with rfl | hmem
      · rfl
      · exact absurd hmem hbefore
    obtain ⟨added, hadded, hevents⟩ := htold.events
    have hnone := (Table.insert?_eq_some.mp htold.insert).1
    rw [huntold x.id hnone, List.append_nil] at hevents
    -- The transfer and its events stay through the later calls.
    have hkept : (run (exec d) post s₁).transfers.find? x.id = some x ∧
        (run (exec d) post s₁).transferEvents x.id = added :=
      @run_invariant _ _ _ _ (exec d)
        (fun s => s.transfers.find? x.id = some x ∧ s.transferEvents x.id = added)
        (fun _ _ _ _ hok hI => ⟨(exec_change hok).transfer_kept hI.1,
          ((exec_change hok).transferEvents_kept hI.1).trans hI.2⟩) post s₁
        ⟨Table.find?_insert?_self htold.insert rfl, hevents⟩
    refine ⟨b, b', htold.debit, htold.credit, Table.mem_of_find? hkept.1, ?_⟩
    rw [hkept.2]
    exact hadded
  · exact absurd (hold x hafter hposted) hbefore

end Histories

end LedgerSync
