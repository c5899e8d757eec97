import LedgerSync.Journals

/-!
# The life of a hold

Owners capture and release holds and workers expire them, in any order and with any repetitions.
`HoldChange` says what a call did to the tables of holds: nothing, one new hold, or the end of one
active hold. From it follow the records that every hold has in every reachable state (`Recorded`),
and the only course that its life can take along a history (`hold_lifecycle`).
-/

namespace LedgerSync

open Lib

/-! ## The turns of a life -/

/-- The transfer moves the amount of the hold between its accounts, and it is posted. -/
structure Hold.PaidBy (h : Hold) (x : Transfer) : Prop where
  status : x.status = .posted
  tenant : x.tenantId = h.tenantId
  debit : x.debitAccountId = h.debitAccountId
  credit : x.creditAccountId = h.creditAccountId
  amount : x.amount = h.amount
  currency : x.currency = h.currency

/-- The source balance of a hold gained two amounts. -/
structure Hold.SourceGains (h : Hold) (available ledger : ℤ) (s s' : Db) : Prop where
  gained : ∃ b b', s.balances.find? h.debitAccountId = some b ∧
    s'.balances.find? h.debitAccountId = some b' ∧ (b'.available : ℤ) = b.available + available ∧
    (b'.ledger : ℤ) = b.ledger + ledger

/-- The hold was opened: its amount left the available amount of its source. -/
structure Hold.Opened (h : Hold) (s s' : Db) : Prop where
  active : h.state = .active
  unused : s.holds.find? h.id = none
  find : s'.holds.find? h.id = some h
  source : h.SourceGains (-h.amount) 0 s s'
  transfers : s'.transfers = s.transfers

/-- The hold was released or it expired: its amount went back to the available amount of its
source, and no transfer was written. -/
structure Hold.Returned (h h' : Hold) (s s' : Db) : Prop where
  active : h.state = .active
  ended : ∃ state now, (state = .released ∨ state = .expired) ∧ h' = h.finish state now none
  source : h.SourceGains h.amount 0 s s'
  transfers : s'.transfers = s.transfers

/-- The hold was captured: one transfer was written, which debited its amount from the ledger
amount of its source. -/
structure Hold.Captured (h h' : Hold) (s s' : Db) : Prop where
  active : h.state = .active
  ended : ∃ now x, h' = h.finish .captured now (some x.id) ∧ h.PaidBy x ∧
    s.transfers.insert? x = some s'.transfers
  source : h.SourceGains 0 (-h.amount) s s'

/-- The hold ended. -/
def Hold.Ends (h h' : Hold) (s s' : Db) : Prop := h.Returned h' s s' ∨ h.Captured h' s s'

/-- A hold that ends was active. -/
theorem Hold.Ends.active {h h' : Hold} {s s' : Db} (he : h.Ends h' s s') : h.state = .active := by
  rcases he with he | he
  · exact he.active
  · exact he.active

/-- A hold that ends keeps its identifier. -/
theorem Hold.Ends.id {h h' : Hold} {s s' : Db} (he : h.Ends h' s s') : h'.id = h.id := by
  rcases he with ⟨-, ⟨_, _, -, rfl⟩, -, -⟩ | ⟨-, ⟨_, _, rfl, -⟩, -⟩ <;> rfl

/-- A hold that has ended is not active. -/
theorem Hold.Ends.final {h h' : Hold} {s s' : Db} (he : h.Ends h' s s') : h'.state ≠ .active := by
  rcases he with ⟨-, ⟨_, _, rfl | rfl, rfl⟩, -, -⟩ | ⟨-, ⟨_, _, rfl, -⟩, -⟩ <;> simp [Hold.finish]

/-- What a call did to the tables of holds. -/
inductive HoldChange (s s' : Db) : Prop
  /-- No hold changed; jobs may have been claimed. -/
  | kept (holds : s'.holds = s.holds) (events : s'.holdEvents = s.holdEvents)
      (jobs : ∀ i, (s'.holdJobs.find? i).map HoldJob.done = (s.holdJobs.find? i).map HoldJob.done)
  | opened (h : Hold) (e : HoldEvent) (opened : h.Opened s s')
      (holds : s.holds.insert? h = some s'.holds)
      (hold_eq : e.holdId = h.id) (state_eq : e.state = .active)
      (events : s.holdEvents.insert? e = some s'.holdEvents)
      (jobs : s.holdJobs.insert? (expiryJob h) = some s'.holdJobs)
  | ended (h h' : Hold) (e : HoldEvent) (ends : h.Ends h' s s') (find : s.holds.find? h.id = some h)
      (holds : s'.holds = s.holds.replace h')
      (hold_eq : e.holdId = h.id) (state_eq : e.state = h'.state)
      (events : s.holdEvents.insert? e = some s'.holdEvents)
      (jobs : s'.holdJobs = s.holdJobs.update h.id fun j => { j with done := true })

section Step

variable {d : Digest} {s s' : Db}

/-- A change of the available amount alone. -/
theorem AvailableMoved.sourceGains {h : Hold} {account : Uuid} {delta : ℤ} {now : Instant}
    {b b' : Balance} (hm : AvailableMoved account delta now s.balances s'.balances b b')
    (ha : account = h.debitAccountId) : h.SourceGains delta 0 s s' := by
  subst ha
  refine ⟨b, b', hm.find, ?_, hm.written.available, by rw [hm.written.ledger, add_zero]⟩
  rw [hm.result]
  exact hm.written.find?_replace hm.find

/-- A created hold is opened. -/
theorem HoldCreated.opened {p : HoldRequest} {clock : HoldClock} {id : Uuid} {ids : ChangeIds}
    (h : HoldCreated p clock id ids s s') : h.hold.Opened s s' := by
  obtain ⟨-, -, hdebit, -, hamount, -, hstate, -⟩ := activeHold?_eq_some h.hold_eq
  refine ⟨hstate, (Table.insert?_eq_some.mp h.holds).1, Table.find?_insert?_self h.holds rfl, ?_, ?_⟩
  · rw [hamount]
    exact h.moved.sourceGains hdebit.symm
  · rw [h.frame]

/-- A hold that is returned ends as it says. -/
theorem HoldReturned.ends {target tenant : Uuid} {state : HoldState} {now completed : Instant}
    {ids : ChangeIds} {clock : ChangeClock} (final : state = .released ∨ state = .expired)
    (h : HoldReturned target tenant state now completed ids clock s s') :
    h.hold.Ends (h.hold.finish state completed none) s s' :=
  .inl ⟨h.active, ⟨state, completed, final, rfl⟩, h.moved.sourceGains rfl, by rw [h.frame]⟩

/-- A captured hold ends as captured. -/
theorem HoldCaptured.ends {p : HoldDecisionRequest} {clock : DecisionClock} {ids : DecisionIds}
    (h : HoldCaptured d p clock ids s s') :
    h.hold.Ends (h.hold.finish .captured (instant clock.now) (some ids.transfer.transfer)) s s' := by
  obtain ⟨hid, htenant, -, hdebit, hcredit, hamount, hcurrency, -, -⟩ :=
    pendingTransfer?_eq_some h.posted.row_eq
  have htransfers : s'.transfers = h.mid.transfers := (congrArg Db.transfers h.frame :)
  have hbalances : s'.balances = h.mid.balances := (congrArg Db.balances h.frame :)
  -- The hold ends with the transfer that takes its accounts and its amount.
  refine .inr ⟨h.active, ⟨instant clock.now, h.posted.row.post ids.transfer.journal
    (captureTransfer d p h.hold clock.now).now, ?_,
    ⟨rfl, ?_, hdebit, hcredit, hamount, hcurrency⟩, ?_⟩, ?_⟩
  · rw [show (h.posted.row.post ids.transfer.journal _).id = h.posted.row.id from rfl, hid]
  · exact htenant.trans h.hold_tenant.symm
  · rw [htransfers]
    exact h.posted.transfers
  · -- The private release and the debit of the transfer cancel in the available amount.
    have hmove := h.posted.move
    have hsource : h.posted.source = h.freed :=
      Option.some.inj (hmove.source_find.symm.trans (h.freed_written.find?_replace h.balance_find))
    refine ⟨h.balance, h.posted.source', h.balance_find, ?_, ?_, ?_⟩
    · rw [hbalances]
      exact hmove.find?_debit h.hold.distinct
    · rw [hmove.source_written.available, hsource, h.freed_written.available]
      exact (add_sub_cancel_right _ _).trans (add_zero _).symm
    · rw [hmove.source_written.ledger, hsource, h.freed_written.ledger]
      exact sub_eq_add_neg _ _

/-- Returning a hold is a change of the holds. -/
theorem HoldReturned.holdChange {target tenant : Uuid} {state : HoldState} {now completed : Instant}
    {ids : ChangeIds} {clock : ChangeClock} (final : state = .released ∨ state = .expired)
    (h : HoldReturned target tenant state now completed ids clock s s') : HoldChange s s' := by
  have hkey := Table.key_of_find? h.find
  obtain ⟨a, c, hevents⟩ := h.holdEvents
  exact .ended h.hold _ _ (h.ends final) (by rw [hkey]; exact h.find) h.holds hkey.symm rfl hevents
    (by rw [h.holdJobs]; congr 1; exact hkey.symm)

/-- Capturing a hold is a change of the holds. -/
theorem HoldCaptured.holdChange {p : HoldDecisionRequest} {clock : DecisionClock}
    {ids : DecisionIds} (h : HoldCaptured d p clock ids s s') : HoldChange s s' := by
  have hkey := Table.key_of_find? h.find
  obtain ⟨v, hevents⟩ := h.holdEvents
  exact .ended h.hold _ _ h.ends (by rw [hkey]; exact h.find) h.holds hkey.symm rfl hevents
    (by rw [h.holdJobs]; congr 1; exact hkey.symm)

/-- A claim leaves it open whether a job is done. -/
theorem done_of_claimed {p : ExpiryClaim}
    (jobs : s'.holdJobs.rows = s.holdJobs.rows.map (fun j => if j.holdId ∈ p.selected s then
      j.claim p.owner (instant p.claimAt + p.leaseSeconds * 1000000) else j)) (i : Uuid) :
    (s'.holdJobs.find? i).map HoldJob.done = (s.holdJobs.find? i).map HoldJob.done := by
  have hrows : s'.holdJobs = s.holdJobs.mapRows (fun j => if j.holdId ∈ p.selected s then
      j.claim p.owner (instant p.claimAt + p.leaseSeconds * 1000000) else j)
      (by intro j; split_ifs <;> rfl) := Table.ext jobs
  rw [hrows, Table.find?_mapRows, Option.map_map]
  congr 1
  funext j
  simp only [Function.comp_apply]
  split_ifs <;> rfl

/-- A returning call opens one hold, ends one, or leaves the holds alone. -/
theorem Change.holdChange (h : Change d s s') : HoldChange s s' := by
  have hkeep : s'.holds = s.holds → s'.holdEvents = s.holdEvents → s'.holdJobs = s.holdJobs →
      HoldChange s s' := fun hholds hevents hjobs => .kept hholds hevents fun i => by rw [hjobs]
  -- Only the calls on holds write the three tables.
  cases h with
  | quiet frame => exact hkeep (by rw [frame]) (by rw [frame]) (by rw [frame])
  | status => exact hkeep rfl rfl rfl
  | claimed jobs frame => exact .kept (by rw [frame]) (by rw [frame]) (done_of_claimed jobs)
  | cleared h frame =>
    exact hkeep (by rw [frame, h.frame]) (by rw [frame, h.frame]) (by rw [frame, h.frame])
  | rejected h => exact hkeep (by rw [h.frame]; rfl) (by rw [h.frame]; rfl) (by rw [h.frame]; rfl)
  | posted h => exact hkeep (by rw [h.frame]) (by rw [h.frame]) (by rw [h.frame])
  | corrected h => exact hkeep (by rw [h.frame]) (by rw [h.frame]) (by rw [h.frame])
  | funded h => exact hkeep (by rw [h.frame]) (by rw [h.frame]) (by rw [h.frame])
  | reserved h =>
    obtain ⟨hid, -⟩ := activeHold?_eq_some h.hold_eq
    exact .opened h.hold _ h.opened h.holds hid.symm rfl h.holdEvents h.holdJobs
  | returned final h => exact h.holdChange final
  | captured h => exact h.holdChange
  | imported h => exact hkeep (by rw [h.frame]) (by rw [h.frame]) (by rw [h.frame])

/-- A hold that is there is kept as it is, or it ends. -/
theorem HoldChange.hold (hc : HoldChange s s') {i : Uuid} {h : Hold}
    (hi : s.holds.find? i = some h) :
    s'.holds.find? i = some h ∨ ∃ h', s'.holds.find? i = some h' ∧ h.Ends h' s s' := by
  cases hc with
  | kept holds => exact .inl (holds ▸ hi)
  | opened _ _ _ holds => exact .inl (Table.find?_insert?_of_some holds hi)
  | ended k k' _ ends find holds =>
    by_cases hik : i = k.id
    · subst hik
      obtain rfl : k = h := Option.some.inj (find.symm.trans hi)
      exact .inr ⟨k', by rw [holds]; exact Table.find?_replace_self find ends.id, ends⟩
    · exact .inl (by rw [holds, Table.find?_replace_ne (ends.id ▸ hik), hi])

/-- A hold that has ended stays as it is. -/
theorem HoldChange.hold_final (hc : HoldChange s s') {i : Uuid} {h : Hold}
    (hi : s.holds.find? i = some h) (hended : h.state ≠ .active) : s'.holds.find? i = some h := by
  rcases hc.hold hi with hkept | ⟨_, -, hends⟩
  · exact hkept
  · exact absurd hends.active hended

/-- A hold that was not there before was opened. -/
theorem HoldChange.hold_new (hc : HoldChange s s') {i : Uuid} {h : Hold}
    (hnone : s.holds.find? i = none) (hi : s'.holds.find? i = some h) : h.Opened s s' := by
  cases hc with
  | kept holds => cases hnone.symm.trans (holds ▸ hi)
  | opened k _ opened holds =>
    rw [Table.find?_insert? holds] at hi
    split_ifs at hi
    · cases hi
      exact opened
    · cases hnone.symm.trans hi
  | ended k k' _ ends find holds =>
    rw [holds, Table.find?_replace] at hi
    rw [hnone] at hi
    split_ifs at hi
    cases hi

end Step

/-! ## The records of a hold -/

/-- The states that the events of a hold report, newest first. -/
def Db.statesOf (s : Db) (i : Uuid) : List HoldState :=
  (s.holdEvents.rows.filter fun e => e.holdId = i).map HoldEvent.state

/-- The records that go with a hold: its events, its expiry job, and the transfer that captured
it. -/
structure Hold.Recorded (h : Hold) (s : Db) : Prop where
  events : s.statesOf h.id = if h.state = .active then [.active] else [h.state, .active]
  job : ∃ j, s.holdJobs.find? h.id = some j ∧ (j.done = true ↔ h.state ≠ .active)
  transfer : h.state = .captured → ∃ x, h.transferId = some x.id ∧
    s.transfers.find? x.id = some x ∧ h.PaidBy x

/-- Every hold has its records, every event has its hold, and no transfer captured two holds. -/
structure Recorded (s : Db) : Prop where
  holds : ∀ i h, s.holds.find? i = some h → h.Recorded s
  events : ∀ e ∈ s.holdEvents, ∃ h, s.holds.find? e.holdId = some h
  once : ∀ h ∈ s.holds, ∀ h' ∈ s.holds, h.state = .captured → h'.state = .captured →
    h.transferId = h'.transferId → h = h'

section Records

variable {d : Digest} {s s' : Db}

/-- An event of a hold adds its state to the states of that hold. -/
theorem statesOf_insert? {e : HoldEvent} (h : s.holdEvents.insert? e = some s'.holdEvents)
    (i : Uuid) : s'.statesOf i = if e.holdId = i then e.state :: s.statesOf i else s.statesOf i := by
  unfold Db.statesOf
  rw [(Table.insert?_eq_some.mp h).2, List.filter_cons]
  simp only [decide_eq_true_eq]
  split_ifs <;> rfl

/-- The states of the hold of the event begin with its state. -/
theorem statesOf_insert?_self {e : HoldEvent} {i : Uuid}
    (h : s.holdEvents.insert? e = some s'.holdEvents) (he : e.holdId = i) :
    s'.statesOf i = e.state :: s.statesOf i := by
  rw [statesOf_insert? h, if_pos he]

/-- The states of the other holds stay. -/
theorem statesOf_insert?_ne {e : HoldEvent} {i : Uuid}
    (h : s.holdEvents.insert? e = some s'.holdEvents) (he : e.holdId ≠ i) :
    s'.statesOf i = s.statesOf i := by
  rw [statesOf_insert? h, if_neg he]

/-- A hold without a row has no events. -/
theorem Recorded.statesOf_none (hs : Recorded s) {i : Uuid} (hi : s.holds.find? i = none) :
    s.statesOf i = [] := by
  unfold Db.statesOf
  rw [List.map_eq_nil_iff, List.filter_eq_nil_iff]
  intro e he
  rw [decide_eq_true_eq]
  rintro rfl
  obtain ⟨h, hh⟩ := hs.events e he
  cases hi.symm.trans hh

/-- The records of a hold that nothing touched are kept. -/
theorem Hold.Recorded.kept {h : Hold} (hr : h.Recorded s)
    (htransfers : ∀ i x, s.transfers.find? i = some x → s'.transfers.find? i = some x)
    (hevents : s'.statesOf h.id = s.statesOf h.id)
    (hjobs : (s'.holdJobs.find? h.id).map HoldJob.done = (s.holdJobs.find? h.id).map HoldJob.done) :
    h.Recorded s' where
  events := hevents.trans hr.events
  job := by
    obtain ⟨j, hj, hdone⟩ := hr.job
    rw [hj] at hjobs
    obtain ⟨j', hj', heq⟩ := Option.map_eq_some_iff.mp hjobs
    exact ⟨j', hj', by rw [heq]; exact hdone⟩
  transfer hcaptured := by
    obtain ⟨x, hid, hx, hpaid⟩ := hr.transfer hcaptured
    exact ⟨x, hid, htransfers x.id x hx, hpaid⟩

/-- The records of a hold that was opened. -/
theorem Recorded.opened (hs : Recorded s) {h : Hold} {e : HoldEvent} (ho : h.Opened s s')
    (hold_eq : e.holdId = h.id) (state_eq : e.state = .active)
    (events : s.holdEvents.insert? e = some s'.holdEvents)
    (jobs : s.holdJobs.insert? (expiryJob h) = some s'.holdJobs) : h.Recorded s' where
  events := by
    rw [statesOf_insert?_self events hold_eq, hs.statesOf_none ho.unused, state_eq,
      if_pos ho.active]
  job := ⟨expiryJob h, Table.find?_insert?_self jobs rfl, by simp [expiryJob, ho.active]⟩
  transfer hcaptured := by cases ho.active.symm.trans hcaptured

/-- The records of a hold that ended. -/
theorem Recorded.ended (hs : Recorded s) {h h' : Hold} {e : HoldEvent} (he : h.Ends h' s s')
    (find : s.holds.find? h.id = some h) (hold_eq : e.holdId = h.id) (state_eq : e.state = h'.state)
    (events : s.holdEvents.insert? e = some s'.holdEvents)
    (jobs : s'.holdJobs = s.holdJobs.update h.id fun j => { j with done := true }) :
    h'.Recorded s' where
  events := by
    rw [he.id, statesOf_insert?_self events hold_eq, (hs.holds _ _ find).events, if_pos he.active,
      if_neg he.final, state_eq]
  job := by
    obtain ⟨j, hj, -⟩ := (hs.holds _ _ find).job
    refine ⟨{ j with done := true }, ?_, by simp [he.final]⟩
    rw [jobs, he.id, Table.find?_update_self, hj]
    rfl
  transfer hcaptured := by
    rcases he with ⟨-, ⟨_, _, rfl | rfl, rfl⟩, -, -⟩ | ⟨-, ⟨_, x, rfl, hpaid, hins⟩, -⟩
    · cases hcaptured
    · cases hcaptured
    · exact ⟨x, rfl, Table.find?_insert?_self hins rfl, hpaid.status, hpaid.tenant, hpaid.debit,
        hpaid.credit, hpaid.amount, hpaid.currency⟩

/-- A hold that a transfer captures now shares it with no hold that was captured before. -/
theorem Recorded.transfer_fresh (hs : Recorded s) {h h' k : Hold} (he : h.Ends h' s s')
    (hcaptured : h'.state = .captured) (hk : k ∈ s.holds) (hk' : k.state = .captured) :
    k.transferId ≠ h'.transferId := by
  rcases he with ⟨-, ⟨_, _, rfl | rfl, rfl⟩, -, -⟩ | ⟨-, ⟨_, x, rfl, -, hins⟩, -⟩
  · cases hcaptured
  · cases hcaptured
  · obtain ⟨y, hid, hy, -⟩ := (hs.holds k.id k (Table.find?_eq_some.mpr ⟨hk, rfl⟩)).transfer hk'
    intro heq
    -- The transfer of the earlier hold is stored, and the new transfer was not.
    obtain hxy : y.id = x.id := Option.some.inj (hid.symm.trans heq)
    have hnone := (Table.insert?_eq_some.mp hins).1
    rw [← hxy, hy] at hnone
    cases hnone

/-- A change of the holds keeps them recorded. -/
theorem HoldChange.recorded (hc : HoldChange s s')
    (htransfers : ∀ i x, s.transfers.find? i = some x → s'.transfers.find? i = some x)
    (hs : Recorded s) : Recorded s' := by
  cases hc with
  -- Nothing was written: every record is as before.
  | kept holds events jobs =>
    refine ⟨fun i h hi => ?_, fun e he => ?_, fun h hh h' hh' => ?_⟩
    · refine (hs.holds i h (holds ▸ hi)).kept htransfers ?_ (jobs _)
      unfold Db.statesOf
      rw [events]
    · rw [events] at he
      rw [holds]
      exact hs.events e he
    · rw [holds] at hh hh'
      exact hs.once h hh h' hh'
  -- A new hold has its first state and its job, and the others keep theirs.
  | opened k e opened holds hold_eq state_eq events jobs =>
    have hactive := opened.active
    refine ⟨fun i h hi => ?_, fun e' he' => ?_, fun h hh h' hh' hcap hcap' => ?_⟩
    · rw [Table.find?_insert? holds] at hi
      split_ifs at hi with hik
      · cases hi
        exact hs.opened opened hold_eq state_eq events jobs
      · have hid := Table.key_of_find? hi
        have hne : k.id ≠ h.id := fun heq => hik (hid.symm.trans heq.symm)
        refine (hs.holds i h hi).kept htransfers
          (statesOf_insert?_ne events (hold_eq ▸ hne)) ?_
        rw [Table.find?_insert? jobs, if_neg (show h.id ≠ (expiryJob k).holdId from Ne.symm hne)]
    · rcases (Table.mem_insert? events).mp he' with rfl | hold
      · exact ⟨k, by rw [hold_eq]; exact Table.find?_insert?_self holds rfl⟩
      · obtain ⟨h, hh⟩ := hs.events e' hold
        exact ⟨h, Table.find?_insert?_of_some holds hh⟩
    -- A new hold is not captured.
    · rcases (Table.mem_insert? holds).mp hh with rfl | hh
      · cases hactive.symm.trans hcap
      · rcases (Table.mem_insert? holds).mp hh' with rfl | hh'
        · cases hactive.symm.trans hcap'
        · exact hs.once h hh h' hh' hcap hcap'
  -- One hold has ended; its last state and its job are written with it.
  | ended k k' e ends find holds hold_eq state_eq events jobs =>
    refine ⟨fun i h hi => ?_, fun e' he' => ?_, fun h hh h' hh' hcap hcap' htransfer => ?_⟩
    · rw [holds, Table.find?_replace] at hi
      split_ifs at hi with hik
      · rw [ends.id] at hik
        rw [hik, find] at hi
        cases hi
        exact hs.ended ends find hold_eq state_eq events jobs
      · have hid := Table.key_of_find? hi
        have hne : k.id ≠ h.id := fun heq => hik (hid.symm.trans (heq.symm.trans ends.id.symm))
        refine (hs.holds i h hi).kept htransfers
          (statesOf_insert?_ne events (hold_eq ▸ hne)) ?_
        rw [jobs, Table.find?_update_ne (Ne.symm hne)]
    · have hkept : ∃ h, s.holds.find? e'.holdId = some h := by
        rcases (Table.mem_insert? events).mp he' with rfl | hold
        · exact ⟨k, by rw [hold_eq]; exact find⟩
        · exact hs.events e' hold
      obtain ⟨h, hh⟩ := hkept
      rw [holds, Table.find?_replace]
      split_ifs
      · exact ⟨k', by rw [hh]; rfl⟩
      · exact ⟨h, hh⟩
    -- Its transfer is new, so that no other hold was captured by it.
    · rw [holds] at hh hh'
      rcases Table.mem_replace hh with rfl | ⟨hold, -⟩
      · rcases Table.mem_replace hh' with rfl | ⟨hold', -⟩
        · rfl
        · exact absurd htransfer.symm (hs.transfer_fresh ends hcap hold' hcap')
      · rcases Table.mem_replace hh' with rfl | ⟨hold', -⟩
        · exact absurd htransfer (hs.transfer_fresh ends hcap' hold hcap)
        · exact hs.once h hold h' hold' hcap hcap' htransfer

/-- At first no hold is recorded. -/
theorem Db.Provisioned.recorded (h : s.Provisioned) : Recorded s where
  holds i k hk := by
    have hmem := Table.mem_of_find? hk
    rw [Table.mem_def, h.holds] at hmem
    cases hmem
  events e he := by
    rw [Table.mem_def, h.holdEvents] at he
    cases he
  once k hk := by
    rw [Table.mem_def, h.holds] at hk
    cases hk

/-- Every history keeps the holds recorded. -/
theorem run_recorded (d : Digest) (cs : List Call) {s : Db} (hs : Recorded s) :
    Recorded (run (exec d) cs s) :=
  run_invariant (fun _ _ _ _ h hr =>
    (exec_change h).holdChange.recorded (fun _ _ => (exec_change h).transfer_kept) hr) cs hs

end Records

/-! ## Whole lives -/

section Lives

variable {d : Digest} {s : Db}

/-- One call of a history ended the hold: up to that call it was `h`, and from then on it is
`h'`. -/
def Hold.EndedOnce (d : Digest) (h h' : Hold) (cs : List Call) (s : Db) : Prop :=
  ∃ pre c post, cs = pre ++ c :: post ∧
    (∀ l, l <+: pre → (run (exec d) l s).holds.find? h.id = some h) ∧
    h.Ends h' (run (exec d) pre s) (commit (exec d c) (run (exec d) pre s)) ∧
    ∀ l, l <+: post → (run (exec d) (pre ++ c :: l) s).holds.find? h.id = some h'

/-- A hold that has ended stays as it is along every history. -/
theorem run_hold_final {i : Uuid} {h : Hold} (hi : s.holds.find? i = some h)
    (hended : h.state ≠ .active) (cs : List Call) :
    (run (exec d) cs s).holds.find? i = some h :=
  run_invariant (I := fun s => s.holds.find? i = some h)
    (fun _ _ _ _ hstep hfind => (exec_change hstep).holdChange.hold_final hfind hended) cs hi

/-- Along every history a hold stays as it is, or one call ends it. -/
theorem run_hold {i : Uuid} {h : Hold} (hi : s.holds.find? i = some h) (cs : List Call) :
    ∃ h', (run (exec d) cs s).holds.find? i = some h' ∧ (h' = h ∨ h.EndedOnce d h' cs s) := by
  have hid : h.id = i := Table.key_of_find? hi
  by_cases hend : (run (exec d) cs s).holds.find? i = some h
  · exact ⟨h, hend, .inl rfl⟩
  -- The first call after which the row is another one ended the hold.
  obtain ⟨pre, c, post, rfl, hpre, hc⟩ :=
    run_crossing (Q := fun s : Db => s.holds.find? i ≠ some h) (not_not.mpr hi) hend
  have hbefore := not_not.mp (hpre pre List.prefix_rfl)
  rcases commit_cases (exec d c) (run (exec d) pre s) with heq | ⟨u, hstep⟩
  · rw [heq] at hc
    exact absurd hbefore hc
  · obtain ⟨h', hfind, hends⟩ :=
      ((exec_change hstep).holdChange.hold hbefore).resolve_left hc
    have hafter : ∀ l, (run (exec d) (pre ++ c :: l) s).holds.find? i = some h' := fun l => by
      rw [run_append, run_cons]
      exact run_hold_final hfind hends.final l
    refine ⟨h', hafter post, .inr ⟨pre, c, post, rfl, fun l hl => ?_, hends, fun l _ => ?_⟩⟩
    · rw [hid]
      exact not_not.mp (hpre l hl)
    · rw [hid]
      exact hafter l

/-- A hold that is there at the end of a history and not at its start was opened by one call. -/
theorem run_hold_new {i : Uuid} {h : Hold} (hnone : s.holds.find? i = none) (cs : List Call)
    (hi : (run (exec d) cs s).holds.find? i = some h) :
    ∃ pre c post, ∃ h₁ : Hold, cs = pre ++ c :: post ∧ h₁.id = i ∧
      h₁.Opened (run (exec d) pre s) (commit (exec d c) (run (exec d) pre s)) := by
  obtain ⟨pre, c, post, rfl, hpre, hc⟩ :=
    run_crossing (Q := fun s : Db => s.holds.find? i ≠ none) (not_not.mpr hnone) (by rw [hi]; simp)
  have hbefore := not_not.mp (hpre pre List.prefix_rfl)
  obtain ⟨h₁, hfind⟩ := Option.ne_none_iff_exists'.mp hc
  refine ⟨pre, c, post, h₁, rfl, Table.key_of_find? hfind, ?_⟩
  rcases commit_cases (exec d c) (run (exec d) pre s) with heq | ⟨u, hstep⟩
  · rw [heq] at hc
    exact absurd hbefore hc
  · exact (exec_change hstep).holdChange.hold_new hbefore hfind

/-- An expiry that does not hold the current claim changes nothing. -/
theorem commit_expireHold_stale {sess : Session} {p : ExpiryRequest} {clock : ExpiryClock}
    {c : Uuid} {ids : ChangeIds} (hstale : ∀ j, s.holdJobs.find? p.target = some j →
      j.claimOwner ≠ some p.owner ∨ j.claimGeneration ≠ p.generation ∨
        ∀ u, j.claimedUntil = some u → u ≤ instant clock.lease) :
    commit (exec d (.expireHold sess p clock c ids)) s = s := by
  rcases commit_cases (exec d (.expireHold sess p clock c ids)) s with heq | ⟨u, hstep⟩
  · exact heq
  · obtain ⟨r, hret⟩ := Txn.discard_ok.mp hstep
    obtain ⟨⟨j, hj, -, howner, hgeneration, u, huntil, hlease⟩, -⟩ := controlledExpireHoldV1_ok hret
    rcases hstale j hj with hne | hne | hlapsed
    · exact absurd howner hne
    · exact absurd hgeneration hne
    · exact absurd (hlapsed u huntil) (not_le.mpr hlease)

end Lives

/-- The life of a hold, along every history of calls. A hold is opened active, and it stays as it
is but for the one call that ends it: a release or an expiry, which gives its amount back to the
available amount of its source, or a capture, which writes the one transfer that debits it. Its
events and its expiry job always tell its state, no transfer captures two holds, the available
amount of an account is what its active holds leave of the ledger amount, and an expiry without the
current claim changes nothing. -/
theorem hold_lifecycle (d : Digest) (s : Db) (hs : s.Provisioned) (cs : List Call) :
    (∀ i h, (run (exec d) cs s).holds.find? i = some h →
      ∃ pre c post, ∃ h₁ : Hold, cs = pre ++ c :: post ∧ h₁.id = i ∧
        h₁.Opened (run (exec d) pre s) (commit (exec d c) (run (exec d) pre s))) ∧
    (∀ pre post i h, cs = pre ++ post → (run (exec d) pre s).holds.find? i = some h →
      ∃ h', (run (exec d) cs s).holds.find? i = some h' ∧
        (h' = h ∨ h.EndedOnce d h' post (run (exec d) pre s))) ∧
    (∀ i h, (run (exec d) cs s).holds.find? i = some h → h.Recorded (run (exec d) cs s)) ∧
    (∀ h ∈ (run (exec d) cs s).holds, ∀ h' ∈ (run (exec d) cs s).holds, h.state = .captured →
      h'.state = .captured → h.transferId = h'.transferId → h = h') ∧
    (∀ a ∈ (run (exec d) cs s).accounts, ∃ b, (run (exec d) cs s).balances.find? a.id = some b ∧
      (b.available : ℤ) = b.ledger - (run (exec d) cs s).reserved a.id) ∧
    (∀ sess p clock c ids, (∀ j, (run (exec d) cs s).holdJobs.find? p.target = some j →
        j.claimOwner ≠ some p.owner ∨ j.claimGeneration ≠ p.generation ∨
          ∀ u, j.claimedUntil = some u → u ≤ instant clock.lease) →
      commit (exec d (.expireHold sess p clock c ids)) (run (exec d) cs s) =
        run (exec d) cs s) := by
  have hrecorded := run_recorded d cs hs.recorded
  refine ⟨fun i h hi => ?_, ?_, hrecorded.holds, hrecorded.once, fun a ha => ?_,
    fun sess p clock c ids hstale => commit_expireHold_stale hstale⟩
  · refine run_hold_new ?_ cs hi
    rw [Table.find?_eq_none]
    intro k hk
    rw [Table.mem_def, hs.holds] at hk
    cases hk
  · rintro pre post i h rfl hi
    rw [run_append]
    exact run_hold hi post
  · obtain ⟨p, hp, hbalanced⟩ := (run_booked d cs hs.toAtOpening.booked).balanced a.id a
      (Table.find?_eq_some.mpr ⟨ha, rfl⟩)
    obtain ⟨b, o, hb, -, rfl⟩ := Db.position?_eq_some.mp hp
    exact ⟨b, hb, hbalanced.available⟩

namespace Sample

/-- The identifiers of the evidence of a state change, numbered from `n`. -/
def changeIds (n : ℕ) (h : decide (n < 1000) = true := by exact Eq.refl true) : ChangeIds :=
  ⟨following n h 0, following n h 1, following n h 2⟩

/-- One reading for all clocks of a state change. -/
def changeClock (t : Timestamp) : ChangeClock := ⟨t, t, t⟩

/-- A hold of 200 for ten minutes. -/
def holdRequest : HoldRequest where
  tenant := tenant
  actor := alice
  key := "sample-hold-000001"
  correlation := uuid 5
  source := source
  destination := destination
  amount := big 200
  currency := "INR"
  ttlSeconds := 600

/-- The call that creates it. -/
def openHold : Call :=
  .createHold session holdRequest ⟨hour 0, changeClock (hour 0)⟩ (uuid 50) (changeIds 60)

/-- The capture of the hold. -/
def captureDecision : HoldDecisionRequest where
  tenant := tenant
  actor := alice
  key := "sample-capture-001"
  correlation := uuid 5
  target := uuid 50
  decision := .capture

/-- The call that captures it, in the same hour. -/
def capture : Call :=
  .decideHold session captureDecision ⟨hour 0, changeClock (hour 0), hour 0⟩
    ⟨ids 200, changeIds 70, uuid 80⟩

/-- The database after both calls. -/
def captured : Db := run (exec digest) [openHold, capture] db

end Sample

/-- A hold that is created and captured: its records say so, and an expiry under a claim that was
never made leaves it alone. -/
theorem hold_lifecycle_sample : Sample.db.Provisioned ∧
    (∃ h, Sample.captured.holds.find? (Sample.uuid 50) = some h ∧ h.state = .captured ∧
      h.Recorded Sample.captured) ∧
    ∀ sess clock c ids, commit (exec Sample.digest (.expireHold sess
      ⟨Sample.tenant, Sample.uuid 50, "worker", 1⟩ clock c ids)) Sample.captured =
        Sample.captured := by
  obtain ⟨-, -, hrecorded, -, -, hstale⟩ := hold_lifecycle Sample.digest Sample.db
    Sample.provisioned [Sample.openHold, Sample.capture]
  have hrun : (Sample.captured.holds.find? (Sample.uuid 50)).map Hold.state = some .captured ∧
      (Sample.captured.holdJobs.find? (Sample.uuid 50)).bind HoldJob.claimOwner = none := by
    decide +kernel
  obtain ⟨h, hfind, hcaptured⟩ := Option.map_eq_some_iff.mp hrun.1
  refine ⟨Sample.provisioned, ⟨h, hfind, hcaptured, hrecorded _ h hfind⟩, fun sess clock c ids =>
    hstale sess _ clock c ids fun j hj => .inl ?_⟩
  have howner := hrun.2
  have hjob : Sample.captured.holdJobs.find? (Sample.uuid 50) = some j := hj
  rw [hjob] at howner
  rw [show j.claimOwner = none from howner]
  simp

end LedgerSync
