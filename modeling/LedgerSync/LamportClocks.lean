import LedgerSync.Lib.LogicalClock
import LedgerSync.OutboxFencing

/-!
# The logical clocks of the components

Components stamp the events that they insert, the publications that they prepare and the messages
that they receive. A call that returns counts as the library's clocks do (`QueueCall.exec_counts`),
so the stamps of a history meet the clock condition, whatever its calls publish, lose, retry or
receive twice (`lamport_clock_condition`). What the tables say of a stamp is what was stamped
(`QueueDb.HasStamp`), and a stored receipt never changes.
-/

namespace LedgerSync

open Lib

/-! ## What a history stamps -/

/-- How components stamp. -/
def stamping : Stamping StampedEvent String where
  node e := e.node
  stamp e := e.stamp
  cause e := e.cause.map fun c => (c.1, (c.2 : ℤ))

/-- What a call stamps; a call that raises stamps nothing. -/
def QueueCall.stamped (c : QueueCall) (s : QueueDb) : List StampedEvent :=
  match c.exec s with
  | .ok (r, _) => r
  | .error _ => []

/-- What the calls of a history stamp, in their order. -/
def stamps : List QueueCall → QueueDb → List StampedEvent
  | [], _ => []
  | c :: cs, s => c.stamped s ++ stamps cs (commit c.exec s)

/-- The database has the stamp of a component in an event or in an attempt. -/
def QueueDb.HasStamp (s : QueueDb) (node : String) (stamp : Bigint) : Prop :=
  (∃ e ∈ s.events, e.nodeId = some node ∧ e.logicalTimestamp = some stamp) ∨
    ∃ a ∈ s.attempts, a.nodeId = some node ∧
      (a.receiveCounter = some stamp ∨ a.sendCounter = some stamp)

/-- What a receipt stamped. -/
def MessageReceipt.event (r : MessageReceipt) : StampedEvent :=
  ⟨r.nodeId, r.receiveCounter, r.sender⟩

/-- The batch in which `ReceiveBatch` receives the messages of one tenant. -/
def receiveGroup (node : String) (messages : List ReceivedMessage) : QueueCall :=
  .receive ⟨(messages.head?.map fun m => m.tenant.text).getD "", "system:" ++ node, false⟩ node
    messages

/-- The loop of `ReceiveBatch`: it stops at the first batch that fails. -/
def receiveGroups (node : String) : List (List ReceivedMessage) → QueueDb → Bool × QueueDb
  | [], s => (true, s)
  | g :: gs, s => match (receiveGroup node g).exec s with
    | .ok (_, s') => receiveGroups node gs s'
    | .error _ => (false, s)

/-- `ReceiveBatch`: at most 100 messages, in one transaction for each run of messages of one
tenant. -/
def receiveBatch (node : String) (messages : List ReceivedMessage) (s : QueueDb) : Bool × QueueDb :=
  if 100 < messages.length then (false, s)
  else receiveGroups node (messages.splitBy fun m m' => m.tenant = m'.tenant) s

/-- A batch is a history of receipts. -/
theorem receiveGroups_eq_run (node : String) (groups : List (List ReceivedMessage)) (s : QueueDb) :
    ∃ done, done <+: groups ∧
      (receiveGroups node groups s).2 = run QueueCall.exec (done.map (receiveGroup node)) s := by
  induction groups generalizing s with
  | nil => exact ⟨[], List.nil_prefix, rfl⟩
  | cons g gs ih =>
    rcases h : (receiveGroup node g).exec s with e | ⟨r, s'⟩
    · refine ⟨[], List.nil_prefix, ?_⟩
      simp [receiveGroups, h]
    · obtain ⟨done, hdone, hrun⟩ := ih s'
      refine ⟨g :: done, List.cons_prefix_cons.mpr ⟨rfl, hdone⟩, ?_⟩
      simp [receiveGroups, h, commit_of_ok h, hrun]

/-! ## One call -/

section Steps

variable {c : QueueCall} {s s' : QueueDb} {r : List StampedEvent}

/-- A node has the clock of its row. -/
theorem QueueDb.clock_congr (h : s'.clocks = s.clocks) : s'.clock = s.clock := by
  unfold QueueDb.clock
  rw [h]

/-- A component counts past its counter and past the stamp that it received. -/
theorem advanceLogicalClock_tick {node : String} {received : ℤ} {k : Bigint}
    {cause : Option (String × Bigint)} (h : advanceLogicalClock node received s = .ok (k, s'))
    (hcause : ∀ x, cause = some x → (x.2 : ℤ) ≤ received) :
    stamping.Tick s.clock ⟨node, k, cause⟩ s'.clock := by
  obtain ⟨hk, hclock, hothers, -⟩ := advanceLogicalClock_ok h
  have hown : s.clock node < k := by
    rw [hk]
    exact Int.lt_add_one_of_le (le_max_left _ _)
  refine ⟨hown, fun x hx => ?_, hclock.ge, fun n => ?_⟩
  · obtain ⟨y, hy, rfl⟩ := Option.map_eq_some_iff.mp hx
    have hle : (y.2 : ℤ) ≤ max (s.clock node) received := (hcause y hy).trans (le_max_right _ _)
    exact (Int.lt_add_one_of_le hle).trans_eq hk.symm
  · by_cases hn : n = node
    · rw [hn, hclock]
      exact hown.le
    · rw [hothers n hn]

/-- A batch counts once for every message. -/
theorem receiveTenantBatch_counts {sess : Session} {node : String} {ms : List ReceivedMessage}
    (h : receiveTenantBatch sess node ms s = .ok (r, s')) :
    stamping.Counts s.clock r s'.clock := by
  induction ms generalizing s r with
  | nil =>
    obtain ⟨rfl, rfl⟩ := Txn.pure_ok.mp h
    exact .nil
  | cons m ms ih =>
    obtain ⟨e, s₁, hm, hrest⟩ := Txn.bind_ok.mp h
    obtain ⟨es, s₂, hms, hpure⟩ := Txn.bind_ok.mp hrest
    obtain ⟨rfl, rfl⟩ := Txn.pure_ok.mp hpure
    obtain ⟨received, s₀, t, hadvance, -, rfl, rfl⟩ := controlledReceiveMessageV1_ok hm
    have htick : stamping.Tick s.clock ⟨node, received, m.sender⟩ s₀.clock := by
      refine advanceLogicalClock_tick hadvance fun x hx => ?_
      rw [hx]
      rfl
    have hcounts := ih hms
    exact .cons htick hcounts

/-- A call that returns counts as its stamps say. -/
theorem QueueCall.exec_counts (h : c.exec s = .ok (r, s')) : stamping.Counts s.clock r s'.clock := by
  -- Only insertions, preparations, batches and advances move a clock; each call has its frame.
  cases c with
  | insert app e =>
    obtain ⟨stamped, -, -, -, ⟨-, rfl, hclocks⟩ | ⟨stamp, parent, s₁, -, hadvance, hclocks, rfl⟩⟩ :=
      insertQueued_ok h
    · rw [QueueDb.clock_congr hclocks]
      exact .nil
    · rw [QueueDb.clock_congr hclocks]
      exact (advanceLogicalClock_tick hadvance (by simp)).counts
  | claim p =>
    obtain ⟨r', s₁, hclaim, hpure⟩ := Txn.bind_ok.mp h
    obtain ⟨rfl, rfl⟩ := Txn.pure_ok.mp hpure
    obtain ⟨-, -, -, hframe⟩ := controlledClaimOutboxV1_ok hclaim
    have hclocks : s₁.clocks = s.clocks := by rw [hframe]
    rw [QueueDb.clock_congr hclocks]
    exact .nil
  | renew sess f lease clock =>
    obtain ⟨r', s₁, hrenew, hpure⟩ := Txn.bind_ok.mp h
    obtain ⟨rfl, rfl⟩ := Txn.pure_ok.mp hpure
    rcases underClaim_ok (controlledRenewClaimV1_ok hrenew) with ⟨-, rfl⟩ | ⟨-, e, a, -, -, -, rfl⟩
    · exact .nil
    · exact .nil
  | prepare sess f node now =>
    rcases controlledPreparePublicationV1_ok h with ⟨rfl, rfl⟩ |
        ⟨e, a, received, sent, s₁, -, hreceived, hsent, -, -, rfl⟩
    · exact .nil
    -- The preparation first receives the stamp of the event and then sends its own.
    · refine .cons (advanceLogicalClock_tick hreceived fun x hx => ?_)
        (advanceLogicalClock_tick hsent (by simp)).counts
      obtain ⟨n, -, hn⟩ := Option.bind_eq_some_iff.mp hx
      obtain ⟨t, ht, rfl⟩ := Option.map_eq_some_iff.mp hn
      rw [ht]
      rfl
  | complete sess f p clock =>
    obtain ⟨r', s₁, hcomplete, hpure⟩ := Txn.bind_ok.mp h
    obtain ⟨rfl, rfl⟩ := Txn.pure_ok.mp hpure
    rcases underClaim_ok (controlledCompleteOutboxV1_ok hcomplete) with
      ⟨-, rfl⟩ | ⟨-, e, a, -, -, -, rfl⟩
    · exact .nil
    · exact .nil
  | approve sess p =>
    obtain ⟨u, s₁, happrove, hpure⟩ := Txn.bind_ok.mp h
    obtain ⟨rfl, rfl⟩ := Txn.pure_ok.mp hpure
    have hclocks : s₁.clocks = s.clocks := by rw [approveOutboxRecovery_ok happrove]
    rw [QueueDb.clock_congr hclocks]
    exact .nil
  | execute sess p =>
    obtain ⟨u, s₁, hexecute, hpure⟩ := Txn.bind_ok.mp h
    obtain ⟨rfl, rfl⟩ := Txn.pure_ok.mp hpure
    obtain ⟨e, -, -, hframe⟩ := executeOutboxRecovery_ok hexecute
    have hclocks : s₁.clocks = s.clocks := by rw [hframe]
    rw [QueueDb.clock_congr hclocks]
    exact .nil
  | receive sess node messages => exact receiveTenantBatch_counts h
  | advance node received =>
    obtain ⟨stamp, s₁, hadvance, hpure⟩ := Txn.bind_ok.mp h
    obtain ⟨rfl, rfl⟩ := Txn.pure_ok.mp hpure
    exact (advanceLogicalClock_tick hadvance (by simp)).counts
  | configure roles =>
    simp only [QueueCall.exec, Txn.get_bind_ok, Txn.set_bind_ok, Txn.pure_ok] at h
    obtain ⟨rfl, rfl⟩ := h
    exact .nil

/-- A batch adds the receipts that it stamped to those that are stored. -/
theorem receiveTenantBatch_receipts {sess : Session} {node : String} {ms : List ReceivedMessage}
    (h : receiveTenantBatch sess node ms s = .ok (r, s')) :
    (∀ k x, s.receipts.find? k = some x → s'.receipts.find? k = some x) ∧
      ∀ x ∈ s'.receipts, x ∈ s.receipts ∨ x.event ∈ r := by
  -- The induction is on the messages; each adds one receipt and its stamp.
  induction ms generalizing s r with
  | nil =>
    obtain ⟨rfl, rfl⟩ := Txn.pure_ok.mp h
    exact ⟨fun _ _ hx => hx, fun _ hx => .inl hx⟩
  | cons m ms ih =>
    obtain ⟨e, s₁, hm, hrest⟩ := Txn.bind_ok.mp h
    obtain ⟨es, s₂, hms, hpure⟩ := Txn.bind_ok.mp hrest
    obtain ⟨rfl, rfl⟩ := Txn.pure_ok.mp hpure
    obtain ⟨received, s₀, t, hadvance, ht, rfl, rfl⟩ := controlledReceiveMessageV1_ok hm
    obtain ⟨-, -, -, hframe⟩ := advanceLogicalClock_ok hadvance
    have hreceipts : s₀.receipts = s.receipts := by rw [hframe]
    rw [hreceipts] at ht
    obtain ⟨hkept, hnew⟩ := ih hms
    refine ⟨fun k x hx => hkept k x (Table.find?_insert?_of_some ht hx), fun x hx => ?_⟩
    rcases hnew x hx with hold | hstamped
    · rcases (Table.mem_insert? ht).mp hold with rfl | hold
      · exact .inr List.mem_cons_self
      · exact .inl hold
    · exact .inr (List.mem_cons_of_mem _ hstamped)

/-- A call keeps the receipts, and stamps those that it adds. -/
theorem QueueCall.exec_receipts (h : c.exec s = .ok (r, s')) :
    (∀ k x, s.receipts.find? k = some x → s'.receipts.find? k = some x) ∧
      ∀ x ∈ s'.receipts, x ∈ s.receipts ∨ x.event ∈ r := by
  have hkeep (hsame : s'.receipts = s.receipts) :
      (∀ k x, s.receipts.find? k = some x → s'.receipts.find? k = some x) ∧
        ∀ x ∈ s'.receipts, x ∈ s.receipts ∨ x.event ∈ r := by
    rw [hsame]
    exact ⟨fun _ _ hx => hx, fun _ hx => .inl hx⟩
  cases c with
  | insert app e =>
    obtain ⟨stamped, -, -, hreceipts, -⟩ := insertQueued_ok h
    exact hkeep hreceipts
  | claim p =>
    obtain ⟨r', s₁, hclaim, hpure⟩ := Txn.bind_ok.mp h
    obtain ⟨-, rfl⟩ := Txn.pure_ok.mp hpure
    obtain ⟨-, -, -, hframe⟩ := controlledClaimOutboxV1_ok hclaim
    exact hkeep (by rw [hframe])
  | renew sess f lease clock =>
    obtain ⟨r', s₁, hrenew, hpure⟩ := Txn.bind_ok.mp h
    obtain ⟨-, rfl⟩ := Txn.pure_ok.mp hpure
    rcases underClaim_ok (controlledRenewClaimV1_ok hrenew) with ⟨-, rfl⟩ | ⟨-, e, a, -, -, -, rfl⟩
    · exact hkeep rfl
    · exact hkeep rfl
  | prepare sess f node now =>
    rcases controlledPreparePublicationV1_ok h with ⟨-, rfl⟩ |
        ⟨e, a, received, sent, s₁, -, hreceived, hsent, -, -, -⟩
    · exact hkeep rfl
    -- The two advances of the clock leave the receipts alone.
    · obtain ⟨-, -, -, hframe₁⟩ := advanceLogicalClock_ok hreceived
      obtain ⟨-, -, -, hframe₂⟩ := advanceLogicalClock_ok hsent
      have hmid : s'.receipts = s₁.receipts := (congrArg QueueDb.receipts hframe₂ :)
      exact hkeep (hmid.trans (by rw [hframe₁]))
  | complete sess f p clock =>
    obtain ⟨r', s₁, hcomplete, hpure⟩ := Txn.bind_ok.mp h
    obtain ⟨-, rfl⟩ := Txn.pure_ok.mp hpure
    rcases underClaim_ok (controlledCompleteOutboxV1_ok hcomplete) with
      ⟨-, rfl⟩ | ⟨-, e, a, -, -, -, rfl⟩
    · exact hkeep rfl
    · exact hkeep rfl
  | approve sess p =>
    obtain ⟨u, s₁, happrove, hpure⟩ := Txn.bind_ok.mp h
    obtain ⟨-, rfl⟩ := Txn.pure_ok.mp hpure
    exact hkeep (by rw [approveOutboxRecovery_ok happrove])
  | execute sess p =>
    obtain ⟨u, s₁, hexecute, hpure⟩ := Txn.bind_ok.mp h
    obtain ⟨-, rfl⟩ := Txn.pure_ok.mp hpure
    obtain ⟨e, -, -, hframe⟩ := executeOutboxRecovery_ok hexecute
    exact hkeep (by rw [hframe])
  | receive sess node messages => exact receiveTenantBatch_receipts h
  | advance node received =>
    obtain ⟨stamp, s₁, hadvance, hpure⟩ := Txn.bind_ok.mp h
    obtain ⟨-, rfl⟩ := Txn.pure_ok.mp hpure
    obtain ⟨-, -, -, hframe⟩ := advanceLogicalClock_ok hadvance
    exact hkeep (by rw [hframe])
  | configure roles =>
    simp only [QueueCall.exec, Txn.get_bind_ok, Txn.set_bind_ok, Txn.pure_ok] at h
    obtain ⟨-, rfl⟩ := h
    exact hkeep rfl

/-- The stamps of an event never change. -/
theorem QueuedEvent.Step.clock {e e' : QueuedEvent} (h : e.Step c e') :
    e'.nodeId = e.nodeId ∧ e'.logicalTimestamp = e.logicalTimestamp := by
  cases h <;> exact ⟨rfl, rfl⟩

/-- The stamp of an event was there, or the call stamped it. -/
theorem QueueCall.exec_eventStamp (h : c.exec s = .ok (r, s')) {e' : QueuedEvent}
    (he' : e' ∈ s'.events) {node : String} {k : Bigint} (hnode : e'.nodeId = some node)
    (hstamp : e'.logicalTimestamp = some k) :
    (∃ e ∈ s.events, e.nodeId = some node ∧ e.logicalTimestamp = some k) ∨
      ∃ x ∈ r, x.node = node ∧ x.stamp = k := by
  have hfind := Table.find?_eq_some.mpr ⟨he', rfl⟩
  have hsteps := (QueueCall.exec_step h).1
  -- The event is new, and then this call inserted it, or it is a later state of one of before.
  rcases hold : s.events.find? e'.id with _ | e
  · obtain ⟨app, n, stamped, rfl, rfl⟩ := hsteps.new _ _ hold hfind
    obtain ⟨stamped', hinsert, -, -, hcases⟩ := insertQueued_ok h
    have hrow : n.row stamped = n.row stamped' := Option.some.inj
      (hfind.symm.trans (Table.find?_insert?_self hinsert rfl))
    rw [hrow] at hnode hstamp
    -- Without a stamp the row has no node.
    rcases hcases with ⟨rfl, -, -⟩ | ⟨stamp, parent, s₁, rfl, -, -, rfl⟩
    · cases hnode
    · cases hnode
      cases hstamp
      exact .inr ⟨_, List.mem_singleton_self _, rfl, rfl⟩
  · obtain ⟨x, hx, hstep⟩ := hsteps.step _ e hold
    obtain rfl := Option.some.inj (hx.symm.trans hfind)
    obtain ⟨hn, ht⟩ := hstep.clock
    exact .inl ⟨e, Table.mem_of_find? hold, hn.symm.trans hnode, ht.symm.trans hstamp⟩

/-- Attempts with the same stamps. -/
def PublicationAttempt.SameClock (a a' : PublicationAttempt) : Prop :=
  a'.nodeId = a.nodeId ∧ a'.receiveCounter = a.receiveCounter ∧ a'.sendCounter = a.sendCounter

/-- An attempt has no stamps, or those that it had, or those of the call. -/
theorem QueueCall.exec_attemptStamp (h : c.exec s = .ok (r, s')) {a' : PublicationAttempt}
    (ha' : a' ∈ s'.attempts) :
    a'.nodeId = none ∨ (∃ a ∈ s.attempts, a.SameClock a') ∨
      ∃ node received sent cause, a'.nodeId = some node ∧ a'.receiveCounter = some received ∧
        a'.sendCounter = some sent ∧ r = [⟨node, received, cause⟩, ⟨node, sent, none⟩] := by
  have hkeep (hsame : s'.attempts = s.attempts) : ∃ a ∈ s.attempts, a.SameClock a' :=
    ⟨a', hsame ▸ ha', rfl, rfl, rfl⟩
  -- Renewing and completing replace one attempt by one with the same stamps.
  have hclaim {sess : Session} {f : ClaimFence} {resolve check : Instant}
      {event : QueuedEvent → QueuedEvent} {attempt : PublicationAttempt → PublicationAttempt}
      {b : Bool} (hunder : underClaim sess f resolve check event attempt s = .ok (b, s'))
      (hclock : ∀ a : PublicationAttempt, a.SameClock (attempt a)) :
      ∃ a ∈ s.attempts, a.SameClock a' := by
    rcases underClaim_ok hunder with ⟨-, rfl⟩ | ⟨-, e, a, -, -, ha, rfl⟩
    · exact hkeep rfl
    · rcases Table.mem_replace ha' with rfl | ⟨hold, -⟩
      · exact ⟨a, Table.mem_of_find? (Option.filter_eq_some_iff.mp ha).1, hclock a⟩
      · exact ⟨a', hold, rfl, rfl, rfl⟩
  cases c with
  | insert app e =>
    obtain ⟨stamped, -, hattempts, -, -⟩ := insertQueued_ok h
    exact .inr (.inl (hkeep hattempts))
  | claim p =>
    obtain ⟨r', s₁, hcall, hpure⟩ := Txn.bind_ok.mp h
    obtain ⟨-, rfl⟩ := Txn.pure_ok.mp hpure
    obtain ⟨-, -, hattempts, -⟩ := controlledClaimOutboxV1_ok hcall
    rcases (Table.mem_insertAll? hattempts).mp ha' with hnew | hold
    · obtain ⟨e, -, rfl⟩ := List.mem_map.mp hnew
      exact .inl rfl
    · exact .inr (.inl ⟨a', hold, rfl, rfl, rfl⟩)
  | renew sess f lease clock =>
    obtain ⟨r', s₁, hcall, hpure⟩ := Txn.bind_ok.mp h
    obtain ⟨-, rfl⟩ := Txn.pure_ok.mp hpure
    exact .inr (.inl (hclaim (controlledRenewClaimV1_ok hcall) fun _ => ⟨rfl, rfl, rfl⟩))
  | prepare sess f node now =>
    rcases controlledPreparePublicationV1_ok h with ⟨-, rfl⟩ |
        ⟨e, a, received, sent, s₁, -, -, -, -, hattempts, hr⟩
    · exact .inr (.inl (hkeep rfl))
    · rw [hattempts] at ha'
      -- A prepared attempt carries the two stamps of the call.
      rcases Table.mem_replace ha' with rfl | ⟨hold, -⟩
      · exact .inr (.inr ⟨node, received, sent, _, rfl, rfl, rfl, hr⟩)
      · exact .inr (.inl ⟨a', hold, rfl, rfl, rfl⟩)
  | complete sess f p clock =>
    obtain ⟨r', s₁, hcall, hpure⟩ := Txn.bind_ok.mp h
    obtain ⟨-, rfl⟩ := Txn.pure_ok.mp hpure
    exact .inr (.inl (hclaim (controlledCompleteOutboxV1_ok hcall) fun _ => ⟨rfl, rfl, rfl⟩))
  | approve sess p =>
    obtain ⟨u, s₁, hcall, hpure⟩ := Txn.bind_ok.mp h
    obtain ⟨-, rfl⟩ := Txn.pure_ok.mp hpure
    exact .inr (.inl (hkeep (by rw [approveOutboxRecovery_ok hcall])))
  | execute sess p =>
    obtain ⟨u, s₁, hcall, hpure⟩ := Txn.bind_ok.mp h
    obtain ⟨-, rfl⟩ := Txn.pure_ok.mp hpure
    obtain ⟨e, -, -, hframe⟩ := executeOutboxRecovery_ok hcall
    exact .inr (.inl (hkeep (by rw [hframe])))
  | receive sess node messages =>
    exact .inr (.inl (hkeep (receiveTenantBatch_frame h).2))
  | advance node received =>
    obtain ⟨stamp, s₁, hadvance, hpure⟩ := Txn.bind_ok.mp h
    obtain ⟨-, rfl⟩ := Txn.pure_ok.mp hpure
    obtain ⟨-, -, -, hframe⟩ := advanceLogicalClock_ok hadvance
    exact .inr (.inl (hkeep (by rw [hframe])))
  | configure roles =>
    simp only [QueueCall.exec, Txn.get_bind_ok, Txn.set_bind_ok, Txn.pure_ok] at h
    obtain ⟨-, rfl⟩ := h
    exact .inr (.inl (hkeep rfl))

/-- A stamp of an event or an attempt was there, or the call stamped it. -/
theorem QueueCall.exec_hasStamp (h : c.exec s = .ok (r, s')) {node : String} {k : Bigint}
    (hstamp : s'.HasStamp node k) : s.HasStamp node k ∨ ∃ x ∈ r, x.node = node ∧ x.stamp = k := by
  -- The stamp stands in an event or in an attempt.
  rcases hstamp with ⟨e', he', hnode, hk⟩ | ⟨a', ha', hnode, hk⟩
  · rcases QueueCall.exec_eventStamp h he' hnode hk with hold | hnew
    · exact .inl (.inl hold)
    · exact .inr hnew
  · rcases QueueCall.exec_attemptStamp h ha' with hnone | ⟨a, ha, hn, hreceive, hsend⟩ |
      ⟨n, received, sent, cause, hn, hreceive, hsend, rfl⟩
    · rw [hnone] at hnode
      cases hnode
    · rw [hn] at hnode
      rw [hreceive, hsend] at hk
      exact .inl (.inr ⟨a, ha, hnode, hk⟩)
    · rw [hn] at hnode
      rw [hreceive, hsend] at hk
      cases hnode
      rcases hk with hk | hk
      · cases hk
        exact .inr ⟨_, List.mem_cons_self, rfl, rfl⟩
      · cases hk
        exact .inr ⟨_, List.mem_cons_of_mem _ List.mem_cons_self, rfl, rfl⟩

end Steps

/-! ## Histories -/

section Histories

/-- The clocks count along a history as its stamps say. -/
theorem run_counts (cs : List QueueCall) (s : QueueDb) :
    stamping.Counts s.clock (stamps cs s) (run QueueCall.exec cs s).clock := by
  induction cs generalizing s with
  | nil => exact .nil
  | cons c cs ih =>
    refine Stamping.Counts.append ?_ (ih (commit c.exec s))
    rcases h : c.exec s with e | ⟨r, s'⟩
    · simp only [QueueCall.stamped, h, commit_of_error h]
      exact .nil
    · simp only [QueueCall.stamped, h, commit_of_ok h]
      exact QueueCall.exec_counts h

/-- A property of the database together with what was stamped that every returning call carries on
holds along a history. -/
theorem run_stamped {I : QueueDb → List StampedEvent → Prop}
    (hstep : ∀ (c : QueueCall) s es r s', c.exec s = .ok (r, s') → I s es → I s' (es ++ r))
    (cs : List QueueCall) {s : QueueDb} (hs : I s []) : I (run QueueCall.exec cs s) (stamps cs s) := by
  -- The induction is on the calls that are left, after what was stamped so far.
  have hrest : ∀ (cs : List QueueCall) (t : QueueDb) (es : List StampedEvent), I t es →
      I (run QueueCall.exec cs t) (es ++ stamps cs t) := by
    intro cs
    induction cs with
    | nil =>
      intro t es ht
      simpa [stamps] using ht
    | cons c cs ih =>
      intro t es ht
      rw [run_cons, stamps, ← List.append_assoc]
      refine ih _ _ ?_
      rcases h : c.exec t with e | ⟨r, t'⟩
      · simpa [QueueCall.stamped, h, commit_of_error h] using ht
      · simpa [QueueCall.stamped, h, commit_of_ok h] using hstep c t es r t' h ht
  exact hrest cs s [] hs

/-- The stamps that the tables have at the end were there at the start, or were stamped. -/
theorem run_hasStamp (cs : List QueueCall) (s : QueueDb) {node : String} {k : Bigint} :
    (run QueueCall.exec cs s).HasStamp node k →
      s.HasStamp node k ∨ ∃ x ∈ stamps cs s, x.node = node ∧ x.stamp = k := by
  refine run_stamped (I := fun t es => t.HasStamp node k → s.HasStamp node k ∨
    ∃ x ∈ es, x.node = node ∧ x.stamp = k) (fun c t es r t' hexec hI hstamp => ?_) cs
    (fun hs => .inl hs)
  rcases QueueCall.exec_hasStamp hexec hstamp with hold | ⟨x, hx, hnew⟩
  · rcases hI hold with hstart | ⟨x, hx, hsome⟩
    · exact .inl hstart
    · exact .inr ⟨x, List.mem_append_left _ hx, hsome⟩
  · exact .inr ⟨x, List.mem_append_right _ hx, hnew⟩

/-- The receipts at the end were there at the start, or were stamped with their senders. -/
theorem run_receipts (cs : List QueueCall) (s : QueueDb) {x : MessageReceipt} :
    x ∈ (run QueueCall.exec cs s).receipts → x ∈ s.receipts ∨ x.event ∈ stamps cs s := by
  refine run_stamped (I := fun t es => x ∈ t.receipts → x ∈ s.receipts ∨ x.event ∈ es)
    (fun c t es r t' hexec hI hx => ?_) cs (fun hs => .inl hs)
  rcases (QueueCall.exec_receipts hexec).2 x hx with hold | hnew
  · exact (hI hold).imp_right (List.mem_append_left _)
  · exact .inr (List.mem_append_right _ hnew)

/-- A receipt is stored for good. -/
theorem run_receipt (cs : List QueueCall) {s : QueueDb} {k : String × Bigint} {x : MessageReceipt}
    (h : s.receipts.find? k = some x) : (run QueueCall.exec cs s).receipts.find? k = some x :=
  run_invariant (I := fun t : QueueDb => t.receipts.find? k = some x)
    (fun _ _ _ _ hexec hx => (QueueCall.exec_receipts hexec).1 k x hx) cs h

end Histories

/-- After every history of insertions, preparations, receipts and whatever else the components do,
with messages lost, repeated and retried: what happens before has the earlier stamp; the stamps that
the tables have are those of the events that are meant, a receipt with the stamp of its sender as
its cause; no clock ever falls; a stored receipt never changes; and a batch of messages is a history
of receipts. -/
theorem lamport_clock_condition (s : QueueDb) (cs : List QueueCall) :
    (∀ i j a b, (stamps cs s)[i]? = some a → (stamps cs s)[j]? = some b →
      stamping.HappensBefore (stamps cs s) i j → (a.stamp : ℤ) < b.stamp) ∧
    (∀ node k, (run QueueCall.exec cs s).HasStamp node k →
      s.HasStamp node k ∨ ∃ x ∈ stamps cs s, x.node = node ∧ x.stamp = k) ∧
    (∀ x ∈ (run QueueCall.exec cs s).receipts, x ∈ s.receipts ∨ x.event ∈ stamps cs s) ∧
    (∀ later node, (run QueueCall.exec cs s).clock node ≤
      (run QueueCall.exec (cs ++ later) s).clock node) ∧
    (∀ later k x, (run QueueCall.exec cs s).receipts.find? k = some x →
      (run QueueCall.exec (cs ++ later) s).receipts.find? k = some x) ∧
    ∀ node messages, ∃ groups, groups <+: (messages.splitBy fun m m' => m.tenant = m'.tenant) ∧
      (receiveBatch node messages (run QueueCall.exec cs s)).2 =
        run QueueCall.exec (cs ++ groups.map (receiveGroup node)) s := by
  have hclocked := Stamping.Clocked.nil.counts (run_counts cs s)
  rw [List.nil_append] at hclocked
  refine ⟨fun i j a b ha hb hij => hclocked.stamp_lt hij ha hb, fun _ _ => run_hasStamp cs s,
    fun _ => run_receipts cs s, fun later node => ?_, fun later k x hx => ?_,
    fun node messages => ?_⟩
  · rw [run_append]
    exact (run_counts later _).mono node
  · rw [run_append]
    exact run_receipt later hx
  · simp only [receiveBatch, run_append]
    split_ifs
    · exact ⟨[], List.nil_prefix, rfl⟩
    · exact receiveGroups_eq_run node _ _

end LedgerSync
