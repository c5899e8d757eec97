import LedgerSync.OutboxFencing
import LedgerSync.ServiceValues

/-!
# What operators are shown of an event

Seven queries derive the state of an outbox event from its columns: the list of events, the detail
of one, the search, the evidence of a guidance, and the relationships of an account, a transfer and
a funding event. The first four ask for an error code before they call an event retrying, the last
three only ask whether it was ever claimed (`relationshipState`). An event that is claimed for the
first time is therefore pending for the former and retrying for the latter, although nothing has
failed yet. `views_agree_iff` says which events all views agree on.

A history leaves evidence of what happened to an event in its publication attempts (`Evidenced`):
an attempt that is completed is never written again, so a dead event and an error code each go
back to an attempt that failed.
-/

namespace LedgerSync

open Lib

/-! ## The views -/

/-- The state of an event as the views name it. -/
inductive EventState where
  | pending
  | retrying
  | published
  | dead
deriving DecidableEq

/-- The text of a state. -/
def EventState.text : EventState → String
  | pending => "pending"
  | retrying => "retrying"
  | published => "published"
  | dead => "dead"

/-- The `CASE` of all views, which differ in what they take for a retry. -/
def QueuedEvent.stateBy (e : QueuedEvent) (retried : Bool) : EventState :=
  if e.publishedAt ≠ none then .published
  else if e.deadAt ≠ none then .dead
  else if retried then .retrying
  else .pending

/-- The state of an event that is retried once it has an error code. -/
def QueuedEvent.evidenceState (e : QueuedEvent) : EventState :=
  e.stateBy (e.lastErrorCode ≠ none ∧ 0 < e.attemptCount)

/-- The state of an event that is retried once it has been claimed. -/
def QueuedEvent.relationshipState (e : QueuedEvent) : EventState :=
  e.stateBy (0 < e.attemptCount)

/-- `allowedGuidanceStatus`. -/
def allowedGuidanceStatus (value : String) : String :=
  let value := toLower (trimSpace value)
  if value ∈ ["in_progress", "completed", "failed", "pending", "posted", "rejected", "debit",
      "credit", "published", "retrying", "dead", "delivered", "matched", "mismatch"] then value
  else ""

/-- The queries that show the state of an event. -/
inductive EventView where
  | listEvents
  | getEvent
  | search
  | outboxEvidence
  | accountRelationships
  | transferRelationships
  | fundingRelationships
deriving DecidableEq

/-- The text that a query shows for an event. -/
def EventView.shown (e : QueuedEvent) : EventView → String
  | listEvents => e.evidenceState.text
  | getEvent => e.evidenceState.text
  | search => e.evidenceState.text
  | outboxEvidence => allowedGuidanceStatus e.evidenceState.text
  | accountRelationships => e.relationshipState.text
  | transferRelationships => e.relationshipState.text
  | fundingRelationships => e.relationshipState.text

/-- A state is known by its text. -/
theorem EventState.text_injective : Function.Injective EventState.text := by
  intro a b h
  cases a <;> cases b <;> first | rfl | exact absurd h (by decide)

/-- The states pass the guidance unchanged. -/
@[simp]
theorem allowedGuidanceStatus_text (st : EventState) : allowedGuidanceStatus st.text = st.text := by
  cases st <;> decide +kernel

/-- All views show one state when the two ways to take an event for retried do not differ. -/
theorem shown_iff {e : QueuedEvent} {st : EventState} :
    (∀ v : EventView, v.shown e = st.text) ↔ e.evidenceState = st ∧ e.relationshipState = st := by
  constructor
  · intro h
    exact ⟨EventState.text_injective (h .listEvents),
      EventState.text_injective (h .accountRelationships)⟩
  · rintro ⟨hevidence, hrelationship⟩ v
    cases v <;> simp only [EventView.shown, hevidence, hrelationship, allowedGuidanceStatus_text]

/-! ## The evidence of a history -/

/-- A publication attempt that failed. -/
def PublicationAttempt.Failed (a : PublicationAttempt) : Prop :=
  a.status = .retrying ∨ a.status = .dead

/-- Some attempt to publish the event failed. -/
def QueueDb.HasFailed (s : QueueDb) (event : Uuid) : Prop :=
  ∃ a ∈ s.attempts, a.eventId = event ∧ a.Failed

/-- What the attempts show of an event: its death and its error code go back to an attempt that
failed. -/
structure QueuedEvent.Evidenced (s : QueueDb) (e : QueuedEvent) : Prop where
  attempts : 0 ≤ e.attemptCount
  failed : e.publishedAt = none → e.deadAt ≠ none ∨ e.lastErrorCode ≠ none → s.HasFailed e.id

section Steps

variable {c : QueueCall} {s s' : QueueDb} {e e' : QueuedEvent}

/-- A completed attempt stays as it is when another one is rewritten. -/
theorem settled_replace {f : ClaimFence} {a a' b : PublicationAttempt} (ha : s.attempt? f = some a)
    (hkey : a'.key = a.key) (hb : b ∈ s.attempts) (hsettled : b.status ≠ .claimed) :
    b ∈ s.attempts.replace a' := by
  obtain ⟨hfind, hlive⟩ := Option.filter_eq_some_iff.mp ha
  have hclaimed : a.status = .claimed := (of_decide_eq_true hlive).2
  have hother : b.key ≠ a'.key := by
    intro hsame
    have hsame' := Table.eq_of_key hb (Table.mem_of_find? hfind) (hsame.trans hkey)
    exact hsettled (hsame' ▸ hclaimed)
  have hmem : (s.attempts.replace a').find? b.key = some b := by
    rw [Table.find?_replace_ne hother]
    exact Table.find?_eq_some.mpr ⟨hb, rfl⟩
  exact Table.mem_of_find? hmem

/-- A call under a claim keeps the attempts that are settled. -/
theorem underClaim_settled {sess : Session} {f : ClaimFence} {resolve check : Instant}
    {event : QueuedEvent → QueuedEvent} {attempt : PublicationAttempt → PublicationAttempt} {r : Bool}
    (h : underClaim sess f resolve check event attempt s = .ok (r, s'))
    (hkey : ∀ a, (attempt a).key = a.key) {b : PublicationAttempt} (hb : b ∈ s.attempts)
    (hsettled : b.status ≠ .claimed) : b ∈ s'.attempts := by
  rcases underClaim_ok h with ⟨-, rfl⟩ | ⟨-, e, a, -, -, ha, rfl⟩
  · exact hb
  · exact settled_replace ha (hkey a) hb hsettled

/-- No call rewrites a completed attempt. -/
theorem QueueCall.exec_settled {r : List StampedEvent} (h : c.exec s = .ok (r, s'))
    {b : PublicationAttempt} (hb : b ∈ s.attempts) (hsettled : b.status ≠ .claimed) :
    b ∈ s'.attempts := by
  -- The claim adds attempts, and only the calls under a claim change one.
  cases c with
  | insert app e =>
    obtain ⟨stamped, -, hattempts, -, -⟩ := insertQueued_ok h
    rw [hattempts]
    exact hb
  | claim p =>
    obtain ⟨r', s₁, hclaim, hpure⟩ := Txn.bind_ok.mp h
    obtain ⟨-, rfl⟩ := Txn.pure_ok.mp hpure
    obtain ⟨-, -, hattempts, -⟩ := controlledClaimOutboxV1_ok hclaim
    exact (Table.mem_insertAll? hattempts).mpr (.inr hb)
  | renew sess f lease clock =>
    obtain ⟨r', s₁, hrenew, hpure⟩ := Txn.bind_ok.mp h
    obtain ⟨-, rfl⟩ := Txn.pure_ok.mp hpure
    exact underClaim_settled (controlledRenewClaimV1_ok hrenew) (fun _ => rfl) hb hsettled
  | prepare sess f node now =>
    rcases controlledPreparePublicationV1_ok h with ⟨-, rfl⟩ |
        ⟨e, a, received, sent, s₁, -, -, -, ha, hattempts, -⟩
    · exact hb
    · rw [hattempts]
      -- The attempt that is stamped was claimed, so that it is not this one.
      refine settled_replace ha ?_ hb hsettled
      rfl
  | complete sess f p clock =>
    obtain ⟨r', s₁, hcomplete, hpure⟩ := Txn.bind_ok.mp h
    obtain ⟨-, rfl⟩ := Txn.pure_ok.mp hpure
    exact underClaim_settled (controlledCompleteOutboxV1_ok hcomplete) (fun _ => rfl) hb hsettled
  | approve sess p =>
    obtain ⟨u, s₁, happrove, hpure⟩ := Txn.bind_ok.mp h
    obtain ⟨-, rfl⟩ := Txn.pure_ok.mp hpure
    rw [approveOutboxRecovery_ok happrove]
    exact hb
  | execute sess p =>
    obtain ⟨u, s₁, hexecute, hpure⟩ := Txn.bind_ok.mp h
    obtain ⟨-, rfl⟩ := Txn.pure_ok.mp hpure
    obtain ⟨e, -, -, hframe⟩ := executeOutboxRecovery_ok hexecute
    rw [hframe]
    exact hb
  | receive sess node messages =>
    rw [(receiveTenantBatch_frame h).2]
    exact hb
  | advance node received =>
    obtain ⟨stamp, s₁, hadvance, hpure⟩ := Txn.bind_ok.mp h
    obtain ⟨-, rfl⟩ := Txn.pure_ok.mp hpure
    obtain ⟨-, -, -, hframe⟩ := advanceLogicalClock_ok hadvance
    rw [hframe]
    exact hb
  | configure roles =>
    simp only [QueueCall.exec, Txn.get_bind_ok, Txn.set_bind_ok, Txn.pure_ok] at h
    obtain ⟨-, rfl⟩ := h
    exact hb

/-- The evidence of an event stays where its completed attempts do. -/
theorem QueuedEvent.Evidenced.mono (h : e.Evidenced s)
    (hkept : ∀ b ∈ s.attempts, b.status ≠ .claimed → b ∈ s'.attempts) : e.Evidenced s' where
  attempts := h.attempts
  failed hopen hevidence := by
    obtain ⟨a, ha, hevent, hfailed⟩ := h.failed hopen hevidence
    have hsettled : a.status ≠ .claimed := by
      rcases hfailed with hstatus | hstatus <;> simp [hstatus]
    exact ⟨a, hkept a ha hsettled, hevent, hfailed⟩

/-- A step that completes no claim leaves an event no more than its attempts show. -/
theorem QueuedEvent.Step.evidenced (h : e.Step c e')
    (hcall : ∀ sess f p clock, c ≠ .complete sess f p clock) (he : e.Evidenced s) :
    e'.Evidenced s := by
  cases h with
  | same => exact he
  | claimed =>
    have hcount : 0 ≤ e.attemptCount + 1 := by
      have := he.attempts
      omega
    exact ⟨hcount, he.failed⟩
  | renewed => exact ⟨he.attempts, he.failed⟩
  | completed call => exact absurd call (hcall _ _ _ _)
  | reopened _ dead =>
    -- A reopened event was dead, so one of its attempts had failed.
    exact ⟨le_refl _, fun _ _ => he.failed dead.2.2 (.inl dead.2.1)⟩

/-- What a completion left: an event is as it was, or it was completed together with its attempt. -/
theorem complete_event {sess : Session} {f : ClaimFence} {p : OutboxCompletion}
    {clock : CompletionClock} {r : Bool}
    (h : controlledCompleteOutboxV1 sess f p clock s = .ok (r, s')) (he' : e' ∈ s'.events) :
    e' ∈ s.events ∨ ∃ e ∈ s.events, e' = e.complete p clock.terminal ∧
      ∃ a ∈ s'.attempts, a.eventId = e'.id ∧ a.status = p.status.status := by
  rcases underClaim_ok (controlledCompleteOutboxV1_ok h) with ⟨-, rfl⟩ |
      ⟨-, e, a, -, hcheck, ha, rfl⟩
  · exact .inl he'
  obtain ⟨hfind, -⟩ := held?_eq_some.mp hcheck
  obtain ⟨hattempt, -⟩ := Option.filter_eq_some_iff.mp ha
  rcases Table.mem_replace he' with rfl | ⟨hold, -⟩
  · refine .inr ⟨e, Table.mem_of_find? hfind, rfl, _,
      Table.mem_of_find? (Table.find?_replace_self hattempt ?_), ?_, rfl⟩
    · exact (Table.key_of_find? hattempt : a.key = (f.event, f.generation))
    · have hkey : a.key = (f.event, f.generation) := Table.key_of_find? hattempt
      exact (congrArg Prod.fst hkey).trans (Table.key_of_find? hfind).symm
  · exact .inl hold

/-- A completion keeps the events with the evidence of what they show. -/
theorem complete_evidenced {sess : Session} {f : ClaimFence} {p : OutboxCompletion}
    {clock : CompletionClock} {r : Bool}
    (h : controlledCompleteOutboxV1 sess f p clock s = .ok (r, s'))
    (hs : ∀ e ∈ s.events, e.Evidenced s) : ∀ e' ∈ s'.events, e'.Evidenced s' := by
  intro e' he'
  rcases complete_event h he' with hold | ⟨e, he, rfl, a, ha, hevent, hstatus⟩
  · exact (hs e' hold).mono fun b hb hsettled =>
      underClaim_settled (controlledCompleteOutboxV1_ok h) (fun _ => rfl) hb hsettled
  · refine ⟨(hs e he).attempts, fun hunpublished _ => ⟨a, ha, hevent, ?_⟩⟩
    cases hcompletion : p.status with
    | published => simp [QueuedEvent.complete, hcompletion] at hunpublished
    | retrying => exact .inl (by rw [hstatus, hcompletion]; rfl)
    | dead => exact .inr (by rw [hstatus, hcompletion]; rfl)

/-- Every call leaves every event with its evidence. -/
theorem QueueCall.exec_evidenced {r : List StampedEvent} (h : c.exec s = .ok (r, s'))
    (hs : ∀ e ∈ s.events, e.Evidenced s) : ∀ e' ∈ s'.events, e'.Evidenced s' := by
  by_cases hcall : ∃ sess f p clock, c = .complete sess f p clock
  · obtain ⟨sess, f, p, clock, rfl⟩ := hcall
    obtain ⟨r', s₁, hcomplete, hpure⟩ := Txn.bind_ok.mp h
    obtain ⟨-, rfl⟩ := Txn.pure_ok.mp hpure
    exact complete_evidenced hcomplete hs
  · push Not at hcall
    intro e' he'
    have hfind := Table.find?_eq_some.mpr ⟨he', rfl⟩
    have hstep := (QueueCall.exec_step h).1
    have hkept : ∀ b ∈ s.attempts, b.status ≠ .claimed → b ∈ s'.attempts := fun b hb hsettled =>
      QueueCall.exec_settled h hb hsettled
    rcases hold : s.events.find? e'.id with _ | e
    · obtain ⟨app, n, stamped, -, rfl⟩ := hstep.new _ _ hold hfind
      exact ⟨le_refl _, fun _ hevidence => by simp [NewEvent.row] at hevidence⟩
    · obtain ⟨x, hx, hxstep⟩ := hstep.step _ e hold
      obtain rfl := Option.some.inj (hx.symm.trans hfind)
      exact (hxstep.evidenced hcall (hs e (Table.mem_of_find? hold))).mono hkept

/-- Every history keeps the events with that evidence. -/
theorem run_evidenced (cs : List QueueCall) (hs : ∀ e ∈ s.events, e.Evidenced s) :
    ∀ e ∈ (run QueueCall.exec cs s).events, e.Evidenced (run QueueCall.exec cs s) :=
  run_invariant (I := fun t : QueueDb => ∀ e ∈ t.events, e.Evidenced t)
    (fun _ _ _ _ h hI => QueueCall.exec_evidenced h hI) cs hs

end Steps

/-! ## Which events all views agree on -/

/-- The two ways to take an event for retried differ on the open events that were claimed and have
no error code. -/
theorem evidenceState_eq_relationshipState_iff {e : QueuedEvent} :
    e.evidenceState = e.relationshipState ↔
      e.publishedAt ≠ none ∨ e.deadAt ≠ none ∨ e.lastErrorCode ≠ none ∨ ¬0 < e.attemptCount := by
  unfold QueuedEvent.evidenceState QueuedEvent.relationshipState QueuedEvent.stateBy
  by_cases hpublished : e.publishedAt = none
  · by_cases hdead : e.deadAt = none
    · by_cases herror : e.lastErrorCode = none <;> by_cases hcount : 0 < e.attemptCount <;>
        simp [hpublished, hdead, herror, hcount]
    · simp [hpublished, hdead]
  · simp [hpublished]

/-- After every history, all views show one and the same state of an event, and show it as retrying
only after a failed attempt, exactly when the event is published or dead, or was not claimed since
it was inserted or reopened, or has an error code. -/
theorem views_agree_iff (s : QueueDb) (hevents : s.events.rows = []) (cs : List QueueCall)
    (e : QueuedEvent) (he : e ∈ (run QueueCall.exec cs s).events) :
    (∃ st : EventState, (∀ v : EventView, v.shown e = st.text) ∧
      (st = .retrying → (run QueueCall.exec cs s).HasFailed e.id)) ↔
    e.publishedAt ≠ none ∨ e.deadAt ≠ none ∨ e.attemptCount = 0 ∨ e.lastErrorCode ≠ none := by
  have hempty : ∀ x ∈ s.events, x.Evidenced s := by
    intro x hx
    rw [Table.mem_def, hevents] at hx
    cases hx
  have hevidence := run_evidenced cs hempty e he
  have hcount : ¬0 < e.attemptCount ↔ e.attemptCount = 0 := by
    have := hevidence.attempts
    omega
  constructor
  · rintro ⟨st, hshown, -⟩
    obtain ⟨hst, hst'⟩ := shown_iff.mp hshown
    rcases evidenceState_eq_relationshipState_iff.mp (hst.trans hst'.symm) with h | h | h | h
    · exact .inl h
    · exact .inr (.inl h)
    · exact .inr (.inr (.inr h))
    · exact .inr (.inr (.inl (hcount.mp h)))
  · intro h
    have hagree : e.evidenceState = e.relationshipState := by
      refine evidenceState_eq_relationshipState_iff.mpr ?_
      rcases h with h | h | h | h
      · exact .inl h
      · exact .inr (.inl h)
      · exact .inr (.inr (.inr (hcount.mpr h)))
      · exact .inr (.inr (.inl h))
    refine ⟨e.evidenceState, shown_iff.mpr ⟨rfl, hagree.symm⟩, fun hretrying => ?_⟩
    -- An event that is shown as retrying is open and has an error code.
    unfold QueuedEvent.evidenceState QueuedEvent.stateBy at hretrying
    split_ifs at hretrying with hpublished hdead herror
    exact hevidence.failed (not_not.mp hpublished) (.inr (of_decide_eq_true herror).1)

namespace Sample

/-- An event is inserted and claimed for the first time. -/
def firstClaim : List QueueCall := queueCalls.take 2

/-- The event under its first claim. -/
def claimedEvent : QueuedEvent where
  id := uuid 7
  tenantId := uuid 1
  availableAt := 0
  createdAt := 0
  attemptCount := 1
  publishedAt := none
  deadAt := none
  lastErrorCode := none
  claimOwner := some "first"
  claimedUntil := some 1001
  claimGeneration := 1
  nodeId := some "ledgersync/api/1"
  logicalTimestamp := some ⟨1, by decide⟩
  parentReference := none

end Sample

/-- An event under its first claim is pending in the list of events, and retrying among the
relationships of its account, and none of its attempts has failed. -/
theorem first_claim_shown_differently :
    Sample.claimedEvent ∈ (run QueueCall.exec Sample.firstClaim Sample.queue).events ∧
    EventView.listEvents.shown Sample.claimedEvent = "pending" ∧
    EventView.accountRelationships.shown Sample.claimedEvent = "retrying" ∧
    ¬(run QueueCall.exec Sample.firstClaim Sample.queue).HasFailed Sample.claimedEvent.id ∧
    ¬∃ st : EventState, ∀ v : EventView, v.shown Sample.claimedEvent = st.text := by
  -- The run is evaluated once; what follows reads its two tables.
  have hrun : (run QueueCall.exec Sample.firstClaim Sample.queue).events.rows =
      [Sample.claimedEvent] ∧
    (run QueueCall.exec Sample.firstClaim Sample.queue).attempts.rows.map
      PublicationAttempt.status = [.claimed] := by decide +kernel
  have hdiffer : Sample.claimedEvent.evidenceState ≠ Sample.claimedEvent.relationshipState := by
    decide
  refine ⟨?_, by decide, by decide, ?_, ?_⟩
  · rw [Table.mem_def, hrun.1]
    exact List.mem_singleton_self _
  -- The single attempt is claimed, so that none has failed.
  · rintro ⟨a, ha, -, hfailed⟩
    have hstatus : a.status ∈ [AttemptStatus.claimed] := hrun.2 ▸ List.mem_map_of_mem ha
    have hclaimed : a.status = .claimed := List.mem_singleton.mp hstatus
    rcases hfailed with hretrying | hdead
    · rw [hclaimed] at hretrying
      cases hretrying
    · rw [hclaimed] at hdead
      cases hdead
  · rintro ⟨st, hshown⟩
    obtain ⟨hst, hst'⟩ := shown_iff.mp hshown
    exact hdiffer (hst.trans hst'.symm)

/-- All views agree on the event before it is claimed. -/
theorem new_event_shown_alike :
    ∃ e ∈ (run QueueCall.exec (Sample.queueCalls.take 1) Sample.queue).events,
      ∃ st : EventState, (∀ v : EventView, v.shown e = st.text) ∧ (st = .retrying →
        (run QueueCall.exec (Sample.queueCalls.take 1) Sample.queue).HasFailed e.id) := by
  have hrun : (run QueueCall.exec (Sample.queueCalls.take 1) Sample.queue).events.rows.any
      (fun e => e.attemptCount = 0) = true := by decide +kernel
  obtain ⟨e, he, hcount⟩ := List.any_eq_true.mp hrun
  have hcount' : e.attemptCount = 0 := of_decide_eq_true hcount
  exact ⟨e, he, (views_agree_iff Sample.queue rfl (Sample.queueCalls.take 1) e he).mpr
    (.inr (.inr (.inl hcount')))⟩

end LedgerSync
