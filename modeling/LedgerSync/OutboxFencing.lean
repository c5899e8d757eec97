import LedgerSync.Outbox

/-!
# Fencing of outbox publications

What each call can do to an event of the outbox is said once (`QueuedEvent.Step`): it is claimed
while it is open, renewed and completed under its live claim, and reopened when it is dead. A
generation therefore belongs to one claim, a worker whose claim has lapsed or has been taken over
changes nothing, a published event never changes again, and every claim gets an attempt that none
had before (`outbox_fencing`).
-/

namespace LedgerSync

open Lib

/-! ## One call -/

/-- What a call does to one event. -/
inductive QueuedEvent.Step (c : QueueCall) (e : QueuedEvent) : QueuedEvent → Prop
  | same : Step c e e
  | claimed {p : OutboxClaim} (call : c = .claim p) (candidate : p.Candidate e) :
      Step c e (e.claim p)
  | renewed {sess : Session} {f : ClaimFence} {lease : ℤ} {clock : LeaseClock}
      (call : c = .renew sess f lease clock) (held : e.HeldBy f clock.check) :
      Step c e (e.renew (clock.set + lease))
  | completed {sess : Session} {f : ClaimFence} {p : OutboxCompletion} {clock : CompletionClock}
      (call : c = .complete sess f p clock) (held : e.HeldBy f clock.check) :
      Step c e (e.complete p clock.terminal)
  | reopened {sess : Session} {p : RecoveryRequest} (call : c = .execute sess p)
      (dead : e.IsDead p.tenant) : Step c e (e.reopen p.time)

/-- Every event takes a step, and what is new is a new event. -/
structure EventsStep (c : QueueCall) (t t' : Table QueuedEvent.id) : Prop where
  step : ∀ i e, t.find? i = some e → ∃ e', t'.find? i = some e' ∧ e.Step c e'
  new : ∀ i e', t.find? i = none → t'.find? i = some e' →
    ∃ app n stamped, c = .insert app n ∧ e' = n.row stamped

/-- Every attempt stays with its worker, and what is new is the attempt of a claimed event. -/
structure AttemptsStep (c : QueueCall) (s s' : QueueDb) : Prop where
  kept : ∀ k a, s.attempts.find? k = some a →
    ∃ a', s'.attempts.find? k = some a' ∧ a'.workerId = a.workerId
  new : ∀ a' ∈ s'.attempts, (∃ a ∈ s.attempts, a.key = a'.key) ∨
    ∃ p e, c = .claim p ∧ s'.events.find? e.id = some (e.claim p) ∧ a' = claimedAttempt p e

section Steps

variable {c : QueueCall} {s s' : QueueDb}

/-- Events that stay are a step. -/
theorem EventsStep.of_eq {t t' : Table QueuedEvent.id} (h : t' = t) : EventsStep c t t' where
  step i e he := ⟨e, h ▸ he, .same⟩
  new i e' hnone he' := by
    rw [h, hnone] at he'
    cases he'

/-- An event that is replaced by one step of it is a step. -/
theorem EventsStep.replace {t : Table QueuedEvent.id} {i : Uuid} {e e' : QueuedEvent}
    (hfind : t.find? i = some e) (hid : e'.id = e.id) (hstep : e.Step c e') :
    EventsStep c t (t.replace e') where
  step j x hx := by
    have hkey : e.id = i := Table.key_of_find? hfind
    rw [Table.find?_replace]
    split_ifs with hj
    · rw [hj, hid, hkey, hfind] at hx
      cases hx
      exact ⟨e', by rw [hj, hid, hkey, hfind]; rfl, hstep⟩
    · exact ⟨x, hx, .same⟩
  new j x hnone hx := by
    rw [Table.find?_replace] at hx
    split_ifs at hx with hj
    · rw [hnone] at hx
      cases hx
    · rw [hnone] at hx
      cases hx

/-- Attempts that stay are a step. -/
theorem AttemptsStep.of_eq (h : s'.attempts = s.attempts) : AttemptsStep c s s' where
  kept _ a ha := ⟨a, h ▸ ha, rfl⟩
  new a ha := .inl ⟨a, h ▸ ha, rfl⟩

/-- An attempt that is replaced by one of its key and worker is a step. -/
theorem AttemptsStep.replace {k : Uuid × ℤ} {a a' : PublicationAttempt}
    (hfind : s.attempts.find? k = some a) (hkey : a'.key = a.key) (hworker : a'.workerId = a.workerId)
    (h : s'.attempts = s.attempts.replace a') : AttemptsStep c s s' where
  kept j x hx := by
    have hk : a.key = k := Table.key_of_find? hfind
    rw [h, Table.find?_replace]
    split_ifs with hj
    · rw [hj, hkey, hk, hfind] at hx
      cases hx
      exact ⟨a', by rw [hj, hkey, hk, hfind]; rfl, hworker⟩
    · exact ⟨x, hx, rfl⟩
  new x hx := by
    rw [h] at hx
    rcases Table.mem_replace hx with rfl | ⟨hold, -⟩
    · exact .inl ⟨a, Table.mem_of_find? hfind, hkey.symm⟩
    · exact .inl ⟨x, hold, rfl⟩

/-- A claim gives its candidates new generations and new attempts. -/
theorem claim_step {p : OutboxClaim} {r : List QueuedEvent}
    (h : controlledClaimOutboxV1 p s = .ok (r, s')) :
    EventsStep (.claim p) s.events s'.events ∧ AttemptsStep (.claim p) s s' := by
  obtain ⟨-, hevents, hattempts, -⟩ := controlledClaimOutboxV1_ok h
  refine ⟨⟨fun i e he => ?_, fun i e' hnone he' => ?_⟩, ⟨fun k a ha => ?_, fun a' ha' => ?_⟩⟩
  · rw [hevents, he, Option.map_some]
    split_ifs with hselected
    · exact ⟨_, rfl, .claimed rfl (OutboxClaim.candidate_of_selected hselected).2⟩
    · exact ⟨e, rfl, .same⟩
  · rw [hevents, hnone] at he'
    cases he'
  · have hmem := (Table.mem_insertAll? hattempts).mpr (.inr (Table.mem_of_find? ha))
    exact ⟨a, Table.find?_eq_some.mpr ⟨hmem, Table.key_of_find? ha⟩, rfl⟩
  · rcases (Table.mem_insertAll? hattempts).mp ha' with hnew | hold
    · obtain ⟨e, he, rfl⟩ := List.mem_map.mp hnew
      refine .inr ⟨p, e, rfl, ?_, rfl⟩
      have hfind := Table.find?_eq_some.mpr ⟨(OutboxClaim.candidate_of_selected he).1, rfl⟩
      rw [hevents, hfind, Option.map_some, if_pos he]
    · exact .inl ⟨a', hold, rfl⟩

/-- A renewal or a completion takes the step of its event under the live claim. -/
theorem underClaim_step {sess : Session} {f : ClaimFence} {resolve check : Instant}
    {event : QueuedEvent → QueuedEvent} {attempt : PublicationAttempt → PublicationAttempt} {r : Bool}
    (h : underClaim sess f resolve check event attempt s = .ok (r, s'))
    (hid : ∀ e, (event e).id = e.id)
    (hstep : ∀ e : QueuedEvent, e.HeldBy f check → e.Step c (event e))
    (hkey : ∀ a, (attempt a).key = a.key) (hworker : ∀ a, (attempt a).workerId = a.workerId) :
    EventsStep c s.events s'.events ∧ AttemptsStep c s s' := by
  rcases underClaim_ok h with ⟨-, rfl⟩ | ⟨-, e, a, -, hcheck, ha, rfl⟩
  · exact ⟨.of_eq rfl, .of_eq rfl⟩
  · obtain ⟨hfind, hheld⟩ := held?_eq_some.mp hcheck
    have hattempt := (Option.filter_eq_some_iff.mp ha).1
    exact ⟨.replace hfind (hid e) (hstep e hheld), .replace hattempt (hkey a) (hworker a) rfl⟩

/-- A batch that is received leaves events and attempts. -/
theorem receiveTenantBatch_frame {sess : Session} {node : String} {ms : List ReceivedMessage}
    {r : List StampedEvent} (h : receiveTenantBatch sess node ms s = .ok (r, s')) :
    s'.events = s.events ∧ s'.attempts = s.attempts := by
  induction ms generalizing s r with
  | nil =>
    obtain ⟨-, rfl⟩ := Txn.pure_ok.mp h
    exact ⟨rfl, rfl⟩
  | cons m ms ih =>
    obtain ⟨e, s₁, hm, hrest⟩ := Txn.bind_ok.mp h
    obtain ⟨es, s₂, hms, hpure⟩ := Txn.bind_ok.mp hrest
    obtain ⟨-, rfl⟩ := Txn.pure_ok.mp hpure
    obtain ⟨received, s₀, t, hadvance, -, rfl, -⟩ := controlledReceiveMessageV1_ok hm
    obtain ⟨-, -, -, hframe⟩ := advanceLogicalClock_ok hadvance
    obtain ⟨hevents, hattempts⟩ := ih hms
    exact ⟨hevents.trans (by rw [hframe]), hattempts.trans (by rw [hframe])⟩

/-- What a returning call did to the events and the attempts. -/
theorem QueueCall.exec_step {r : List StampedEvent} (h : c.exec s = .ok (r, s')) :
    EventsStep c s.events s'.events ∧ AttemptsStep c s s' := by
  -- Each procedure has its lemma above; what is left is what it does to the two tables.
  cases c with
  | insert app e =>
    obtain ⟨stamped, hinsert, hattempts, -, -⟩ := insertQueued_ok h
    refine ⟨⟨fun i x hx => ⟨x, Table.find?_insert?_of_some hinsert hx, .same⟩,
      fun i x hnone hx => ?_⟩, .of_eq hattempts⟩
    rw [Table.find?_insert? hinsert] at hx
    split_ifs at hx with hi
    -- The new event has no earlier state.
    · cases hx
      exact ⟨app, e, stamped, rfl, rfl⟩
    · rw [hnone] at hx
      cases hx
  | claim p =>
    obtain ⟨r', s₁, hclaim, hpure⟩ := Txn.bind_ok.mp h
    obtain ⟨-, rfl⟩ := Txn.pure_ok.mp hpure
    exact claim_step hclaim
  | renew sess f lease clock =>
    obtain ⟨r', s₁, hrenew, hpure⟩ := Txn.bind_ok.mp h
    obtain ⟨-, rfl⟩ := Txn.pure_ok.mp hpure
    exact underClaim_step (controlledRenewClaimV1_ok hrenew) (fun _ => rfl)
      (fun _ hheld => .renewed rfl hheld) (fun _ => rfl) (fun _ => rfl)
  | prepare sess f node now =>
    rcases controlledPreparePublicationV1_ok h with ⟨-, rfl⟩ |
        ⟨e, a, received, sent, s₁, -, hreceived, hsent, ha, hattempts, -⟩
    · exact ⟨.of_eq rfl, .of_eq rfl⟩
    -- The two advances of the clock leave the events alone.
    · obtain ⟨-, -, -, hframe₁⟩ := advanceLogicalClock_ok hreceived
      obtain ⟨-, -, -, hframe₂⟩ := advanceLogicalClock_ok hsent
      have hevents : s'.events = s.events := by
        have hmid : s'.events = s₁.events := (congrArg QueueDb.events hframe₂ :)
        rw [hmid, hframe₁]
      refine ⟨.of_eq hevents, ?_⟩
      exact AttemptsStep.replace (Option.filter_eq_some_iff.mp ha).1 (by rfl) (by rfl) hattempts
  | complete sess f p clock =>
    obtain ⟨r', s₁, hcomplete, hpure⟩ := Txn.bind_ok.mp h
    obtain ⟨-, rfl⟩ := Txn.pure_ok.mp hpure
    exact underClaim_step (controlledCompleteOutboxV1_ok hcomplete) (fun _ => rfl)
      (fun _ hheld => .completed rfl hheld) (fun _ => rfl) (fun _ => rfl)
  | approve sess p =>
    obtain ⟨u, s₁, happrove, hpure⟩ := Txn.bind_ok.mp h
    obtain ⟨-, rfl⟩ := Txn.pure_ok.mp hpure
    have hframe := approveOutboxRecovery_ok happrove
    exact ⟨.of_eq (by rw [hframe]), .of_eq (by rw [hframe])⟩
  | execute sess p =>
    obtain ⟨u, s₁, hexecute, hpure⟩ := Txn.bind_ok.mp h
    obtain ⟨-, rfl⟩ := Txn.pure_ok.mp hpure
    obtain ⟨e, hfind, hdead, hframe⟩ := executeOutboxRecovery_ok hexecute
    refine ⟨?_, .of_eq (by rw [hframe])⟩
    rw [hframe]
    exact .replace hfind rfl (.reopened rfl hdead)
  | receive sess node messages =>
    obtain ⟨hevents, hattempts⟩ := receiveTenantBatch_frame h
    exact ⟨.of_eq hevents, .of_eq hattempts⟩
  | advance node received =>
    obtain ⟨stamp, s₁, hadvance, hpure⟩ := Txn.bind_ok.mp h
    obtain ⟨-, rfl⟩ := Txn.pure_ok.mp hpure
    obtain ⟨-, -, -, hframe⟩ := advanceLogicalClock_ok hadvance
    exact ⟨.of_eq (by rw [hframe]), .of_eq (by rw [hframe])⟩
  | configure roles =>
    simp only [QueueCall.exec, Txn.get_bind_ok, Txn.set_bind_ok, Txn.pure_ok] at h
    obtain ⟨-, rfl⟩ := h
    exact ⟨.of_eq rfl, .of_eq rfl⟩

end Steps

/-! ## What a step leaves -/

section Rows

variable {c : QueueCall} {e e' : QueuedEvent}

/-- A step keeps the identifier of an event. -/
theorem QueuedEvent.Step.id (h : e.Step c e') : e'.id = e.id := by
  cases h <;> rfl

/-- The generation of an event never falls. -/
theorem QueuedEvent.Step.generation (h : e.Step c e') : e.claimGeneration ≤ e'.claimGeneration := by
  cases h with
  | claimed =>
    change e.claimGeneration ≤ e.claimGeneration + 1
    omega
  | _ => exact le_refl _

/-- A published event never changes. -/
theorem QueuedEvent.Step.published (h : e.Step c e') {now : Instant}
    (hpublished : e.publishedAt = some now) : e' = e := by
  have hopen : e.publishedAt ≠ none := by simp [hpublished]
  cases h with
  | same => rfl
  | claimed _ candidate => exact absurd candidate.1 hopen
  | renewed _ held => exact absurd held.2.2.2.1 hopen
  | completed _ held => exact absurd held.2.2.2.1 hopen
  | reopened _ dead => exact absurd dead.2.2 hopen

/-- The two checks of the table: an event is not published and dead, and a claim has an owner
exactly when it has an end. -/
structure QueuedEvent.Sound (e : QueuedEvent) : Prop where
  terminal : e.publishedAt = none ∨ e.deadAt = none
  paired : e.claimOwner = none ↔ e.claimedUntil = none

/-- A step keeps an event sound. -/
theorem QueuedEvent.Step.sound (h : e.Step c e') (he : e.Sound) : e'.Sound := by
  cases h with
  | same => exact he
  | claimed => exact ⟨he.terminal, by simp [QueuedEvent.claim]⟩
  | renewed _ held => exact ⟨he.terminal, by simp [QueuedEvent.renew, held.1]⟩
  | @completed _ _ p _ _ held =>
    obtain ⟨-, -, -, hpublished, hdead⟩ := held
    refine ⟨?_, by simp [QueuedEvent.complete]⟩
    cases hstatus : p.status <;> simp [QueuedEvent.complete, hstatus, hpublished, hdead]
  | reopened => exact ⟨.inr rfl, by simp [QueuedEvent.reopen]⟩

end Rows

/-! ## Every history -/

/-- What holds of the queue in every history. -/
structure Fenced (s : QueueDb) : Prop where
  sound : ∀ e ∈ s.events, e.Sound
  /-- No attempt is ahead of its event. -/
  attempts : ∀ a ∈ s.attempts, ∃ e, s.events.find? a.eventId = some e ∧
    a.claimGeneration ≤ e.claimGeneration

section Histories

variable {c : QueueCall} {s s' : QueueDb}

/-- A step of both keeps the queue fenced. -/
theorem Fenced.step (hs : Fenced s) (he : EventsStep c s.events s'.events)
    (ha : AttemptsStep c s s') : Fenced s' where
  sound e' he' := by
    have hfind := Table.find?_eq_some.mpr ⟨he', rfl⟩
    rcases hold : s.events.find? e'.id with _ | e
    · obtain ⟨app, n, stamped, -, rfl⟩ := he.new _ _ hold hfind
      exact ⟨.inl rfl, by simp [NewEvent.row]⟩
    · obtain ⟨x, hx, hstep⟩ := he.step _ e hold
      obtain rfl := Option.some.inj (hx.symm.trans hfind)
      exact hstep.sound (hs.sound e (Table.mem_of_find? hold))
  attempts a' ha' := by
    rcases ha.new a' ha' with ⟨a, hmem, hkey⟩ | ⟨p, e, -, hclaimed, rfl⟩
    · obtain ⟨e, hfind, hle⟩ := hs.attempts a hmem
      obtain ⟨e', hfind', hstep⟩ := he.step _ e hfind
      have hevent : a.eventId = a'.eventId := congrArg Prod.fst hkey
      have hgeneration : a.claimGeneration = a'.claimGeneration := congrArg Prod.snd hkey
      exact ⟨e', hevent ▸ hfind', hgeneration ▸ hle.trans hstep.generation⟩
    · exact ⟨e.claim p, hclaimed, le_refl _⟩

/-- A queue without events and attempts is fenced. -/
theorem QueueDb.fenced_of_empty (hevents : s.events.rows = []) (hattempts : s.attempts.rows = []) :
    Fenced s where
  sound e he := by
    rw [Table.mem_def, hevents] at he
    cases he
  attempts a ha := by
    rw [Table.mem_def, hattempts] at ha
    cases ha

/-- Every history keeps the queue fenced. -/
theorem run_fenced (cs : List QueueCall) (hs : Fenced s) : Fenced (run QueueCall.exec cs s) :=
  run_invariant (fun _ _ _ _ h hI =>
    have hstep := QueueCall.exec_step h
    hI.step hstep.1 hstep.2) cs hs

/-- Over any number of calls the generation of an event never falls, and a published event stays as
it is. -/
theorem run_event (cs : List QueueCall) {i : Uuid} {e : QueuedEvent}
    (he : s.events.find? i = some e) :
    ∃ e', (run QueueCall.exec cs s).events.find? i = some e' ∧
      e.claimGeneration ≤ e'.claimGeneration ∧ (e.publishedAt ≠ none → e' = e) := by
  refine run_invariant (I := fun t : QueueDb => ∃ e', t.events.find? i = some e' ∧
    e.claimGeneration ≤ e'.claimGeneration ∧ (e.publishedAt ≠ none → e' = e))
    (fun c t r t' h => ?_) cs ⟨e, he, le_refl _, fun _ => rfl⟩
  rintro ⟨e₁, he₁, hle, hsame⟩
  obtain ⟨e₂, he₂, hstep⟩ := (QueueCall.exec_step h).1.step i e₁ he₁
  refine ⟨e₂, he₂, hle.trans hstep.generation, fun hpublished => ?_⟩
  obtain ⟨now, hnow⟩ := Option.ne_none_iff_exists'.mp hpublished
  rw [hsame hpublished] at hstep
  exact hstep.published hnow

/-- An attempt stays with its worker. -/
theorem run_attempt (cs : List QueueCall) {k : Uuid × ℤ} {a : PublicationAttempt}
    (ha : s.attempts.find? k = some a) :
    ∃ a', (run QueueCall.exec cs s).attempts.find? k = some a' ∧ a'.workerId = a.workerId := by
  refine run_invariant (I := fun t : QueueDb => ∃ a', t.attempts.find? k = some a' ∧
    a'.workerId = a.workerId) (fun c t r t' h => ?_) cs ⟨a, ha, rfl⟩
  rintro ⟨a₁, ha₁, hworker⟩
  obtain ⟨a₂, ha₂, hworker'⟩ := (QueueCall.exec_step h).2.kept k a₁ ha₁
  exact ⟨a₂, ha₂, hworker'.trans hworker⟩

/-- The events that a claim takes get attempts that no claim had before. -/
theorem Fenced.claim_fresh (hs : Fenced s) (p : OutboxClaim) :
    ∃ t, s.attempts.insertAll? ((p.selected s).map (claimedAttempt p)) = some t := by
  refine Table.exists_insertAll? (fun a ha => ?_) ?_
  -- The new generation is one more than any attempt of the event has.
  · obtain ⟨e, he, rfl⟩ := List.mem_map.mp ha
    rw [Table.find?_eq_none]
    intro a' ha' hkey
    obtain ⟨x, hx, hle⟩ := hs.attempts a' ha'
    have hevent : a'.eventId = e.id := congrArg Prod.fst hkey
    have hgeneration : a'.claimGeneration = e.claimGeneration + 1 := congrArg Prod.snd hkey
    have hfind := Table.find?_eq_some.mpr ⟨(OutboxClaim.candidate_of_selected he).1, rfl⟩
    rw [hevent, hfind] at hx
    cases hx
    omega
  · -- The keys start with the events, and no event is taken twice.
    have hsub : ((p.selected s).map QueuedEvent.id).Nodup := by
      have hperm := (List.mergeSort_perm (s.events.rows.filter p.Candidate) QueuedEvent.before)
      have hnodup : ((s.events.rows.filter p.Candidate).map QueuedEvent.id).Nodup :=
        s.events.nodup.sublist (List.filter_sublist.map _)
      have hsorted := (hperm.map QueuedEvent.id).nodup_iff.mpr hnodup
      exact hsorted.sublist ((List.take_sublist _ _).map _)
    rw [List.map_map]
    refine List.Nodup.of_map Prod.fst ?_
    rw [List.map_map]
    exact hsub

/-- A renewal or a completion without the live claim changes nothing. -/
theorem underClaim_stale {sess : Session} {f : ClaimFence} {resolve check : Instant}
    {event : QueuedEvent → QueuedEvent} {attempt : PublicationAttempt → PublicationAttempt} {r : Bool}
    (h : underClaim sess f resolve check event attempt s = .ok (r, s'))
    (hstale : s.held? f check = none) : s' = s := by
  rcases underClaim_ok h with ⟨-, rfl⟩ | ⟨-, e, a, -, hcheck, -⟩
  · rfl
  · rw [hstale] at hcheck
    cases hcheck

end Histories

/-- After every history of claims, renewals, preparations, completions and recoveries, with any
clock readings: a claim raises the generation of every event that it takes, and no call lowers one;
a renewal or a completion that succeeds was made under the live claim of its fence, and one without
it changes nothing; no event is published and dead, and a published event never changes again; and
attempts are told apart by event and generation, stay with their workers, and never clash with those
of a new claim. -/
theorem outbox_fencing (s : QueueDb) (hevents : s.events.rows = []) (hattempts : s.attempts.rows = [])
    (cs : List QueueCall) :
    (∀ p r t, controlledClaimOutboxV1 p (run QueueCall.exec cs s) = .ok (r, t) → ∀ e' ∈ r,
      t.events.find? e'.id = some e' ∧ ∃ e, (run QueueCall.exec cs s).events.find? e'.id = some e ∧
        e'.claimGeneration = e.claimGeneration + 1) ∧
    (∀ later i e, (run QueueCall.exec cs s).events.find? i = some e →
      ∃ e', (run QueueCall.exec (cs ++ later) s).events.find? i = some e' ∧
        e.claimGeneration ≤ e'.claimGeneration ∧ (e.publishedAt ≠ none → e' = e)) ∧
    (∀ sess f lease clock t,
      controlledRenewClaimV1 sess f lease clock (run QueueCall.exec cs s) = .ok (true, t) →
      ∃ e, (run QueueCall.exec cs s).events.find? f.event = some e ∧ e.HeldBy f clock.check) ∧
    (∀ sess f p clock t,
      controlledCompleteOutboxV1 sess f p clock (run QueueCall.exec cs s) = .ok (true, t) →
      ∃ e, (run QueueCall.exec cs s).events.find? f.event = some e ∧ e.HeldBy f clock.check) ∧
    (∀ sess f lease clock, (run QueueCall.exec cs s).held? f clock.check = none →
      commit (controlledRenewClaimV1 sess f lease clock) (run QueueCall.exec cs s) =
        run QueueCall.exec cs s) ∧
    (∀ sess f p clock, (run QueueCall.exec cs s).held? f clock.check = none →
      commit (controlledCompleteOutboxV1 sess f p clock) (run QueueCall.exec cs s) =
        run QueueCall.exec cs s) ∧
    (∀ e ∈ (run QueueCall.exec cs s).events, e.publishedAt = none ∨ e.deadAt = none) ∧
    (∀ a ∈ (run QueueCall.exec cs s).attempts, ∀ b ∈ (run QueueCall.exec cs s).attempts,
      a.eventId = b.eventId → a.claimGeneration = b.claimGeneration → a = b) ∧
    (∀ later k a, (run QueueCall.exec cs s).attempts.find? k = some a →
      ∃ a', (run QueueCall.exec (cs ++ later) s).attempts.find? k = some a' ∧
        a'.workerId = a.workerId) ∧
    ∀ p : OutboxClaim, ∃ t, (run QueueCall.exec cs s).attempts.insertAll?
      ((p.selected (run QueueCall.exec cs s)).map (claimedAttempt p)) = some t := by
  have hfenced := run_fenced cs (QueueDb.fenced_of_empty hevents hattempts)
  refine ⟨?_, ?_, ?_, ?_, ?_, ?_, ?_, ?_, ?_, hfenced.claim_fresh⟩
  -- A claim raises the generation of what it takes by one.
  · intro p r t h e' he'
    obtain ⟨rfl, hfind, -, -⟩ := controlledClaimOutboxV1_ok h
    obtain ⟨e, he, rfl⟩ := List.mem_map.mp he'
    have hold := Table.find?_eq_some.mpr ⟨(OutboxClaim.candidate_of_selected he).1, rfl⟩
    refine ⟨?_, e, hold, rfl⟩
    rw [show (e.claim p).id = e.id from rfl, hfind, hold, Option.map_some, if_pos he]
  · intro later i e he
    rw [run_append]
    exact run_event later he
  -- A renewal that returns true has found the claim held.
  · intro sess f lease clock t h
    rcases underClaim_ok (controlledRenewClaimV1_ok h) with ⟨hfalse, -⟩ | ⟨-, e, _, -, hcheck, -⟩
    · cases hfalse
    · exact ⟨e, held?_eq_some.mp hcheck⟩
  · intro sess f p clock t h
    rcases underClaim_ok (controlledCompleteOutboxV1_ok h) with ⟨hfalse, -⟩ | ⟨-, e, _, -, hcheck, -⟩
    · cases hfalse
    · exact ⟨e, held?_eq_some.mp hcheck⟩
  -- A stale claim changes nothing.
  · intro sess f lease clock hstale
    rcases commit_cases (controlledRenewClaimV1 sess f lease clock) (run QueueCall.exec cs s) with
      h | ⟨r, h⟩
    · exact h
    · exact underClaim_stale (controlledRenewClaimV1_ok h) hstale
  · intro sess f p clock hstale
    rcases commit_cases (controlledCompleteOutboxV1 sess f p clock) (run QueueCall.exec cs s) with
      h | ⟨r, h⟩
    · exact h
    · exact underClaim_stale (controlledCompleteOutboxV1_ok h) hstale
  · exact fun e he => (hfenced.sound e he).terminal
  -- Event and generation are the key of an attempt.
  · intro a ha b hb hevent hgeneration
    exact Table.eq_of_key ha hb (Prod.ext hevent hgeneration)
  · intro later k a ha
    rw [run_append]
    exact run_attempt later ha

namespace Sample

/-- A queue without events. -/
def queue : QueueDb := ⟨[], .empty, .empty, .empty, .empty, .empty⟩

/-- An event is inserted, a worker claims it, and a second worker claims it after the lease. -/
def queueCalls : List QueueCall :=
  [.insert "ledgersync/api/1" ⟨uuid 7, uuid 1, none, 0⟩,
    .claim ⟨10, "first", 1000, fun _ => 1, fun _ => 1, fun _ => 1, []⟩,
    .claim ⟨10, "second", 1000, fun _ => 2000, fun _ => 2000, fun _ => 2000, []⟩]

/-- The fence of the first worker. -/
def staleFence : ClaimFence := ⟨uuid 7, "first", 1⟩

end Sample

/-- Two workers claim one event: the first finds that its completion changes nothing. -/
theorem outbox_fencing_sample :
    (∃ e ∈ (run QueueCall.exec Sample.queueCalls Sample.queue).events, e.claimGeneration = 2) ∧
    ∀ sess p clock, clock.check = 2001 →
      commit (controlledCompleteOutboxV1 sess Sample.staleFence p clock)
        (run QueueCall.exec Sample.queueCalls Sample.queue) =
      run QueueCall.exec Sample.queueCalls Sample.queue := by
  have hclaimed : (run QueueCall.exec Sample.queueCalls Sample.queue).events.rows.any
      (fun e => e.claimGeneration = 2) = true := by decide +kernel
  have hstale : (run QueueCall.exec Sample.queueCalls Sample.queue).held? Sample.staleFence 2001 =
      none := by decide +kernel
  obtain ⟨e, he, hgeneration⟩ := List.any_eq_true.mp hclaimed
  obtain ⟨-, -, -, -, -, hcomplete, -⟩ :=
    outbox_fencing Sample.queue rfl rfl Sample.queueCalls
  refine ⟨⟨e, he, of_decide_eq_true hgeneration⟩, fun sess p clock hclock => ?_⟩
  exact hcomplete sess _ p clock (by rw [hclock]; exact hstale)

end LedgerSync
