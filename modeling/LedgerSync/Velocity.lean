import LedgerSync.Lib.RollingWindow
import LedgerSync.HoldLifecycle

/-!
# Rolling velocity of transfers

A submission keeps the totals of its tenant, its actor and its source incrementally: it deducts the
events that have expired for it, checks the three limits, and adds its own amount. This module
shows that the totals are always the sums of the stored events (`velocity_totals_agree`), and says
what the limits are worth: expiry is judged by the time that the caller brings, so a caller with an
earlier time can miss events that a caller with a later time has deleted (`limit_exceeded`). The
rolling limits hold along every history in which that never happens (`rolling_limit`).
-/

namespace LedgerSync

open Lib

/-! ## Totals and events -/

/-- The total under a key; a missing row counts zero. -/
def totalAt (t : Table VelocityTotal.key) (k : Uuid × Dimension × String) : ℤ :=
  ((t.find? k).map VelocityTotal.total).getD 0

/-- What the stored events of a reference add up to. -/
def Db.spent (s : Db) (tenant : Uuid) (dim : Dimension) (ref : String) : ℤ :=
  s.velocityEvents.total fun e => if e.CountsFor tenant dim ref then (e.amount : ℤ) else 0

/-- What the events that have expired for a request take from a reference. -/
def Db.lapsed (s : Db) (p : TransferRequest) (tenant : Uuid) (dim : Dimension) (ref : String) : ℤ :=
  s.velocityEvents.total fun e => if e.expired p.tenantId p.now then
    (if e.CountsFor tenant dim ref then (e.amount : ℤ) else 0) else 0

section Totals

variable {t : Table VelocityTotal.key} {p : TransferRequest} {s : Db}

/-- The total of a stored row is what is found under its key. -/
theorem totalAt_of_mem {v : VelocityTotal} (hv : v ∈ t) : totalAt t v.key = v.total := by
  rw [totalAt, Table.find?_eq_some.mpr ⟨hv, rfl⟩]
  rfl

/-- Making a row for a reference changes no total. -/
theorem totalAt_touchTotal (tenant : Uuid) (now : Instant) (dim : Dimension) (ref : String)
    (k : Uuid × Dimension × String) : totalAt (touchTotal tenant now t dim ref) k = totalAt t k := by
  unfold touchTotal totalAt
  rcases hins : t.insert? ⟨tenant, dim, ref, 0, now⟩ with _ | t'
  · rfl
  · rw [Option.getD_some, Table.find?_insert? hins]
    split_ifs with hk
    · rw [hk, (Table.insert?_eq_some.mp hins).1]
      rfl
    · rfl

/-- A row that was made sure of is there. -/
theorem find?_touchTotal (tenant : Uuid) (now : Instant) (dim : Dimension) (ref : String) :
    ∃ v, (touchTotal tenant now t dim ref).find? (tenant, dim, ref) = some v := by
  unfold touchTotal
  rcases hins : t.insert? ⟨tenant, dim, ref, 0, now⟩ with _ | t'
  · rw [Option.getD_none]
    rcases hfind : t.find? (tenant, dim, ref) with _ | v
    · have hfree : t.find? (VelocityTotal.key ⟨tenant, dim, ref, 0, now⟩) = none := hfind
      obtain ⟨t', ht'⟩ := Table.exists_insert? hfree
      rw [hins] at ht'
      cases ht'
    · exact ⟨v, rfl⟩
  · exact ⟨_, Table.find?_insert?_self hins rfl⟩

/-- Adding to a reference changes its total by the amount and no other. -/
theorem totalAt_addTotal (tenant : Uuid) (now : Instant) (amount : ℤ) (dim : Dimension)
    (ref : String) (k : Uuid × Dimension × String) :
    totalAt (addTotal tenant now amount t dim ref) k =
      totalAt t k + if k = (tenant, dim, ref) then amount else 0 := by
  have hfind : (addTotal tenant now amount t dim ref).find? k =
      if k = (tenant, dim, ref) then ((touchTotal tenant now t dim ref).find? (tenant, dim, ref)).map
        fun v => { v with total := v.total + amount, updatedAt := now }
      else (touchTotal tenant now t dim ref).find? k := Table.find?_update k
  rw [← totalAt_touchTotal (t := t) tenant now dim ref k, totalAt, hfind, totalAt]
  split_ifs with hk
  · obtain ⟨v, hv⟩ := find?_touchTotal (t := t) tenant now dim ref
    rw [hk, hv]
    rfl
  · rw [add_zero]

/-- Making the rows of a request changes no total. -/
theorem totalAt_touchedTotals (k : Uuid × Dimension × String) :
    totalAt (touchedTotals p t) k = totalAt t k := by
  simp only [touchedTotals, totalAt_touchTotal]

/-- A posted transfer is added to its three totals. -/
theorem totalAt_chargedTotals (tenant : Uuid) (dim : Dimension) (ref : String) :
    totalAt (chargedTotals p t) (tenant, dim, ref) = totalAt t (tenant, dim, ref) +
      if p.tenantId = tenant ∧ p.reference dim = ref then (p.amount : ℤ) else 0 := by
  simp only [chargedTotals, totalAt_addTotal, Prod.mk.injEq]
  cases dim <;> simp [eq_comm]

/-- A total loses what the expired events add up to that count for it. -/
theorem deduct_total (v : VelocityTotal) :
    (deduct p.now (expiredEvents p s.velocityEvents) v).total =
      v.total - s.lapsed p v.tenantId v.dimension v.reference := by
  -- Summing over the expired events is summing over all with the expired ones counted.
  have hsum : (((expiredEvents p s.velocityEvents).filter fun e =>
      decide (e.CountsFor v.tenantId v.dimension v.reference)).map fun e => (e.amount : ℤ)).sum =
        s.lapsed p v.tenantId v.dimension v.reference := by
    rw [expiredEvents, List.filter_filter, Table.sum_filter]
    apply Table.total_congr
    intro e _
    by_cases hexp : e.expired p.tenantId p.now <;>
      by_cases hcount : e.CountsFor v.tenantId v.dimension v.reference <;> simp [hexp, hcount]
  unfold deduct deduction?
  split
  -- The row is deducted by the sum of its expired events, unless there are none.
  · rename_i hnone
    split at hnone
    · rename_i hnil
      rw [← hsum, hnil]
      simp
    · cases hnone
  · rename_i d hsome
    split at hsome
    · cases hsome
    · cases hsome
      rw [← hsum]

/-- Pruning deducts from every row what expired of it. -/
theorem find?_prune (k : Uuid × Dimension × String) :
    (s.prune p).velocityTotals.find? k = ((touchedTotals p s.velocityTotals).find? k).map
      (deduct p.now (expiredEvents p s.velocityEvents)) := by
  rw [Db.prune, Table.find?_mapRows]

/-- Pruning takes the expired events from the total of each row. -/
theorem totalAt_prune {k : Uuid × Dimension × String} {v : VelocityTotal}
    (hv : (touchedTotals p s.velocityTotals).find? k = some v) :
    totalAt (s.prune p).velocityTotals k =
      totalAt s.velocityTotals k - s.lapsed p k.1 k.2.1 k.2.2 := by
  have hbefore : totalAt s.velocityTotals k = v.total := by
    rw [← totalAt_touchedTotals (p := p), totalAt, hv]
    rfl
  obtain rfl : v.key = k := Table.key_of_find? hv
  rw [hbefore, totalAt, find?_prune, hv]
  exact deduct_total v

/-- A total without a row stays at zero. -/
theorem totalAt_prune_none {k : Uuid × Dimension × String}
    (hv : (touchedTotals p s.velocityTotals).find? k = none) :
    totalAt (s.prune p).velocityTotals k = 0 ∧ totalAt s.velocityTotals k = 0 := by
  constructor
  · rw [totalAt, find?_prune, hv]
    rfl
  · rw [← totalAt_touchedTotals (p := p), totalAt, hv]
    rfl

/-- After pruning, the events add up to what they did without the expired ones. -/
theorem spent_prune (tenant : Uuid) (dim : Dimension) (ref : String) :
    (s.prune p).spent tenant dim ref = s.spent tenant dim ref - s.lapsed p tenant dim ref :=
  Table.total_delete _ _

/-- Totals that fit, and the missing ones. -/
theorem totalAt_fits (h : ∀ v ∈ t, Bigint.Fits v.total) (k : Uuid × Dimension × String) :
    Bigint.Fits (totalAt t k) := by
  unfold totalAt
  rcases hfind : t.find? k with _ | v
  · exact (by decide : Bigint.Fits 0)
  · exact h v (Table.mem_of_find? hfind)

end Totals

/-! ## The totals agree with the events -/

/-- Every total is what the stored events of its reference add up to. -/
structure Tallied (s : Db) : Prop where
  agree : ∀ tenant dim ref, s.velocityTotal tenant dim ref = s.spent tenant dim ref
  positive : ∀ e ∈ s.velocityEvents, 0 < (e.amount : ℤ)
  fits : ∀ v ∈ s.velocityTotals, Bigint.Fits v.total

namespace Tallied

variable {s : Db} (hs : Tallied s) (p : TransferRequest)

include hs

/-- What is spent is not negative. -/
theorem spent_nonneg (tenant : Uuid) (dim : Dimension) (ref : String) :
    0 ≤ s.spent tenant dim ref := by
  apply Table.total_nonneg
  intro e he
  split_ifs
  · exact (hs.positive e he).le
  · exact le_refl 0

/-- The expired events are some of the stored events. -/
theorem lapsed_bounds (tenant : Uuid) (dim : Dimension) (ref : String) :
    0 ≤ s.lapsed p tenant dim ref ∧ s.lapsed p tenant dim ref ≤ s.spent tenant dim ref := by
  -- Amounts are positive, so that dropping the expiry condition can only add to the sum.
  have hcount : ∀ e ∈ s.velocityEvents,
      0 ≤ if e.CountsFor tenant dim ref then (e.amount : ℤ) else 0 := by
    intro e he
    split_ifs
    · exact (hs.positive e he).le
    · exact le_refl 0
  constructor
  · apply Table.total_nonneg
    intro e he
    split_ifs
    · exact (hs.positive e he).le
    · exact le_refl 0
    · exact le_refl 0
  · apply Table.total_le_total
    intro e he
    by_cases hexp : e.expired p.tenantId p.now
    · rw [if_pos hexp]
    · rw [if_neg hexp]
      exact hcount e he

/-- The total of a row is what its events add up to. -/
theorem total_eq_spent {v : VelocityTotal} (hv : v ∈ s.velocityTotals) :
    v.total = s.spent v.tenantId v.dimension v.reference := by
  rw [← hs.agree]
  exact (totalAt_of_mem hv).symm

/-- Pruning never leaves the range of a total. -/
theorem prunable : s.Prunable p := by
  intro v hv
  have htotal : v.total = s.spent v.tenantId v.dimension v.reference := by
    rw [← hs.agree, ← totalAt_of_mem hv, totalAt_touchedTotals]
    rfl
  have hfits := totalAt_fits hs.fits v.key
  rw [← totalAt_touchedTotals (p := p), totalAt_of_mem hv] at hfits
  obtain ⟨hpos, hle⟩ := hs.lapsed_bounds p v.tenantId v.dimension v.reference
  rw [deduct_total]
  unfold Bigint.Fits at hfits ⊢
  omega

/-- Pruning keeps the totals in step with the events. -/
theorem prune : Tallied (s.prune p) where
  agree tenant dim ref := by
    rw [spent_prune, ← hs.agree]
    rcases hv : (touchedTotals p s.velocityTotals).find? (tenant, dim, ref) with _ | v
    · -- Without a row nothing was spent, so nothing can have lapsed.
      obtain ⟨hafter, hbefore⟩ := totalAt_prune_none hv
      have hspent : s.spent tenant dim ref = 0 := (hs.agree tenant dim ref).symm.trans hbefore
      have hlapsed : s.lapsed p tenant dim ref = 0 :=
        le_antisymm (hspent ▸ (hs.lapsed_bounds p tenant dim ref).2)
          (hs.lapsed_bounds p tenant dim ref).1
      rw [hlapsed, sub_zero]
      exact hafter.trans hbefore.symm
    · exact totalAt_prune hv
  positive e he := hs.positive e (Table.mem_delete.mp he).1
  fits v hv := by
    -- The row was in the table before with its events deducted.
    have hfind : (s.prune p).velocityTotals.find? v.key = some v :=
      Table.find?_eq_some.mpr ⟨hv, rfl⟩
    rw [find?_prune] at hfind
    obtain ⟨v₀, hv₀, rfl⟩ := Option.map_eq_some_iff.mp hfind
    exact (hs.prunable p v₀ (Table.mem_of_find? hv₀)).1

/-- A charge within the limits never leaves the range of a total. -/
theorem charge_fits {policy : TransferPolicy} (hlimits : ∀ dim, ¬s.OverLimit p policy dim)
    (hamount : 0 < (p.amount : ℤ)) :
    ∀ v ∈ chargedTotals p s.velocityTotals, Bigint.Fits v.total := by
  intro v hv
  have htotal : v.total = s.velocityTotal v.tenantId v.dimension v.reference +
      if p.tenantId = v.tenantId ∧ p.reference v.dimension = v.reference then (p.amount : ℤ)
      else 0 := (totalAt_of_mem hv).symm.trans (totalAt_chargedTotals _ _ _)
  rw [htotal]
  split_ifs with hcounts
  · -- The charged totals are below a limit, and limits are bigints.
    have hroom := not_lt.mp (hlimits v.dimension)
    rw [hcounts.1, hcounts.2, hs.agree] at hroom
    have hspent := hs.spent_nonneg v.tenantId v.dimension v.reference
    have hlimit := (policy.rollingLimit v.dimension).inRange
    rw [hs.agree]
    unfold Bigint.Fits
    omega
  · rw [add_zero]
    exact totalAt_fits hs.fits _

/-- Charging a transfer within the limits keeps the totals in step with the events. -/
theorem charge {policy : TransferPolicy} {s' : Db} {transfer : Uuid}
    (hlimits : ∀ dim, ¬s.OverLimit p policy dim) (hamount : 0 < (p.amount : ℤ))
    (hevents : s.velocityEvents.insert? (velocityEvent p transfer) = some s'.velocityEvents)
    (htotals : s'.velocityTotals = chargedTotals p s.velocityTotals) : Tallied s' where
  agree tenant dim ref := by
    -- One event is added, and it counts for each dimension under its own reference.
    have hspent : s'.spent tenant dim ref =
        (if p.tenantId = tenant ∧ p.reference dim = ref then (p.amount : ℤ) else 0) +
          s.spent tenant dim ref := by
      unfold Db.spent
      rw [Table.total_insert? hevents]
      rfl
    have htotal : s'.velocityTotal tenant dim ref = s.velocityTotal tenant dim ref +
        if p.tenantId = tenant ∧ p.reference dim = ref then (p.amount : ℤ) else 0 := by
      change totalAt s'.velocityTotals _ = _
      rw [htotals, totalAt_chargedTotals]
      rfl
    rw [hspent, htotal, hs.agree, add_comm]
  positive e he := by
    rcases (Table.mem_insert? hevents).mp he with rfl | hold
    · exact hamount
    · exact hs.positive e hold
  fits v hv := by
    rw [htotals] at hv
    exact hs.charge_fits p hlimits hamount v hv

omit hs in
/-- The totals stay in step while neither table changes. -/
theorem congr {s' : Db} (hs : Tallied s) (hevents : s'.velocityEvents = s.velocityEvents)
    (htotals : s'.velocityTotals = s.velocityTotals) : Tallied s' where
  agree tenant dim ref := by
    have h := hs.agree tenant dim ref
    unfold Db.velocityTotal Db.spent at h ⊢
    rw [hevents, htotals]
    exact h
  positive e he := hs.positive e (hevents ▸ he)
  fits v hv := hs.fits v (htotals ▸ hv)

end Tallied

/-! ## What a call does to the velocity tables -/

/-- The transfer that a call submits: its own, or that of the hold which it captures. -/
def Call.submits (d : Digest) (s : Db) : Call → Option TransferRequest
  | .submitTransfer _ p _ => some p
  | .decideHold _ p clock _ =>
    if p.decision = .capture then
      (s.holds.find? p.target).map fun h => captureTransfer d p h clock.now
    else none
  | _ => none

/-- A row that a posted request leaves. -/
structure Transfer.Posts (x : Transfer) (p : TransferRequest) : Prop where
  status : x.status = .posted
  tenantId : x.tenantId = p.tenantId
  actorSubjectId : x.actorSubjectId = p.actorSubjectId
  debitAccountId : x.debitAccountId = p.debitAccountId
  amount : x.amount = p.amount
  createdAt : x.createdAt = p.now
  original : x.compensationOfTransferId = none

/-- What a call did to the velocity tables and to the transfers. -/
inductive VelocityChange (d : Digest) (c : Call) (s s' : Db) : Prop
  | kept (events : s'.velocityEvents = s.velocityEvents)
      (totals : s'.velocityTotals = s.velocityTotals)
      (transfers : s'.transfers = s.transfers)
  | compensated (x : Transfer) (compensation : x.compensationOfTransferId ≠ none)
      (transfers : s.transfers.insert? x = some s'.transfers)
      (events : s'.velocityEvents = s.velocityEvents)
      (totals : s'.velocityTotals = s.velocityTotals)
  | rejected (p : TransferRequest) (x : Transfer) (status : x.status = .rejected)
      (transfers : s.transfers.insert? x = some s'.transfers)
      (events : s'.velocityEvents = (s.prune p).velocityEvents)
      (totals : s'.velocityTotals = (s.prune p).velocityTotals)
  | posted (p : TransferRequest) (policy : TransferPolicy) (x : Transfer)
      (submits : c.submits d s = some p) (posts : x.Posts p)
      (policy_find : s.settings.transferPolicies.find? p.tenantId = some policy)
      (limits : ∀ dim, ¬(s.prune p).OverLimit p policy dim)
      (transfers : s.transfers.insert? x = some s'.transfers)
      (events : (s.prune p).velocityEvents.insert? (velocityEvent p x.id) = some s'.velocityEvents)
      (totals : s'.velocityTotals = chargedTotals p (s.prune p).velocityTotals)

section Change

variable {d : Digest} {c : Call} {s s' : Db}

/-- A posted transfer is one that its request posts. -/
theorem PostedTransfer.posts {p : TransferRequest} {ids : TransferIds} {body : Json}
    (h : PostedTransfer p ids s s' body) :
    (h.row.post ids.journal p.now).Posts p ∧ (h.row.post ids.journal p.now).id = ids.transfer := by
  obtain ⟨hid, htenant, hactor, hdebit, -, hamount, -, hcreated, horiginal⟩ :=
    pendingTransfer?_eq_some h.row_eq
  exact ⟨⟨rfl, htenant, hactor, hdebit, hamount, hcreated, horiginal⟩, hid⟩

/-- A posted transfer changes the velocity tables as its request says. -/
theorem PostedTransfer.velocityChange {p : TransferRequest} {ids : TransferIds} {body : Json}
    (h : PostedTransfer p ids s s' body) (hc : c.submits d s = some p) :
    VelocityChange d c s s' :=
  .posted p h.policy _ hc h.posts.1 h.admitted.policy_find h.limits h.transfers
    (by rw [h.posts.2]; exact h.velocityEvents) h.velocityTotals

/-- The transfer of a capture meets the velocity tables as the capture found them. -/
theorem HoldCaptured.velocityChange {sess : Session} {p : HoldDecisionRequest}
    {clock : DecisionClock} {ids : DecisionIds} (h : HoldCaptured d p clock ids s s') :
    VelocityChange d (.decideHold sess p clock ids) s s' := by
  have hevents : s'.velocityEvents = h.mid.velocityEvents :=
    (congrArg Db.velocityEvents h.frame :)
  have htotals : s'.velocityTotals = h.mid.velocityTotals :=
    (congrArg Db.velocityTotals h.frame :)
  have htransfers : s'.transfers = h.mid.transfers := (congrArg Db.transfers h.frame :)
  refine .posted (captureTransfer d p h.hold clock.now) h.posted.policy _ ?_ h.posted.posts.1
    h.posted.admitted.policy_find h.posted.limits ?_ ?_ ?_
  · rw [Call.submits, if_pos h.decision, h.find]
    rfl
  · rw [htransfers]
    exact h.posted.transfers
  · rw [hevents, h.posted.posts.2]
    exact h.posted.velocityEvents
  · rw [htotals]
    exact h.posted.velocityTotals

/-- A returning call changes the velocity tables in one of four ways. -/
theorem Effect.velocityChange (h : Effect d c s s') : VelocityChange d c s s' := by
  cases h with
  | none => exact .kept rfl rfl rfl
  | rejectedTransfer _ h =>
    exact .rejected _ _ rfl h.transfers (by rw [h.frame]) (by rw [h.frame])
  | postedTransfer _ h => exact h.velocityChange rfl
  | requestedCorrection _ _ _ frame => exact .kept (by rw [frame]) (by rw [frame]) (by rw [frame])
  | decidedCorrection _ _ frame => exact .kept (by rw [frame]) (by rw [frame]) (by rw [frame])
  | lapsedCorrection h => exact .kept (by rw [h.frame]) (by rw [h.frame]) (by rw [h.frame])
  | postedCorrection h =>
    -- A compensation charges nothing.
    exact .compensated _ (by simp [compensationTransfer]) h.transfers (by rw [h.frame])
      (by rw [h.frame])
  | createdClearing h => exact .kept (by rw [h.frame]) (by rw [h.frame]) (by rw [h.frame])
  | requestedFunding cleared _ _ frame =>
    -- The clearing account of the currency may be created first.
    rcases cleared with rfl | h
    · exact .kept (by rw [frame]) (by rw [frame]) (by rw [frame])
    · exact .kept (by rw [frame, h.frame]) (by rw [frame, h.frame]) (by rw [frame, h.frame])
  | requestedCompensation _ _ _ _ _ _ frame =>
    exact .kept (by rw [frame]) (by rw [frame]) (by rw [frame])
  | decidedFunding _ _ _ frame => exact .kept (by rw [frame]) (by rw [frame]) (by rw [frame])
  | postedFunding h => exact .kept (by rw [h.frame]) (by rw [h.frame]) (by rw [h.frame])
  | createdHold h => exact .kept (by rw [h.frame]) (by rw [h.frame]) (by rw [h.frame])
  | releasedHold h => exact .kept (by rw [h.frame]) (by rw [h.frame]) (by rw [h.frame])
  | capturedHold h => exact h.velocityChange
  | deniedCapture frame => exact .kept (by rw [frame]) (by rw [frame]) (by rw [frame])
  | claimedExpiry _ frame => exact .kept (by rw [frame]) (by rw [frame]) (by rw [frame])
  | expiredHold h => exact .kept (by rw [h.frame]) (by rw [h.frame]) (by rw [h.frame])
  | importedOpenings h => exact .kept (by rw [h.frame]) (by rw [h.frame]) (by rw [h.frame])
  | configured => exact .kept rfl rfl rfl
  | changedStatus => exact .kept rfl rfl rfl

/-- Each of the changes keeps the totals in step with the events. -/
theorem VelocityChange.tallied (h : VelocityChange d c s s') (hs : Tallied s) : Tallied s' := by
  cases h with
  | kept events totals => exact hs.congr events totals
  | compensated _ _ _ events totals => exact hs.congr events totals
  | rejected p _ _ _ events totals => exact (hs.prune p).congr events totals
  | posted p policy x _ posts _ limits _ events totals =>
    exact (hs.prune p).charge p limits (posts.amount ▸ x.amount_pos) events totals

/-- At first there are neither totals nor events. -/
theorem Db.Provisioned.tallied (h : s.Provisioned) : Tallied s where
  agree tenant dim ref := by
    unfold Db.velocityTotal Db.spent Table.total Table.find?
    rw [h.velocityTotals, h.velocityEvents]
    rfl
  positive e he := by
    rw [Table.mem_def, h.velocityEvents] at he
    cases he
  fits v hv := by
    rw [Table.mem_def, h.velocityTotals] at hv
    cases hv

/-- Every history keeps the totals in step with the events. -/
theorem run_tallied (d : Digest) (cs : List Call) {s : Db} (hs : Tallied s) :
    Tallied (run (exec d) cs s) :=
  run_invariant (fun _ _ _ _ h ht => (exec_effect h).velocityChange.tallied ht) cs hs

end Change

/-- After every history, the total of every reference is what its stored events add up to, a
missing row counting zero. So no total is negative, and none of the arithmetic on totals leaves the
range of a `bigint`: not the deduction of the expired events of any request, not the room that a
limit leaves for an admissible amount, and not the addition of an amount that is within the
limits. -/
theorem velocity_totals_agree (d : Digest) (s : Db) (hs : s.Provisioned) (cs : List Call) :
    (∀ tenant dim ref, (run (exec d) cs s).velocityTotal tenant dim ref =
      (run (exec d) cs s).velocityEvents.total
        fun e => if e.CountsFor tenant dim ref then (e.amount : ℤ) else 0) ∧
    (∀ v ∈ (run (exec d) cs s).velocityTotals, 0 ≤ v.total ∧ Bigint.Fits v.total) ∧
    (∀ p, ∀ v ∈ touchedTotals p (run (exec d) cs s).velocityTotals,
      let deducted := deduct p.now (expiredEvents p (run (exec d) cs s).velocityEvents) v
      0 ≤ deducted.total ∧ Bigint.Fits deducted.total) ∧
    (∀ p policy, 0 < (p.amount : ℤ) → (p.amount : ℤ) ≤ policy.maximumTransfer →
      (∀ dim, Bigint.Fits (policy.rollingLimit dim - p.amount)) ∧
      ((∀ dim, ¬((run (exec d) cs s).prune p).OverLimit p policy dim) →
        ∀ v ∈ chargedTotals p ((run (exec d) cs s).prune p).velocityTotals,
          0 ≤ v.total ∧ Bigint.Fits v.total)) := by
  have htallied := run_tallied d cs hs.tallied
  refine ⟨htallied.agree, fun v hv => ⟨?_, htallied.fits v hv⟩, fun p v hv => ?_,
    fun p policy hpos hmax => ⟨fun dim => ?_, fun hlimits v hv => ⟨?_, ?_⟩⟩⟩
  · rw [htallied.total_eq_spent hv]
    exact htallied.spent_nonneg _ _ _
  · exact (htallied.prunable p v hv).symm
  -- The three limits are ordered, so that the largest bounds the difference.
  · have hactor := policy.maximum_le_actor
    have hsource := policy.maximum_le_source
    have htenant := policy.greatest_le_tenant
    have hrange := (policy.rollingLimit dim).inRange
    unfold Bigint.Fits
    cases dim <;> simp only [TransferPolicy.rollingLimit] at hrange ⊢ <;> omega
  -- A charged row holds the total of before, with the amount added if it is one of the references.
  · have htotal : v.total = ((run (exec d) cs s).prune p).velocityTotal v.tenantId v.dimension
        v.reference + if p.tenantId = v.tenantId ∧ p.reference v.dimension = v.reference
          then (p.amount : ℤ) else 0 := (totalAt_of_mem hv).symm.trans (totalAt_chargedTotals _ _ _)
    have hspent := (htallied.prune p).spent_nonneg v.tenantId v.dimension v.reference
    rw [← (htallied.prune p).agree] at hspent
    rw [htotal]
    split_ifs <;> omega
  · exact (htallied.prune p).charge_fits p hlimits hpos v hv

/-- The total of an actor after a transfer of 100. -/
theorem velocity_totals_agree_sample : Sample.db.Provisioned ∧
    (run (exec Sample.digest) [Sample.transfer] Sample.db).velocityTotal Sample.tenant .actor
      Sample.alice = 100 ∧
    ((run (exec Sample.digest) [Sample.transfer] Sample.db).velocityEvents.total fun e =>
      if e.CountsFor Sample.tenant .actor Sample.alice then (e.amount : ℤ) else 0) = 100 := by
  have htotal : (run (exec Sample.digest) [Sample.transfer] Sample.db).velocityTotal Sample.tenant
      .actor Sample.alice = 100 := by decide +kernel
  obtain ⟨hagree, -⟩ := velocity_totals_agree Sample.digest Sample.db Sample.provisioned
    [Sample.transfer]
  exact ⟨Sample.provisioned, htotal, (hagree _ _ _).symm.trans htotal⟩

/-! ## The rolling limits -/

/-- The reference of a transfer in a dimension. -/
def Transfer.reference (x : Transfer) : Dimension → String
  | .tenant => x.tenantId.text
  | .actor => x.actorSubjectId
  | .source => x.debitAccountId.text

/-- The transfer counts towards a rolling limit: it was posted, and it is not a compensation. -/
def Transfer.CountsFor (x : Transfer) (tenant : Uuid) (dim : Dimension) (ref : String) : Prop :=
  x.tenantId = tenant ∧ x.status = .posted ∧ x.compensationOfTransferId = none ∧
    x.reference dim = ref

/-- Whether a transfer counts towards a limit can be decided. -/
instance (x : Transfer) (t : Uuid) (dim : Dimension) (r : String) :
    Decidable (x.CountsFor t dim r) := inferInstanceAs (Decidable (_ ∧ _ ∧ _ ∧ _))

/-- What a transfer adds to a rolling total. -/
def Transfer.weight (tenant : Uuid) (dim : Dimension) (ref : String) (x : Transfer) : ℤ :=
  if x.CountsFor tenant dim ref then x.amount else 0

/-- No transfer counts below zero. -/
theorem Transfer.weight_nonneg (tenant : Uuid) (dim : Dimension) (ref : String) (x : Transfer) :
    0 ≤ x.weight tenant dim ref := by
  unfold Transfer.weight
  split_ifs
  · exact x.amount_pos.le
  · exact le_refl 0

/-- What the posted transfers of a reference in the 24 hours up to `T` add up to. -/
def Db.window (s : Db) (tenant : Uuid) (dim : Dimension) (ref : String) (T : Instant) : ℤ :=
  s.transfers.window Transfer.createdAt (Transfer.weight tenant dim ref) day T

/-- Every posted transfer of the tenant that can share a window of 24 hours with the request still
has its velocity event. -/
def Db.Unpruned (s : Db) (p : TransferRequest) : Prop :=
  ∀ x ∈ s.transfers, x.tenantId = p.tenantId → x.status = .posted →
    x.compensationOfTransferId = none → p.now - day < x.createdAt →
    (s.velocityEvents.find? x.id).isSome

/-- Whether a request prunes nothing that still counts can be decided. -/
instance (s : Db) (p : TransferRequest) : Decidable (s.Unpruned p) :=
  inferInstanceAs (Decidable (∀ x ∈ s.transfers.rows, _))

/-- The event of a posted transfer. -/
structure VelocityEvent.Of (e : VelocityEvent) (x : Transfer) : Prop where
  tenantId : e.tenantId = x.tenantId
  actorSubjectId : e.actorSubjectId = x.actorSubjectId
  sourceAccountId : e.sourceAccountId = x.debitAccountId
  amount : e.amount = x.amount
  expiresAt : e.expiresAt = x.createdAt + day

/-- Every velocity event is that of a stored transfer. -/
def EventsLinked (s : Db) : Prop :=
  ∀ e ∈ s.velocityEvents, ∃ x, s.transfers.find? e.transferId = some x ∧ e.Of x

section Limits

variable {d : Digest} {c : Call} {s s' : Db} {tenant : Uuid} {policy : TransferPolicy}

/-- An event has the references of its transfer. -/
theorem VelocityEvent.Of.reference {e : VelocityEvent} {x : Transfer} (h : e.Of x)
    (dim : Dimension) : e.reference dim = x.reference dim := by
  cases dim
  · exact congrArg Uuid.text h.tenantId
  · exact h.actorSubjectId
  · exact congrArg Uuid.text h.sourceAccountId

/-- A change keeps every event linked to its transfer. -/
theorem VelocityChange.eventsLinked (h : VelocityChange d c s s') (hs : EventsLinked s) :
    EventsLinked s' := by
  intro e he
  cases h with
  | kept events _ transfers =>
    obtain ⟨x, hx, hof⟩ := hs e (events ▸ he)
    exact ⟨x, transfers ▸ hx, hof⟩
  | compensated _ _ transfers events =>
    obtain ⟨x, hx, hof⟩ := hs e (events ▸ he)
    exact ⟨x, Table.find?_insert?_of_some transfers hx, hof⟩
  -- Expired events may be gone; those left keep their transfers.
  | rejected p _ _ transfers events =>
    rw [events] at he
    obtain ⟨x, hx, hof⟩ := hs e (Table.mem_delete.mp he).1
    exact ⟨x, Table.find?_insert?_of_some transfers hx, hof⟩
  | posted p _ x _ posts _ _ transfers events =>
    -- The new event is linked to the transfer of the same call.
    rcases (Table.mem_insert? events).mp he with rfl | hold
    · refine ⟨x, Table.find?_insert?_self transfers rfl, posts.tenantId.symm,
        posts.actorSubjectId.symm, posts.debitAccountId.symm, posts.amount.symm, ?_⟩
      rw [posts.createdAt]
      rfl
    · obtain ⟨y, hy, hof⟩ := hs e (Table.mem_delete.mp hold).1
      exact ⟨y, Table.find?_insert?_of_some transfers hy, hof⟩

/-- While no event that can share a window with a request has been pruned, the totals that the
request meets cover all transfers that can. -/
theorem since_le_total {p : TransferRequest} (htallied : Tallied s) (hlinked : EventsLinked s)
    (hunpruned : s.Unpruned p) (dim : Dimension) (ref : String) :
    s.transfers.since Transfer.createdAt (Transfer.weight p.tenantId dim ref) (p.now - day) ≤
      (s.prune p).velocityTotal p.tenantId dim ref := by
  rw [(htallied.prune p).agree]
  refine Table.total_le_of_key (fun e he => ?_) fun x hx hne => ?_
  · split_ifs
    · exact ((htallied.prune p).positive e he).le
    · exact le_refl 0
  · have hlate : p.now - day < x.createdAt := by
      by_contra hearly
      rw [if_neg hearly] at hne
      exact hne rfl
    rw [if_pos hlate] at hne ⊢
    have hcounts : x.CountsFor p.tenantId dim ref := by
      by_contra hno
      exact hne (if_neg hno)
    obtain ⟨htenant, hstatus, horiginal, href⟩ := hcounts
    obtain ⟨e, he⟩ := Option.isSome_iff_exists.mp
      (hunpruned x hx htenant hstatus horiginal hlate)
    obtain ⟨y, hy, hof⟩ := hlinked e (Table.mem_of_find? he)
    -- The event under the transfer's identifier is its own, and it has not expired.
    obtain rfl : x = y := by
      rw [Table.key_of_find? he] at hy
      exact Table.eq_of_key hx (Table.mem_of_find? hy) (Table.key_of_find? hy).symm
    have hkept : e ∈ (s.prune p).velocityEvents := by
      refine Table.mem_delete.mpr ⟨Table.mem_of_find? he, ?_⟩
      have hlive : ¬e.expiresAt ≤ p.now := by
        rw [hof.expiresAt]
        exact not_le.mpr (sub_lt_iff_lt_add.mp hlate)
      simp [VelocityEvent.expired, hlive]
    refine ⟨e, Table.find?_eq_some.mpr ⟨hkept, Table.key_of_find? he⟩, ?_⟩
    rw [Transfer.weight, if_pos ⟨htenant, hstatus, horiginal, href⟩,
      if_pos ⟨hof.tenantId.trans htenant, (hof.reference dim).trans href⟩, hof.amount]

/-- A transfer that does not count changes no window. -/
theorem window_of_uncounted {x : Transfer} (hins : s.transfers.insert? x = some s'.transfers)
    (hx : x.status ≠ .posted ∨ x.compensationOfTransferId ≠ none) (dim : Dimension) (ref : String)
    (T : Instant) : s'.window tenant dim ref T = s.window tenant dim ref T := by
  have hzero : x.weight tenant dim ref = 0 := by
    refine if_neg ?_
    rintro ⟨-, hstatus, horiginal, -⟩
    rcases hx with h | h
    · exact h hstatus
    · exact h horiginal
  unfold Db.window Table.window
  rw [Table.total_insert? hins, hzero, ite_self, zero_add]

/-- A call keeps the rolling limits of a tenant when the transfer that it submits meets all events
that can share a window with it. -/
theorem VelocityChange.window_le (h : VelocityChange d c s s') (htallied : Tallied s)
    (hlinked : EventsLinked s)
    (hpolicy : s.settings.transferPolicies.find? tenant = some policy)
    (hunpruned : ∀ p, c.submits d s = some p → p.tenantId = tenant → s.Unpruned p)
    (hlimit : ∀ dim ref T, s.window tenant dim ref T ≤ policy.rollingLimit dim) :
    ∀ dim ref T, s'.window tenant dim ref T ≤ policy.rollingLimit dim := by
  intro dim ref T
  cases h with
  | kept _ _ transfers =>
    unfold Db.window
    rw [transfers]
    exact hlimit dim ref T
  | compensated x compensation transfers =>
    rw [window_of_uncounted transfers (.inr compensation)]
    exact hlimit dim ref T
  | rejected p x status transfers =>
    rw [window_of_uncounted transfers (.inl (by rw [status]; decide))]
    exact hlimit dim ref T
  | posted p policy' x submits posts policy_find limits transfers =>
    refine Table.window_insert? transfers (fun y _ => y.weight_nonneg tenant dim ref)
      (fun hne => ?_) (hlimit dim ref) T
    have hcounts : x.CountsFor tenant dim ref := by
      by_contra hno
      exact hne (if_neg hno)
    obtain ⟨htenant, -, -, href⟩ := hcounts
    -- The new transfer counts, so the request is the tenant's and was checked for this reference.
    obtain rfl : p.tenantId = tenant := posts.tenantId.symm.trans htenant
    obtain rfl : policy' = policy := Option.some.inj (policy_find.symm.trans hpolicy)
    have hreference : p.reference dim = ref := by
      rw [← href]
      cases dim
      · exact congrArg Uuid.text posts.tenantId.symm
      · exact posts.actorSubjectId.symm
      · exact congrArg Uuid.text posts.debitAccountId.symm
    have hroom := not_lt.mp (limits dim)
    have hsince := since_le_total htallied hlinked (hunpruned p submits rfl) dim ref
    have hweight : x.weight p.tenantId dim ref = p.amount := by
      unfold Transfer.weight
      rw [if_pos ⟨htenant, posts.status, posts.original, href⟩, posts.amount]
    rw [hreference] at hroom
    rw [posts.createdAt, hweight]
    omega

/-- The rolling limits of a tenant hold, and what keeps them so. -/
structure WithinLimits (tenant : Uuid) (policy : TransferPolicy) (s : Db) : Prop where
  tallied : Tallied s
  linked : EventsLinked s
  policy_find : s.settings.transferPolicies.find? tenant = some policy
  window : ∀ dim ref T, s.window tenant dim ref T ≤ policy.rollingLimit dim

/-- A call that prunes nothing early keeps the limits of a fixed policy. -/
theorem Effect.withinLimits (h : Effect d c s s') (hs : WithinLimits tenant policy s)
    (hfixed : ∀ st, c = .configure st → st.transferPolicies.find? tenant = some policy)
    (hunpruned : ∀ p, c.submits d s = some p → p.tenantId = tenant → s.Unpruned p) :
    WithinLimits tenant policy s' where
  tallied := h.velocityChange.tallied hs.tallied
  linked := h.velocityChange.eventsLinked hs.linked
  policy_find := by
    rcases h.settings with hsame | hconfigured
    · rw [hsame]
      exact hs.policy_find
    · exact hfixed _ hconfigured
  window := h.velocityChange.window_le hs.tallied hs.linked hs.policy_find hunpruned hs.window

/-- At first nothing counts towards a limit. -/
theorem Db.Provisioned.withinLimits (h : s.Provisioned)
    (hpolicy : s.settings.transferPolicies.find? tenant = some policy) :
    WithinLimits tenant policy s where
  tallied := h.tallied
  linked e he := by
    rw [Table.mem_def, h.velocityEvents] at he
    cases he
  policy_find := hpolicy
  window dim ref T := by
    have hzero : s.window tenant dim ref T = 0 := by
      unfold Db.window Table.window Table.total
      rw [h.transfers]
      rfl
    have hactor := policy.maximum_le_actor
    have hsource := policy.maximum_le_source
    have htenant := policy.greatest_le_tenant
    have hminimum := policy.minimum_pos
    have hmaximum := policy.minimum_le
    rw [hzero]
    cases dim <;> simp only [TransferPolicy.rollingLimit] <;> omega

end Limits

/-- The rolling limits of a tenant whose policy is fixed hold all along every history of calls, for
every window of 24 hours and every reference, provided that every transfer that is submitted meets
the velocity events of all posted transfers that are less than 24 hours older than it. -/
theorem rolling_limit (d : Digest) (s : Db) (hs : s.Provisioned) (tenant : Uuid)
    (policy : TransferPolicy)
    (hpolicy : s.settings.transferPolicies.find? tenant = some policy) (cs : List Call)
    (hfixed : ∀ st, Call.configure st ∈ cs → st.transferPolicies.find? tenant = some policy)
    (hunpruned : ∀ pre c post p, cs = pre ++ c :: post →
      c.submits d (run (exec d) pre s) = some p → p.tenantId = tenant →
      (run (exec d) pre s).Unpruned p) :
    ∀ l, l <+: cs → ∀ dim ref T,
      (run (exec d) l s).window tenant dim ref T ≤ policy.rollingLimit dim := by
  intro l hl
  refine (run_prefix_invariant (I := WithinLimits tenant policy) ?_ (hs.withinLimits hpolicy)
    hl).window
  rintro pre c post rfl _ s' hstep hwithin
  refine (exec_effect hstep).withinLimits hwithin (fun st hst => hfixed st ?_)
    fun p => hunpruned pre c post p rfl
  rw [hst]
  exact List.mem_append_right _ List.mem_cons_self

namespace Sample

/-- A clock reading one second before the first day ends. -/
def lastSecond : Timestamp := ⟨63019209600000000 + 86399000000, by decide⟩

/-- A transfer of 500 at the start of the day. -/
def morning : Call :=
  .submitTransfer session (request (big 500) fingerprint500 "sample-transfer-02" (hour 0)) (ids 100)

/-- A transfer of 100, 24 hours later. -/
def nextDay : Call :=
  .submitTransfer session (request (big 100) fingerprint100 "sample-transfer-03" (hour 24))
    (ids 200)

/-- A transfer of 500 that read its clock a second before the one of the next day, and that is
committed after it. -/
def belated : Call :=
  .submitTransfer session (request (big 500) fingerprint500 "sample-transfer-04" lastSecond)
    (ids 300)

end Sample

/-- Two transfers that are committed in the order of their times keep the limits. -/
theorem rolling_limit_sample : Sample.db.Provisioned ∧
    (run (exec Sample.digest) [Sample.morning, Sample.nextDay] Sample.db).transfers.rows.length = 2 ∧
    ∀ dim ref T, (run (exec Sample.digest) [Sample.morning, Sample.nextDay] Sample.db).window
      Sample.tenant dim ref T ≤ Sample.policy.rollingLimit dim := by
  refine ⟨Sample.provisioned, by decide +kernel, rolling_limit Sample.digest Sample.db
    Sample.provisioned Sample.tenant Sample.policy rfl [Sample.morning, Sample.nextDay] ?_ ?_ _
    List.prefix_rfl⟩
  · intro st hst
    simp [Sample.morning, Sample.nextDay] at hst
  · intro pre c post p hcs hsubmits _
    rcases List.cons_eq_append_iff.mp hcs with ⟨rfl, h⟩ | ⟨pre, rfl, hrest⟩
    · obtain ⟨rfl, rfl⟩ := List.cons.inj h
      cases hsubmits
      intro x hx
      cases hx
    · rcases List.cons_eq_append_iff.mp hrest with ⟨rfl, h⟩ | ⟨pre, rfl, hnil⟩
      · obtain ⟨rfl, rfl⟩ := List.cons.inj h
        cases hsubmits
        decide +kernel
      · simp at hnil

/-- The limit of 600 for an actor is exceeded: after a transfer of 500 and one of 100 a day later,
a transfer of 500 that was timed a second before that one is posted, because the event of the first
transfer has been deleted. The 24 hours up to its time hold 1000. -/
theorem limit_exceeded : Sample.db.Provisioned ∧
    Sample.db.settings.transferPolicies.find? Sample.tenant = some Sample.policy ∧
    (Sample.policy.rollingLimit .actor : ℤ) = 600 ∧
    (run (exec Sample.digest) [Sample.morning, Sample.nextDay, Sample.belated] Sample.db).window
      Sample.tenant .actor Sample.alice (instant Sample.lastSecond) = 1000 :=
  ⟨Sample.provisioned, rfl, rfl, by decide +kernel⟩

end LedgerSync
