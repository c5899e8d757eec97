import LedgerSync.Lib.DoubleEntry
import LedgerSync.System

/-!
# The balance equation

Seven commands write the two amounts of a balance row, each with statements of its own. This module
ties the amounts to the opening balance, the postings and the active holds of the account: the five
numbers are the account's position (`Db.position?`), every command adds a balanced position to
every account (`Change.position`), and so every account stays balanced along every history
(`balance_equation`).
-/

namespace LedgerSync

open Lib

/-! ## Positions of accounts -/

/-- The postings to an account in one direction. -/
def Db.posted (s : Db) (direction : Direction) (x : Uuid) : ℤ :=
  s.postings.total fun p => if p.accountId = x ∧ p.direction = direction then p.amount else 0

/-- The active holds that debit an account. -/
def Db.reserved (s : Db) (x : Uuid) : ℤ :=
  s.holds.total fun h => if h.debitAccountId = x ∧ h.state = .active then h.amount else 0

/-- The position of an account that has a balance and an opening balance. -/
def Db.position? (s : Db) (x : Uuid) : Option Position :=
  match s.balances.find? x, s.openings.find? x with
  | some b, some o => some ⟨o.openingLedger, b.ledger, b.available,
      s.posted .credit x - s.posted .debit x, s.reserved x⟩
  | _, _ => none

/-- The position of an account is what its balance, its opening, its postings and its holds say. -/
theorem Db.position?_eq_some {s : Db} {x : Uuid} {p : Position} :
    s.position? x = some p ↔ ∃ b o, s.balances.find? x = some b ∧ s.openings.find? x = some o ∧
      p = ⟨o.openingLedger, b.ledger, b.available, s.posted .credit x - s.posted .debit x,
        s.reserved x⟩ := by
  unfold Db.position?
  split
  · rename_i b o hb ho
    simp only [hb, ho, Option.some.injEq, exists_and_left, exists_eq_left']
    exact eq_comm
  · rename_i hno
    simp only [reduceCtorEq, false_iff]
    rintro ⟨b, o, hb, ho, -⟩
    exact hno b o hb ho

/-! ## What a command adds to a position -/

/-- The balance row of `x` gained the two amounts. -/
def Gained (t t' : Table Balance.accountId) (x : Uuid) (ledger available : ℤ) : Prop :=
  ∀ b, t.find? x = some b → ∃ b', t'.find? x = some b' ∧ (b'.ledger : ℤ) = b.ledger + ledger ∧
    (b'.available : ℤ) = b.available + available

/-- Nothing gained is zero. -/
theorem Gained.refl (t : Table Balance.accountId) (x : Uuid) : Gained t t x 0 0 :=
  fun b hb => ⟨b, hb, by simp, by simp⟩

/-- Gains add up. -/
theorem Gained.trans {t t₁ t' : Table Balance.accountId} {x : Uuid} {l a l' a' : ℤ}
    (h : Gained t t₁ x l a) (h' : Gained t₁ t' x l' a') : Gained t t' x (l + l') (a + a') := by
  intro b hb
  obtain ⟨b₁, hb₁, hl, ha⟩ := h b hb
  obtain ⟨b', hb', hl', ha'⟩ := h' b₁ hb₁
  exact ⟨b', hb', by rw [hl', hl]; ring, by rw [ha', ha]; ring⟩

/-- One row written with its ledger kept and its available amount changed. -/
theorem gained_of_written {t : Table Balance.accountId} {account : Uuid} {b b' : Balance}
    {delta version : ℤ} {now : Instant} (hb : t.find? account = some b)
    (hw : b.Written b' (b.available + delta) b.ledger version now) (x : Uuid) :
    Gained t (t.replace b') x 0 (if x = account then delta else 0) := by
  intro c hc
  by_cases hx : x = account
  · subst hx
    obtain rfl : c = b := Option.some.inj (hc.symm.trans hb)
    exact ⟨b', hw.find?_replace hb, by rw [hw.ledger]; simp, by rw [hw.available]; simp⟩
  · exact ⟨c, by rw [hw.find?_replace_ne hb hx, hc], by simp, by simp [hx]⟩

/-- A movement between two accounts. -/
theorem Balance.Move.gained {t t' : Table Balance.accountId} {debitAccount creditAccount : Uuid}
    {amount : ℤ} {now : Instant} {source source' destination destination' : Balance}
    (h : Balance.Move t t' debitAccount creditAccount amount now source source' destination
      destination') (hne : debitAccount ≠ creditAccount) (x : Uuid) :
    Gained t t' x (shift debitAccount creditAccount amount x)
      (shift debitAccount creditAccount amount x) := by
  intro b hb
  by_cases hd : x = debitAccount
  · subst hd
    obtain rfl : b = source := Option.some.inj (hb.symm.trans h.source_find)
    refine ⟨source', h.find?_debit hne, ?_, ?_⟩ <;> rw [shift_source hne]
    · exact h.source_written.ledger
    · exact h.source_written.available
  · by_cases hc : x = creditAccount
    · subst hc
      obtain rfl : b = destination :=
        Option.some.inj (hb.symm.trans (h.find?_credit_before hne))
      refine ⟨destination', h.find?_credit, ?_, ?_⟩ <;> rw [shift_destination hne]
      · exact h.destination_written.ledger
      · exact h.destination_written.available
    · refine ⟨b, by rw [h.find?_other hd hc, hb], ?_, ?_⟩ <;> rw [shift_other hd hc] <;> simp

/-- The two postings of a journal add the same to the net of each account. -/
theorem Posting.Pair.net {s s' : Db} {tenant journal debitId creditId debitAccount creditAccount :
    Uuid} {amount : Bigint} {currency : String} {now : Instant}
    (h : Posting.Pair s tenant journal debitId creditId debitAccount creditAccount amount currency
      now s'.postings) (x : Uuid) :
    s'.posted .credit x - s'.posted .debit x =
      s.posted .credit x - s.posted .debit x + shift debitAccount creditAccount amount x := by
  obtain ⟨t₁, h₁, h₂⟩ := h.rows
  unfold Db.posted
  rw [Table.total_insert? h₂, Table.total_insert? h₂, Table.total_insert? h₁,
    Table.total_insert? h₁]
  simp only [transferPosting, reduceCtorEq, and_false, and_true, if_false, shift, eq_comm (a := x)]
  ring

/-- A position grows by what its five numbers gain. -/
theorem Db.position?_add {s s' : Db} {x : Uuid} {p δ : Position} (hp : s.position? x = some p)
    (hbalance : Gained s.balances s'.balances x δ.ledger δ.available)
    (hopening : ∀ o, s.openings.find? x = some o → ∃ o', s'.openings.find? x = some o' ∧
      (o'.openingLedger : ℤ) = o.openingLedger + δ.opening)
    (hnet : s'.posted .credit x - s'.posted .debit x =
      s.posted .credit x - s.posted .debit x + δ.net)
    (hreserved : s'.reserved x = s.reserved x + δ.reserved) :
    s'.position? x = some (p + δ) := by
  obtain ⟨b, o, hb, ho, rfl⟩ := Db.position?_eq_some.mp hp
  obtain ⟨b', hb', hl, ha⟩ := hbalance b hb
  obtain ⟨o', ho', hopen⟩ := hopening o ho
  refine Db.position?_eq_some.mpr ⟨b', o', hb', ho', ?_⟩
  rw [hl, ha, hopen, hnet, hreserved]
  rfl

/-- A position whose rows all stay is kept. -/
theorem Db.position?_congr {s s' : Db} {x : Uuid} (hb : s'.balances.find? x = s.balances.find? x)
    (ho : s'.openings.find? x = s.openings.find? x) (hp : s'.postings = s.postings)
    (hh : s'.holds = s.holds) : s'.position? x = s.position? x := by
  unfold Db.position? Db.posted Db.reserved
  rw [hb, ho, hp, hh]

/-- A journal adds its amount to the two accounts that it names. -/
theorem Db.position?_post {s s' : Db} {x : Uuid} {p : Position} {z : ℤ}
    (hp : s.position? x = some p) (hbalance : Gained s.balances s'.balances x z z)
    (hnet : s'.posted .credit x - s'.posted .debit x = s.posted .credit x - s.posted .debit x + z)
    (ho : s'.openings = s.openings) (hh : s'.holds = s.holds) :
    s'.position? x = some (p + .posted z) := by
  refine Db.position?_add hp hbalance (fun o hfind => ⟨o, by rw [ho, hfind], ?_⟩) hnet ?_
  · simp [Position.posted]
  · simp [Position.posted, Db.reserved, hh]

/-- A hold that ends gives its amount back. -/
theorem Db.reserved_finish {s s' : Db} {h : Hold} {target : Uuid} {state : HoldState}
    {now : Instant} {transfer : Option Uuid} (hfind : s.holds.find? target = some h)
    (hactive : h.state = .active) (hstate : state ≠ .active)
    (hs : s'.holds = s.holds.replace (h.finish state now transfer)) (x : Uuid) :
    s'.reserved x = s.reserved x + -(if x = h.debitAccountId then (h.amount : ℤ) else 0) := by
  have hkey : s.holds.find? (h.finish state now transfer).id = some h := by
    rw [← Table.key_of_find? hfind] at hfind
    exact hfind
  unfold Db.reserved
  rw [hs, Table.total_replace hkey]
  simp [Hold.finish, hactive, hstate, eq_comm (a := x)]

/-- The change of a funding event, seen from its two roles. -/
theorem FundingEvent.shift_delta (e : FundingEvent) (x : Uuid) :
    shift e.debitAccountId e.creditAccountId e.amount x =
      shift e.systemAccountId e.destinationAccountId e.destinationDelta x := by
  unfold FundingEvent.debitAccountId FundingEvent.creditAccountId FundingEvent.destinationDelta
  split_ifs
  · rfl
  · exact shift_swap _ _ _ _

section Effects

variable {d : Digest} {s s' : Db} {x : Uuid} {p : Position}

/-- A posted transfer moves its amount from the one account to the other. -/
theorem PostedTransfer.position {q : TransferRequest} {ids : TransferIds} {body : Json}
    (h : PostedTransfer q ids s s' body) (hp : s.position? x = some p) :
    s'.position? x = some (p + .posted (shift q.debitAccountId q.creditAccountId q.amount x)) := by
  have hne : q.debitAccountId ≠ q.creditAccountId := by
    obtain ⟨-, -, -, hd, hc, -⟩ := pendingTransfer?_eq_some h.row_eq
    rw [← hd, ← hc]
    exact h.row.distinct
  exact Db.position?_post hp (h.move.gained hne x) (h.postings.net x) (by rw [h.frame])
    (by rw [h.frame])

/-- A posted correction moves the amount of its original back. -/
theorem PostedCorrection.position {q : CorrectionPost} {ids : CorrectionPostIds}
    (h : PostedCorrection q ids s s') (hp : s.position? x = some p) :
    s'.position? x = some (p + .posted (shift h.original.creditAccountId h.original.debitAccountId
      h.original.amount x)) :=
  Db.position?_post hp (h.move.gained h.original.distinct.symm x) (h.postings.net x)
    (by rw [h.frame]) (by rw [h.frame])

/-- A posted funding moves its amount between the clearing account and its destination. -/
theorem PostedFunding.position {q : FundingPost} {ids : FundingPostIds}
    (h : PostedFunding q ids s s') (hp : s.position? x = some p) :
    s'.position? x = some (p + .posted (shift h.event.systemAccountId h.event.destinationAccountId
      h.event.destinationDelta x)) := by
  refine Db.position?_post hp (h.move.gained h.event.distinct.symm x) ?_ (by rw [h.frame])
    (by rw [h.frame])
  rw [← h.event.shift_delta]
  exact h.postings.net x

/-- A created hold reserves its amount. -/
theorem HoldCreated.position {q : HoldRequest} {clock : HoldClock} {id : Uuid} {ids : ChangeIds}
    (h : HoldCreated q clock id ids s s') (hp : s.position? x = some p) :
    s'.position? x = some (p + .held (if x = q.source then (q.amount : ℤ) else 0)) := by
  have hposted : ∀ dir, s'.posted dir x = s.posted dir x := fun dir => by rw [h.frame]; rfl
  refine Db.position?_add hp ?_ (fun o ho => ⟨o, by rw [h.frame]; exact ho, ?_⟩) ?_ ?_
  · have hgained := gained_of_written h.moved.find h.moved.written x
    rw [← h.moved.result] at hgained
    have hneg : (if x = q.source then -(q.amount : ℤ) else 0) =
        -(if x = q.source then (q.amount : ℤ) else 0) := by
      split_ifs <;> simp
    rwa [hneg] at hgained
  · simp [Position.held]
  · rw [hposted, hposted]
    simp [Position.held]
  · obtain ⟨-, -, hdebit, -, hamount, -, hstate, -⟩ := activeHold?_eq_some h.hold_eq
    unfold Db.reserved
    rw [Table.total_insert? h.holds, hdebit, hamount, hstate]
    simp only [Position.held, and_true, eq_comm (a := x)]
    ring

/-- A hold that is returned reserves nothing any more. -/
theorem HoldReturned.position {target tenant : Uuid} {state : HoldState} {now completed : Instant}
    {ids : ChangeIds} {clock : ChangeClock} (hstate : state ≠ .active)
    (h : HoldReturned target tenant state now completed ids clock s s')
    (hp : s.position? x = some p) :
    s'.position? x =
      some (p + .held (-(if x = h.hold.debitAccountId then (h.hold.amount : ℤ) else 0))) := by
  have hposted : ∀ dir, s'.posted dir x = s.posted dir x := fun dir => by rw [h.frame]; rfl
  refine Db.position?_add hp ?_ (fun o ho => ⟨o, by rw [h.frame]; exact ho, ?_⟩) ?_ ?_
  · have hgained := gained_of_written h.moved.find h.moved.written x
    rw [← h.moved.result] at hgained
    simpa only [Position.held, neg_neg] using hgained
  · simp [Position.held]
  · rw [hposted, hposted]
    simp [Position.held]
  · exact Db.reserved_finish h.find h.active hstate h.holds x

/-- A capture gives the amount back and spends it in one step. -/
theorem HoldCaptured.position {q : HoldDecisionRequest} {clock : DecisionClock} {ids : DecisionIds}
    (h : HoldCaptured d q clock ids s s') (hp : s.position? x = some p) :
    s'.position? x =
      some (p + (.held (-(if x = h.hold.debitAccountId then (h.hold.amount : ℤ) else 0)) +
        .posted (shift h.hold.debitAccountId h.hold.creditAccountId h.hold.amount x))) := by
  have hbalances : s'.balances = h.mid.balances := (congrArg Db.balances h.frame :)
  have hpostings : ∀ dir, s'.posted dir x = h.mid.posted dir x := fun dir =>
    (congrArg (fun t : Db => t.posted dir x) h.frame :)
  have hopenings : s'.openings = s.openings :=
    (congrArg Db.openings h.frame :).trans (congrArg Db.openings h.posted.frame :)
  -- The three parts of the position come from the balances, the postings and the holds.
  refine Db.position?_add hp ?_ (fun o ho => ⟨o, by rw [hopenings, ho], ?_⟩) ?_ ?_
  -- The debit account gets the held amount back before the capture takes the amount from it.
  · have hgained := (gained_of_written h.balance_find h.freed_written x).trans
      (h.posted.move.gained h.hold.distinct x)
    rw [← hbalances, ← neg_neg (if x = h.hold.debitAccountId then (h.hold.amount : ℤ) else 0)]
      at hgained
    exact hgained
  · change (o.openingLedger : ℤ) = o.openingLedger + (0 + 0)
    simp
  · rw [hpostings, hpostings]
    refine (h.posted.postings.net x).trans ?_
    change _ = _ + (0 + _)
    rw [zero_add]
    rfl
  · refine (Db.reserved_finish h.find h.active (by decide) h.holds x).trans ?_
    change _ = _ + (_ + 0)
    rw [add_zero]
    rfl

/-- A manifest opens the accounts that it names, all of which were empty. -/
theorem OpeningImported.position {q : ImportExecute} {ids : ImportIds}
    (h : OpeningImported q ids s s') (hp : s.position? x = some p) :
    ∃ z, s'.position? x = some (p + .opened z) := by
  have hposted : ∀ dir, s'.posted dir x = s.posted dir x := fun dir => by rw [h.frame]; rfl
  have hreserved : s'.reserved x = s.reserved x := by rw [h.frame]; rfl
  rcases hrow : rowFor (s.manifest q) x with _ | r
  · -- The account is not in the manifest.
    refine ⟨0, ?_⟩
    have hnot := rowFor_eq_none.mp hrow
    have hopening : s'.openings.find? x = s.openings.find? x := by
      rw [h.openings, Table.find?_mapRows]
      rcases ho : s.openings.find? x with _ | o
      · rfl
      · have hkey : o.accountId = x := Table.key_of_find? ho
        simp [OpeningBalance.imported, hkey, hrow]
    rw [Db.position?_congr (h.find?_balances_of_not_mem hnot) hopening (by rw [h.frame])
      (by rw [h.frame]), hp]
    exact congrArg some (Position.add_zero p).symm
  -- The account of a row had a zero balance and a zero opening before.
  · obtain ⟨hr, rfl⟩ := (rowFor_eq_some (nodup_manifest s q)).mp hrow
    obtain ⟨b, hwait⟩ := h.ready r hr
    obtain ⟨b', hb', hw⟩ := h.find?_balances hr hwait.balance
    obtain ⟨o, ho, hzero⟩ := hwait.opening
    refine ⟨r.opening, Db.position?_add hp ?_ ?_ ?_ ?_⟩
    · intro c hc
      obtain rfl : c = b := Option.some.inj (hc.symm.trans hwait.balance)
      refine ⟨b', hb', ?_, ?_⟩
      · rw [hw.ledger, hwait.ledger]
        exact (zero_add _).symm
      · rw [hw.available, hwait.available]
        exact (zero_add _).symm
    · intro o' ho'
      obtain rfl : o' = o := Option.some.inj (ho'.symm.trans ho)
      refine ⟨o'.imported (s.manifest q), ?_, ?_⟩
      · rw [h.openings, Table.find?_mapRows, ho]
        rfl
      · have hkey : o'.accountId = r.accountId := Table.key_of_find? ho
        simp [OpeningBalance.imported, hkey, hrow, hzero, Position.opened]
    · rw [hposted, hposted]
      simp [Position.opened]
    · rw [hreserved]
      simp [Position.opened]

/-- Every change adds a balanced position to every account that has one. -/
theorem Change.position (h : Change d s s') (hp : s.position? x = some p) :
    ∃ δ : Position, δ.Balanced ∧ s'.position? x = some (p + δ) := by
  have hkeep : s'.position? x = s.position? x →
      ∃ δ : Position, δ.Balanced ∧ s'.position? x = some (p + δ) := fun heq =>
    ⟨0, Position.balanced_zero, by rw [heq, hp, Position.add_zero]⟩
  cases h with
  | quiet frame => exact hkeep (by rw [frame]; rfl)
  | status account status => exact hkeep rfl
  | claimed _ frame => exact hkeep (by rw [frame]; rfl)
  | cleared h frame =>
    rename_i created currency now s₁
    -- The new account had no row, so `x` is another account.
    obtain ⟨b, o, hb, ho, -⟩ := Db.position?_eq_some.mp hp
    refine hkeep (Db.position?_congr ?_ ?_ ?_ ?_)
    · rw [frame]
      exact (Table.find?_insert?_of_some h.balances hb).trans hb.symm
    · rw [frame]
      exact (Table.find?_insert?_of_some h.openings ho).trans ho.symm
    · rw [frame, h.frame]
    · rw [frame, h.frame]
  | rejected h => exact hkeep (by rw [h.frame]; rfl)
  | posted h => exact ⟨_, Position.balanced_posted _, h.position hp⟩
  | corrected h => exact ⟨_, Position.balanced_posted _, h.position hp⟩
  | funded h => exact ⟨_, Position.balanced_posted _, h.position hp⟩
  | reserved h => exact ⟨_, Position.balanced_held _, h.position hp⟩
  | returned final h =>
    refine ⟨_, Position.balanced_held _, h.position ?_ hp⟩
    rcases final with rfl | rfl <;> decide
  | captured h =>
    exact ⟨_, (Position.balanced_held _).add (Position.balanced_posted _), h.position hp⟩
  | imported h =>
    obtain ⟨z, hz⟩ := h.position hp
    exact ⟨_, Position.balanced_opened z, hz⟩

end Effects

/-! ## Accounts and what names them -/

/-- Two rows of one account, up to its status. -/
structure Account.Same (a a' : Account) : Prop where
  id : a'.id = a.id
  tenantId : a'.tenantId = a.tenantId
  currency : a'.currency = a.currency
  kind : a'.kind = a.kind

/-- An account is the same as itself. -/
theorem Account.Same.refl (a : Account) : a.Same a := ⟨rfl, rfl, rfl, rfl⟩

section Accounts

variable {d : Digest} {s s' : Db}

/-- No change but a new status and a new clearing account touches the accounts. -/
theorem Change.accounts (h : Change d s s') :
    s'.accounts = s.accounts ∨
      (∃ account status, s' = { s with
        accounts := s.accounts.update account fun a => { a with status := status } }) ∨
      ∃ tenant created currency now s₁, ClearingCreated tenant created currency now s s₁ ∧
        s' = { s₁ with
          fundingEvents := s'.fundingEvents, approvals := s'.approvals, audit := s'.audit } := by
  cases h with
  | quiet frame => exact .inl (by rw [frame])
  | status account status => exact .inr (.inl ⟨account, status, rfl⟩)
  | claimed _ frame => exact .inl (by rw [frame])
  | cleared h frame => exact .inr (.inr ⟨_, _, _, _, _, h, frame⟩)
  | rejected h => exact .inl (by rw [h.frame]; rfl)
  | posted h => exact .inl (by rw [h.frame])
  | corrected h => exact .inl (by rw [h.frame])
  | funded h => exact .inl (by rw [h.frame])
  | reserved h => exact .inl (by rw [h.frame])
  | returned _ h => exact .inl (by rw [h.frame])
  | captured h =>
    exact .inl ((congrArg Db.accounts h.frame :).trans (congrArg Db.accounts h.posted.frame :))
  | imported h => exact .inl (by rw [h.frame])

/-- Accounts stay, up to their status. -/
theorem Change.account_kept (h : Change d s s') {x : Uuid} {a : Account}
    (ha : s.accounts.find? x = some a) : ∃ a', s'.accounts.find? x = some a' ∧ a.Same a' := by
  rcases h.accounts with heq | ⟨account, status, rfl⟩ | ⟨tenant, created, currency, now, s₁, hc, heq⟩
  · exact ⟨a, by rw [heq, ha], .refl a⟩
  · change ∃ a', (s.accounts.update account _).find? x = some a' ∧ _
    by_cases hx : x = account
    · subst hx
      exact ⟨{ a with status := status }, by rw [Table.find?_update_self, ha]; rfl, rfl, rfl, rfl,
        rfl⟩
    · exact ⟨a, by rw [Table.find?_update_ne hx, ha], .refl a⟩
  · obtain ⟨account, -, hins⟩ := hc.accounts
    refine ⟨a, ?_, .refl a⟩
    rw [heq]
    exact Table.find?_insert?_of_some hins ha

/-- An account that is there was there before, or it is a new clearing account. -/
theorem Change.account_new (h : Change d s s') {x : Uuid} {a' : Account}
    (ha' : s'.accounts.find? x = some a') :
    (∃ a, s.accounts.find? x = some a ∧ a.Same a') ∨
      (s.accounts.find? x = none ∧ a'.kind = .fundingClearing ∧
        (∃ now, s'.balances.find? x = some (clearingBalance x now)) ∧
        s'.openings.find? x = some ⟨x, .zero⟩ ∧ s'.postings = s.postings ∧ s'.holds = s.holds) := by
  rcases h.accounts with heq | ⟨account, status, rfl⟩ | ⟨tenant, created, currency, now, s₁, hc, heq⟩
  · exact .inl ⟨a', by rw [← heq, ha'], .refl a'⟩
  · change (s.accounts.update account _).find? x = some a' at ha'
    -- A change of status concerns one account and keeps what the position depends on.
    by_cases hx : x = account
    · subst hx
      rw [Table.find?_update_self] at ha'
      obtain ⟨a, ha, rfl⟩ := Option.map_eq_some_iff.mp ha'
      exact .inl ⟨a, ha, rfl, rfl, rfl, rfl⟩
    · rw [Table.find?_update_ne hx] at ha'
      exact .inl ⟨a', ha', .refl a'⟩
  · obtain ⟨account, haccount, hins⟩ := hc.accounts
    obtain ⟨hid, -, -, hkind⟩ := clearingAccount?_eq_some haccount
    have hfind : s₁.accounts.find? x = some a' := (congrArg (·.accounts.find? x) heq :).symm.trans ha'
    rw [Table.find?_insert? hins, hid] at hfind
    split_ifs at hfind with hx
    -- The clearing account is new, with its own balance and opening.
    · cases hfind
      subst hx
      have hfree := (Table.insert?_eq_some.mp hins).1
      rw [hid] at hfree
      refine .inr ⟨hfree, hkind, ⟨now, ?_⟩, ?_, ?_, ?_⟩
      · rw [heq]
        exact Table.find?_insert?_self hc.balances rfl
      · rw [heq]
        exact Table.find?_insert?_self hc.openings rfl
      · rw [heq, hc.frame]
      · rw [heq, hc.frame]
    · exact .inl ⟨a', hfind, .refl a'⟩

/-- The postings of a journal name accounts of its tenant and currency. -/
theorem Posting.Pair.mem {tenant journal debitId creditId debitAccount creditAccount : Uuid}
    {amount : Bigint} {currency : String} {now : Instant} {t : Table Posting.id}
    (h : Posting.Pair s tenant journal debitId creditId debitAccount creditAccount amount currency
      now t) {p : Posting} (hp : p ∈ t) :
    p = transferPosting tenant debitId journal debitAccount .debit amount currency now ∨
      p = transferPosting tenant creditId journal creditAccount .credit amount currency now ∨
      p ∈ s.postings := by
  obtain ⟨t₁, h₁, h₂⟩ := h.rows
  rw [Table.mem_insert? h₂, Table.mem_insert? h₁] at hp
  tauto

/-- An account of the posting's tenant and currency. -/
def Posting.HasAccount (s : Db) (p : Posting) : Prop :=
  ∃ a, s.accounts.find? p.accountId = some a ∧ a.tenantId = p.tenantId ∧ a.currency = p.currency

/-- The postings of a pair are of accounts of their tenant. -/
theorem Posting.Pair.hasAccount {tenant journal debitId creditId debitAccount creditAccount : Uuid}
    {amount : Bigint} {currency : String} {now : Instant} {t : Table Posting.id}
    (h : Posting.Pair s tenant journal debitId creditId debitAccount creditAccount amount currency
      now t) (hdebit : ∃ a, s.accounts.find? debitAccount = some a ∧ a.tenantId = tenant)
    (hcredit : ∃ a, s.accounts.find? creditAccount = some a ∧ a.tenantId = tenant) {p : Posting}
    (hp : p ∈ t) : p ∈ s.postings ∨ p.HasAccount s := by
  obtain ⟨a, ha, hcur⟩ := h.debit_currency
  obtain ⟨b, hb, hcur'⟩ := h.credit_currency
  rcases h.mem hp with rfl | rfl | hold
  · obtain ⟨a', ha', htenant⟩ := hdebit
    cases ha.symm.trans ha'
    exact .inr ⟨a, ha, htenant, hcur⟩
  · obtain ⟨b', hb', htenant⟩ := hcredit
    cases hb.symm.trans hb'
    exact .inr ⟨b, hb, htenant, hcur'⟩
  · exact .inl hold

/-- The accounts of an admitted transfer are the tenant's. -/
theorem Admitted.accounts {q : TransferRequest} {policy : TransferPolicy}
    {source destination : Balance} (h : Admitted s q policy source destination) :
    (∃ a, s.accounts.find? q.debitAccountId = some a ∧ a.tenantId = q.tenantId) ∧
      ∃ a, s.accounts.find? q.creditAccountId = some a ∧ a.tenantId = q.tenantId := by
  obtain ⟨a, ha, -⟩ := h.source_find
  obtain ⟨b, hb, -⟩ := h.destination_find
  obtain ⟨hfind, -, htenant⟩ := Db.account?_eq_some.mp ha
  obtain ⟨hfind', -, htenant'⟩ := Db.account?_eq_some.mp hb
  exact ⟨⟨a, hfind, htenant⟩, b, hfind', htenant'⟩

/-- A posting that is there was there before, or it names an account of its tenant and
currency. -/
theorem Change.posting (h : Change d s s') {p : Posting} (hp : p ∈ s'.postings) :
    p ∈ s.postings ∨ p.HasAccount s := by
  -- All changes but the postings of a journal keep the postings.
  have hkeep : s'.postings = s.postings → p ∈ s.postings ∨ p.HasAccount s := fun heq =>
    .inl (heq ▸ hp)
  cases h with
  | quiet frame => exact hkeep (by rw [frame])
  | status => exact hkeep rfl
  | claimed _ frame => exact hkeep (by rw [frame])
  | cleared h frame => exact hkeep (by rw [frame, h.frame])
  | rejected h => exact hkeep (by rw [h.frame]; rfl)
  | posted h => exact h.postings.hasAccount h.admitted.accounts.1 h.admitted.accounts.2 hp
  | corrected h =>
    obtain ⟨a, b, ha, -⟩ := h.accounts.source
    obtain ⟨a', b', ha', -⟩ := h.accounts.destination
    obtain ⟨hfind, -, htenant⟩ := Db.account?_eq_some.mp ha
    obtain ⟨hfind', -, htenant'⟩ := Db.account?_eq_some.mp ha'
    exact h.postings.hasAccount ⟨a, hfind, htenant⟩ ⟨a', hfind', htenant'⟩ hp
  | funded h =>
    refine h.postings.hasAccount ?_ ?_ hp
    · unfold FundingEvent.debitAccountId
      split_ifs
      · exact h.system_tenant
      · exact h.destination_tenant
    · unfold FundingEvent.creditAccountId
      split_ifs
      · exact h.destination_tenant
      · exact h.system_tenant
  | reserved h => exact hkeep (by rw [h.frame])
  | returned _ h => exact hkeep (by rw [h.frame])
  | captured h =>
    have heq : s'.postings = h.mid.postings := (congrArg Db.postings h.frame :)
    exact h.posted.postings.hasAccount h.posted.admitted.accounts.1 h.posted.admitted.accounts.2
      (heq ▸ hp)
  | imported h => exact hkeep (by rw [h.frame])

/-- The hold is between two customer accounts of its tenant and its currency. -/
structure Hold.Placed (k : Hold) (s : Db) : Prop where
  currency : IsCurrency k.currency
  source : ∃ a, s.accounts.find? k.debitAccountId = some a ∧ a.tenantId = k.tenantId ∧
    a.currency = k.currency ∧ a.kind = .customer
  destination : ∃ a, s.accounts.find? k.creditAccountId = some a ∧ a.tenantId = k.tenantId ∧
    a.currency = k.currency ∧ a.kind = .customer

/-- A hold stays between its accounts. -/
theorem Change.placed (h : Change d s s') {k : Hold} (hk : k.Placed s) : k.Placed s' := by
  have hkept : ∀ x, (∃ a, s.accounts.find? x = some a ∧ a.tenantId = k.tenantId ∧
      a.currency = k.currency ∧ a.kind = .customer) → ∃ a, s'.accounts.find? x = some a ∧
      a.tenantId = k.tenantId ∧ a.currency = k.currency ∧ a.kind = .customer := by
    rintro x ⟨a, ha, htenant, hcurrency, hkind⟩
    obtain ⟨a', ha', hsame⟩ := h.account_kept ha
    exact ⟨a', ha', hsame.tenantId.trans htenant, hsame.currency.trans hcurrency,
      hsame.kind.trans hkind⟩
  exact ⟨hk.currency, hkept _ hk.source, hkept _ hk.destination⟩

/-- A created hold is placed on an account of its tenant. -/
theorem HoldCreated.placed {p : HoldRequest} {clock : HoldClock} {id : Uuid} {ids : ChangeIds}
    (h : HoldCreated p clock id ids s s') : h.hold.Placed s := by
  obtain ⟨-, htenant, hdebit, hcredit, -, hcurrency, -, -⟩ := activeHold?_eq_some h.hold_eq
  obtain ⟨a, ha, hkind, hcur⟩ := h.customer
  obtain ⟨a', ha', htenant', hcur', hkind'⟩ := h.destination
  obtain ⟨hfind, -, htenant₀⟩ := Db.account?_eq_some.mp ha
  exact ⟨hcurrency ▸ h.wellFormed.2.2.1,
    ⟨a, hdebit ▸ hfind, htenant₀.trans htenant.symm, hcur.trans hcurrency.symm, hkind⟩,
    ⟨a', hcredit ▸ ha', htenant'.trans htenant.symm, hcur'.trans hcurrency.symm, hkind'⟩⟩

/-- A hold that is there was there before, perhaps not yet ended, or it is new and between two
customer accounts. -/
theorem Change.hold (h : Change d s s') {k : Hold} (hk : k ∈ s'.holds) :
    k ∈ s.holds ∨
      (∃ k₀ ∈ s.holds, k₀.state = .active ∧ ∃ state now transfer, state ≠ .active ∧
        k = k₀.finish state now transfer) ∨
      (k.state = .active ∧ k.Placed s) := by
  -- Only the calls on holds write the table.
  have hkeep : s'.holds = s.holds → k ∈ s.holds := fun heq => heq ▸ hk
  cases h with
  | quiet frame => exact .inl (hkeep (by rw [frame]))
  | status => exact .inl (hkeep rfl)
  | claimed _ frame => exact .inl (hkeep (by rw [frame]))
  | cleared h frame => exact .inl (hkeep (by rw [frame, h.frame]))
  | rejected h => exact .inl (hkeep (by rw [h.frame]; rfl))
  | posted h => exact .inl (hkeep (by rw [h.frame]))
  | corrected h => exact .inl (hkeep (by rw [h.frame]))
  | funded h => exact .inl (hkeep (by rw [h.frame]))
  | reserved h =>
    rcases (Table.mem_insert? h.holds).mp hk with rfl | hold
    · obtain ⟨-, -, -, -, -, -, hstate, -⟩ := activeHold?_eq_some h.hold_eq
      exact .inr (.inr ⟨hstate, h.placed⟩)
    · exact .inl hold
  -- A hold ends once, released or expired here and captured below.
  | returned final h =>
    rw [h.holds] at hk
    rcases Table.mem_replace hk with rfl | ⟨hold, -⟩
    · refine .inr (.inl ⟨h.hold, Table.mem_of_find? h.find, h.active, _, _, _, ?_, rfl⟩)
      rcases final with rfl | rfl <;> decide
    · exact .inl hold
  | captured h =>
    rw [h.holds] at hk
    rcases Table.mem_replace hk with rfl | ⟨hold, -⟩
    · exact .inr (.inl ⟨h.hold, Table.mem_of_find? h.find, h.active, _, _, _, by decide, rfl⟩)
    · exact .inl hold
  | imported h => exact .inl (hkeep (by rw [h.frame]))

end Accounts

/-! ## Every account stays balanced -/

/-- Postings and holds name accounts that are there, and every account is balanced. -/
structure Booked (s : Db) : Prop where
  balanced : ∀ x a, s.accounts.find? x = some a → ∃ p, s.position? x = some p ∧ p.Balanced
  postings : ∀ p ∈ s.postings, ∃ a, s.accounts.find? p.accountId = some a
  holds : ∀ h ∈ s.holds, h.Placed s

/-- An account that neither a posting nor a hold names has nothing posted and nothing reserved. -/
theorem Booked.untouched {s : Db} (h : Booked s) {x : Uuid} (hx : s.accounts.find? x = none) :
    (∀ dir, s.posted dir x = 0) ∧ s.reserved x = 0 := by
  refine ⟨fun dir => Table.total_eq_zero fun p hp => ?_, Table.total_eq_zero fun k hk => ?_⟩
  · rw [if_neg]
    rintro ⟨rfl, -⟩
    obtain ⟨a, ha⟩ := h.postings p hp
    cases ha.symm.trans hx
  · rw [if_neg]
    rintro ⟨rfl, -⟩
    obtain ⟨a, ha, -⟩ := (h.holds k hk).source
    cases ha.symm.trans hx

/-- A returning call keeps the accounts booked. -/
theorem Change.booked {d : Digest} {s s' : Db} (h : Change d s s') (hs : Booked s) : Booked s' where
  balanced x a' ha' := by
    rcases h.account_new ha' with ⟨a, ha, -⟩ | ⟨hnone, -, ⟨now, hb⟩, ho, hp, hh⟩
    · obtain ⟨p, hp, hbalanced⟩ := hs.balanced x a ha
      obtain ⟨δ, hδ, hp'⟩ := h.position hp
      exact ⟨p + δ, hp', hbalanced.add hδ⟩
    · -- A new account has no postings and no holds, and it opens at zero.
      obtain ⟨hposted, hreserved⟩ := hs.untouched hnone
      refine ⟨0, Db.position?_eq_some.mpr ⟨_, _, hb, ho, ?_⟩, Position.balanced_zero⟩
      have hposted' : ∀ dir, s'.posted dir x = 0 := fun dir => by
        unfold Db.posted
        rw [hp]
        exact hposted dir
      have hreserved' : s'.reserved x = 0 := by
        unfold Db.reserved
        rw [hh]
        exact hreserved
      rw [hposted', hposted', hreserved']
      rfl
  postings p hp := by
    -- Accounts are never removed, and a new posting names two accounts of before.
    have hfound : ∃ a, s.accounts.find? p.accountId = some a := by
      rcases h.posting hp with hold | ⟨a, ha, -⟩
      · exact hs.postings p hold
      · exact ⟨a, ha⟩
    obtain ⟨a, ha⟩ := hfound
    obtain ⟨a', ha', -⟩ := h.account_kept ha
    exact ⟨a', ha'⟩
  holds k hk := by
    apply h.placed
    rcases h.hold hk with hold | ⟨k₀, hold, -, _, _, _, -, rfl⟩ | ⟨-, hplaced⟩
    · exact hs.holds k hold
    · exact ⟨(hs.holds k₀ hold).currency, (hs.holds k₀ hold).source,
        (hs.holds k₀ hold).destination⟩
    · exact hplaced

/-- Every account stands at its opening balance, and nothing is posted or reserved. -/
structure Db.AtOpening (s : Db) : Prop where
  accounts : ∀ a ∈ s.accounts, ∃ b o, s.balances.find? a.id = some b ∧
    s.openings.find? a.id = some o ∧ (b.ledger : ℤ) = o.openingLedger ∧
    (b.available : ℤ) = b.ledger
  postings : s.postings.rows = []
  holds : s.holds.rows = []

/-- A database before its first command: accounts stand at their opening balance, only clearing
accounts may go negative, and no command has left a row. Settings and manifests are any. -/
structure Db.Provisioned (s : Db) : Prop extends s.AtOpening where
  versions : ∀ b ∈ s.balances, (b.version : ℤ) = 0
  clearing : ∀ b ∈ s.balances, b.allowNegative = true →
    ∃ a, s.accounts.find? b.accountId = some a ∧ a.kind = .fundingClearing
  idempotencyRequests : s.idempotencyRequests.rows = []
  transfers : s.transfers.rows = []
  journals : s.journals.rows = []
  velocityEvents : s.velocityEvents.rows = []
  velocityTotals : s.velocityTotals.rows = []
  corrections : s.corrections.rows = []
  fundingEvents : s.fundingEvents.rows = []
  fundingVelocity : s.fundingVelocity.rows = []
  outbox : s.outbox.rows = []
  holdEvents : s.holdEvents.rows = []
  holdJobs : s.holdJobs.rows = []

/-- New settings do not touch what makes a database provisioned. -/
theorem Db.Provisioned.configured {s : Db} (h : s.Provisioned) (st : Settings) :
    ({ s with settings := st } : Db).Provisioned where
  accounts := h.accounts
  postings := h.postings
  holds := h.holds
  versions := h.versions
  clearing := h.clearing
  idempotencyRequests := h.idempotencyRequests
  transfers := h.transfers
  journals := h.journals
  velocityEvents := h.velocityEvents
  velocityTotals := h.velocityTotals
  corrections := h.corrections
  fundingEvents := h.fundingEvents
  fundingVelocity := h.fundingVelocity
  outbox := h.outbox
  holdEvents := h.holdEvents
  holdJobs := h.holdJobs

/-- At the opening the accounts are booked. -/
theorem Db.AtOpening.booked {s : Db} (h : s.AtOpening) : Booked s where
  balanced x a ha := by
    obtain ⟨b, o, hb, ho, hledger, havailable⟩ := h.accounts a (Table.mem_of_find? ha)
    rw [Table.key_of_find? ha] at hb ho
    refine ⟨_, Db.position?_eq_some.mpr ⟨b, o, hb, ho, rfl⟩, ?_, ?_⟩
    · simp [Db.posted, Table.total, h.postings, hledger]
    · simp [Db.reserved, Table.total, h.holds, havailable]
  postings p hp := by
    rw [Table.mem_def, h.postings] at hp
    cases hp
  holds k hk := by
    rw [Table.mem_def, h.holds] at hk
    cases hk

/-- Every history keeps the accounts booked. -/
theorem run_booked (d : Digest) (cs : List Call) {s : Db} (hs : Booked s) :
    Booked (run (exec d) cs s) :=
  run_invariant (fun _ _ _ _ h hb => (exec_change h).booked hb) cs hs

/-- After every history of calls, the ledger amount of every account is its opening balance with
the credits and without the debits, its available amount is what active holds leave of that, and
neither is negative unless the account may go negative. -/
theorem balance_equation (d : Digest) (s : Db) (hs : s.AtOpening) (cs : List Call) :
    ∀ a ∈ (run (exec d) cs s).accounts, ∃ b o,
      (run (exec d) cs s).balances.find? a.id = some b ∧
      (run (exec d) cs s).openings.find? a.id = some o ∧
      (b.ledger : ℤ) = o.openingLedger + (run (exec d) cs s).posted .credit a.id -
        (run (exec d) cs s).posted .debit a.id ∧
      (b.available : ℤ) = b.ledger - (run (exec d) cs s).reserved a.id ∧
      (b.allowNegative = false → 0 ≤ (b.available : ℤ) ∧ 0 ≤ (b.ledger : ℤ)) := by
  intro a ha
  have hbooked := run_booked d cs hs.booked
  obtain ⟨p, hp, hbalanced⟩ := hbooked.balanced a.id a (Table.find?_eq_some.mpr ⟨ha, rfl⟩)
  obtain ⟨b, o, hb, ho, rfl⟩ := Db.position?_eq_some.mp hp
  refine ⟨b, o, hb, ho, ?_, hbalanced.available, fun hneg => ?_⟩
  · rw [add_sub_assoc]
    exact hbalanced.ledger
  · have havailable := b.available_policy
    have hledger := b.ledger_policy
    rw [hneg] at havailable hledger
    exact ⟨havailable.resolve_left (by decide), hledger.resolve_left (by decide)⟩

/-- The sample database is provisioned. -/
theorem Sample.provisioned : Sample.db.Provisioned where
  accounts a ha := by
    rcases List.mem_cons.mp ha with rfl | ha
    -- The sample accounts open at the balance they are given.
    · exact ⟨balance source (big 5000), ⟨source, big 5000⟩, rfl, rfl, rfl, rfl⟩
    · obtain rfl := List.mem_singleton.mp ha
      exact ⟨balance destination .zero, ⟨destination, .zero⟩, rfl, rfl, rfl, rfl⟩
  postings := rfl
  holds := rfl
  versions b hb := by
    rcases List.mem_cons.mp hb with rfl | hb
    · rfl
    · obtain rfl := List.mem_singleton.mp hb
      rfl
  clearing b hb hneg := by
    rcases List.mem_cons.mp hb with rfl | hb
    · cases hneg
    · obtain rfl := List.mem_singleton.mp hb
      cases hneg
  idempotencyRequests := rfl
  transfers := rfl
  journals := rfl
  velocityEvents := rfl
  velocityTotals := rfl
  corrections := rfl
  fundingEvents := rfl
  fundingVelocity := rfl
  outbox := rfl
  holdEvents := rfl
  holdJobs := rfl

/-- The equation after a transfer from the source account, which has been posted. -/
theorem balance_equation_sample : Sample.db.AtOpening ∧
    (run (exec Sample.digest) [Sample.transfer] Sample.db).posted .debit Sample.source = 100 ∧
    ∀ a ∈ (run (exec Sample.digest) [Sample.transfer] Sample.db).accounts, ∃ b o,
      (run (exec Sample.digest) [Sample.transfer] Sample.db).balances.find? a.id = some b ∧
      (run (exec Sample.digest) [Sample.transfer] Sample.db).openings.find? a.id = some o ∧
      (b.ledger : ℤ) = o.openingLedger +
        (run (exec Sample.digest) [Sample.transfer] Sample.db).posted .credit a.id -
        (run (exec Sample.digest) [Sample.transfer] Sample.db).posted .debit a.id ∧
      (b.available : ℤ) =
        b.ledger - (run (exec Sample.digest) [Sample.transfer] Sample.db).reserved a.id ∧
      (b.allowNegative = false → 0 ≤ (b.available : ℤ) ∧ 0 ≤ (b.ledger : ℤ)) :=
  ⟨Sample.provisioned.toAtOpening, by decide +kernel,
    balance_equation Sample.digest Sample.db Sample.provisioned.toAtOpening [Sample.transfer]⟩

end LedgerSync
