import LedgerSync.Journals

/-!
# Corrections under dual control

A transfer is corrected by requests, decisions and postings of any actors in any order. This module
says once what a call can do to the transfers and the corrections (`CorrectionStep`), and carries
the rules of a correction through every history: an original is reversed at most once, a reversal is
never reversed, the two journals cancel on every account, and what a posted correction records of
its three actors satisfies dual control (`Reversing`). The final states of a correction are final
(`correction_final`), and a posting that comes too late moves nothing (`late_post_moves_nothing`).
-/

namespace LedgerSync

open Lib

/-! ## One call -/

/-- The journal of a transfer. -/
def Transfer.HasJournal (s : Db) (x : Transfer) (j : Journal) : Prop :=
  j ∈ s.journals ∧ j.sourceType = .transfer ∧ j.sourceId = x.id

/-- What a call does to the transfers and the corrections. -/
inductive CorrectionStep (s s' : Db) : Prop
  | same (transfers : s'.transfers = s.transfers) (corrections : s'.corrections = s.corrections)
  | submitted {x : Transfer} (transfers : s.transfers.insert? x = some s'.transfers)
      (first : x.compensationOfTransferId = none)
      (journal : x.status = .posted → ∃ j, x.HasJournal s' j)
      (corrections : s'.corrections = s.corrections)
  | requested {k : Correction} {o : Transfer}
      (find : s.transfers.find? k.originalTransferId = some o) (posted : o.status = .posted)
      (first : o.compensationOfTransferId = none) (status : k.status = .requested)
      (corrections : s.corrections.insert? k = some s'.corrections)
      (transfers : s'.transfers = s.transfers)
  /-- A decision, or a lapse that a posting found. -/
  | decided {k k' : Correction} (find : s.corrections.find? k.id = some k) (id : k'.id = k.id)
      (original : k'.originalTransferId = k.originalTransferId)
      (pending : k.status = .requested ∨ k.status = .approved) (status : k'.status ≠ .posted)
      (corrections : s'.corrections = s.corrections.replace k')
      (transfers : s'.transfers = s.transfers)
  | posted {p : CorrectionPost} {ids : CorrectionPostIds} (h : PostedCorrection p ids s s')

/-- A decision keeps the identifier. -/
theorem Correction.decide_id (k : Correction) (v : CorrectionVerdict) (now : Instant) :
    (k.decide v now).id = k.id := by
  unfold Correction.decide
  split_ifs <;> rfl

/-- A decision keeps the original. -/
theorem Correction.decide_original (k : Correction) (v : CorrectionVerdict) (now : Instant) :
    (k.decide v now).originalTransferId = k.originalTransferId := by
  unfold Correction.decide
  split_ifs <;> rfl

/-- A decision sets the status of its verdict. -/
theorem Correction.decide_status (k : Correction) (v : CorrectionVerdict) (now : Instant) :
    (k.decide v now).status = v.status := by
  unfold Correction.decide
  split_ifs <;> rfl

section Step

variable {d : Digest} {c : Call} {s s' : Db}

/-- A posted transfer is stored with its journal, by itself or inside of a capture. -/
theorem PostedTransfer.correctionStep {p : TransferRequest} {ids : TransferIds} {body : Json}
    {s₀ mid : Db} (h : PostedTransfer p ids s₀ mid body) (hbefore : s₀.transfers = s.transfers)
    (htransfers : s'.transfers = mid.transfers) (hjournals : s'.journals = mid.journals)
    (hcorrections : s'.corrections = s.corrections) : CorrectionStep s s' := by
  obtain ⟨hid, -, -, -, -, -, -, -, hof⟩ := pendingTransfer?_eq_some h.row_eq
  have hinsert := h.transfers
  rw [hbefore, ← htransfers] at hinsert
  have hjournal : (h.row.post ids.journal p.now).HasJournal s'
      (transferJournal p.tenantId p.now ids.journal ids.transfer) := by
    refine ⟨?_, rfl, hid.symm⟩
    rw [hjournals]
    exact (Table.mem_insert? h.journals).mpr (.inl rfl)
  exact .submitted hinsert hof (fun _ => ⟨_, hjournal⟩) hcorrections

/-- A returning call submits a transfer, takes a correction one step, or leaves both alone. -/
theorem Effect.correctionStep (h : Effect d c s s') : CorrectionStep s s' := by
  have hkeep : s'.transfers = s.transfers → s'.corrections = s.corrections →
      CorrectionStep s s' := .same
  -- Corrections are written by their four calls, transfers by these and by the submissions.
  cases h with
  | none => exact hkeep rfl rfl
  | rejectedTransfer _ h =>
    obtain ⟨-, -, -, -, -, -, -, -, hof⟩ := pendingTransfer?_eq_some h.row_eq
    exact .submitted h.transfers hof (fun hposted => by cases hposted) (by rw [h.frame]; rfl)
  | postedTransfer _ h => exact h.correctionStep rfl rfl rfl (by rw [h.frame])
  | requestedCorrection find _ corrections frame posted first =>
    exact .requested find posted first rfl corrections (by rw [frame])
  | decidedCorrection find corrections frame pending verdict =>
    exact .decided ((Table.key_of_find? find).symm ▸ find) (Correction.decide_id _ _ _)
      (Correction.decide_original _ _ _) pending
      (by rw [Correction.decide_status]; exact verdict.1) corrections (by rw [frame])
  | lapsedCorrection h =>
    have hfind := h.find
    rw [← Table.key_of_find? hfind] at hfind
    exact @CorrectionStep.decided s s' _ (Correction.lapse _ _) hfind rfl rfl (.inr h.status)
      (by simp [Correction.lapse]) h.corrections (by rw [h.frame])
  | postedCorrection h => exact .posted h
  | createdClearing h => exact hkeep (by rw [h.frame]) (by rw [h.frame])
  | requestedFunding cleared _ _ frame =>
    rcases cleared with rfl | hc
    · exact hkeep (by rw [frame]) (by rw [frame])
    · exact hkeep (by rw [frame, hc.frame]) (by rw [frame, hc.frame])
  | requestedCompensation _ _ _ _ _ _ frame => exact hkeep (by rw [frame]) (by rw [frame])
  | decidedFunding _ _ _ frame => exact hkeep (by rw [frame]) (by rw [frame])
  | postedFunding h => exact hkeep (by rw [h.frame]) (by rw [h.frame])
  | createdHold h => exact hkeep (by rw [h.frame]) (by rw [h.frame])
  | releasedHold h => exact hkeep (by rw [h.frame]) (by rw [h.frame])
  -- The capture posts its transfer in the middle state.
  | capturedHold h =>
    have hmid : s'.corrections = h.mid.corrections := (congrArg Db.corrections h.frame :)
    have hbefore : h.mid.corrections = s.corrections := (congrArg Db.corrections h.posted.frame :)
    have htransfers : s'.transfers = h.mid.transfers := (congrArg Db.transfers h.frame :)
    exact PostedTransfer.correctionStep h.posted (s := s) rfl htransfers
      (congrArg Db.journals h.frame :) (hmid.trans hbefore)
  | deniedCapture frame => exact hkeep (by rw [frame]) (by rw [frame])
  | claimedExpiry _ frame => exact hkeep (by rw [frame]) (by rw [frame])
  | expiredHold h => exact hkeep (by rw [h.frame]) (by rw [h.frame])
  | importedOpenings h => exact hkeep (by rw [h.frame]) (by rw [h.frame])
  | configured => exact hkeep rfl rfl
  | changedStatus => exact hkeep rfl rfl

end Step

/-! ## The pair of a transfer and its reversal -/

/-- What the postings of a journal do to the ledger of an account. -/
def Db.journalNet (s : Db) (j : Journal) (account : Uuid) : ℤ :=
  ((s.postingsOf j.id).map fun p => if p.accountId = account then
    (match p.direction with
    | .debit => -(p.amount : ℤ)
    | .credit => (p.amount : ℤ)) else 0).sum

/-- A journal moves the amount of its postings from the one account to the other. -/
theorem Db.PostedAs.journalNet {s : Db} {j : Journal} {debit credit : Uuid} {amount : Bigint}
    {currency : String} (h : s.PostedAs j debit credit amount currency) (account : Uuid) :
    s.journalNet j account = shift debit credit amount account := by
  obtain ⟨i, i', now, hrows⟩ := h
  unfold Db.journalNet shift
  rw [hrows]
  simp only [transferPosting, List.map_cons, List.map_nil, List.sum_cons, List.sum_nil,
    eq_comm (a := account)]
  split_ifs <;> ring

/-- A transfer that reverses a posted original, which reverses nothing itself. -/
structure Transfer.Reverses (x o : Transfer) : Prop where
  status : x.status = .posted
  original_status : o.status = .posted
  first : o.compensationOfTransferId = none
  tenant : x.tenantId = o.tenantId
  debit : x.debitAccountId = o.creditAccountId
  credit : x.creditAccountId = o.debitAccountId
  amount : x.amount = o.amount
  currency : x.currency = o.currency

/-- Both transfers have their journals, and these cancel on every account. -/
def Db.Cancels (s : Db) (x o : Transfer) : Prop :=
  ∃ j j', x.HasJournal s j ∧ o.HasJournal s j' ∧
    ∀ account, s.journalNet j account + s.journalNet j' account = 0

/-- The journal of a posted transfer moves its amount. -/
theorem Linked.journalNet {s : Db} (hs : Linked s) {x : Transfer} (hx : x ∈ s.transfers)
    {j : Journal} (hj : x.HasJournal s j) (account : Uuid) :
    s.journalNet j account = shift x.debitAccountId x.creditAccountId x.amount account := by
  obtain ⟨hmem, htype, hsource⟩ := hj
  have hshaped := hs.shaped j hmem
  unfold Journal.Shaped at hshaped
  rw [htype] at hshaped
  obtain ⟨y, hy⟩ := hshaped
  have hfind : s.transfers.find? j.sourceId = some x :=
    Table.find?_eq_some.mpr ⟨hx, hsource.symm⟩
  obtain rfl := Option.some.inj (hfind.symm.trans hy.find)
  exact hy.sides.journalNet account

/-- A reversal and its original cancel each other. -/
theorem Transfer.Reverses.cancels {s : Db} (hs : Linked s) {x o : Transfer} (h : x.Reverses o)
    (hx : x ∈ s.transfers) (ho : o ∈ s.transfers) {j j' : Journal} (hj : x.HasJournal s j)
    (hj' : o.HasJournal s j') : s.Cancels x o := by
  refine ⟨j, j', hj, hj', fun account => ?_⟩
  rw [hs.journalNet hx hj, hs.journalNet ho hj', h.debit, h.credit, h.amount, shift_swap]
  unfold shift
  split_ifs <;> ring

/-! ## What holds in every state -/

/-- The actors of a posted correction: in production the requester is neither its approver nor the
actor who posted it. -/
def Correction.Independent (k : Correction) (poster : String) : Prop :=
  ∃ approver, k.approverSubjectId = some approver ∧
    (k.controlMode = .productionDualControl →
      k.requesterSubjectId ≠ approver ∧ k.requesterSubjectId ≠ poster)

/-- The rules of corrections. -/
structure Reversing (s : Db) : Prop where
  journaled : ∀ x ∈ s.transfers, x.status = .posted → ∃ j, x.HasJournal s j
  original : ∀ k ∈ s.corrections, ∃ o, s.transfers.find? k.originalTransferId = some o ∧
    o.status = .posted ∧ o.compensationOfTransferId = none
  reverses : ∀ x ∈ s.transfers, ∀ i, x.compensationOfTransferId = some i →
    ∃ o, s.transfers.find? i = some o ∧ x.Reverses o
  single : ∀ x ∈ s.transfers, ∀ y ∈ s.transfers, x.compensationOfTransferId ≠ none →
    x.compensationOfTransferId = y.compensationOfTransferId → x = y
  posted : ∀ k ∈ s.corrections, k.status = .posted → ∃ x ∈ s.transfers,
    k.compensationTransferId = some x.id ∧
      x.compensationOfTransferId = some k.originalTransferId ∧ k.Independent x.actorSubjectId

section Invariant

variable {d : Digest} {c : Call} {s s' : Db}

/-- A returning call keeps the journal of a transfer. -/
theorem Change.hasJournal (h : Change d s s') {x : Transfer} {j : Journal}
    (hj : x.HasJournal s j) : x.HasJournal s' j := by
  refine ⟨?_, hj.2⟩
  rcases h.journal with ⟨heq, -⟩ | ⟨_, _, _, _, _, hw⟩
  · rw [heq]
    exact hj.1
  · exact (Table.mem_insert? hw.insert).mpr (.inr hj.1)

/-- The compensation that a call posts reverses its original. -/
theorem PostedCorrection.reverses {p : CorrectionPost} {ids : CorrectionPostIds}
    (h : PostedCorrection p ids s s') (hl : Linked s) (hs : Reversing s) :
    (compensationTransfer p ids h.correction h.original).Reverses h.original := by
  have hmem := Table.mem_of_find? h.correction_find
  obtain ⟨o, ho, hstatus, hfirst⟩ := hs.original _ hmem
  obtain rfl := Option.some.inj (h.original_find.symm.trans ho)
  obtain ⟨o', ho', htenant⟩ := hl.corrections _ hmem
  obtain rfl := Option.some.inj (h.original_find.symm.trans ho')
  exact ⟨rfl, hstatus, hfirst, (htenant.trans h.correction_tenant).symm, rfl, rfl, rfl, rfl⟩

/-- What a posted correction records of its actors. -/
theorem PostedCorrection.independent_post {p : CorrectionPost} {ids : CorrectionPostIds}
    (h : PostedCorrection p ids s s') :
    (h.correction.post ids.compensation p.idempotencyKey p.now).Independent p.actorSubjectId := by
  obtain ⟨approver, happrover⟩ := Option.ne_none_iff_exists'.mp h.approver
  refine ⟨approver, happrover, fun hmode => ?_⟩
  obtain ⟨hposter, happ⟩ := h.independent hmode
  refine ⟨fun heq => happ ?_, hposter⟩
  rw [happrover]
  exact congrArg some heq

/-- A new transfer takes over the rules of the others when it keeps them itself. -/
theorem Reversing.insert (hs : Reversing s) {x : Transfer}
    (htransfers : s.transfers.insert? x = some s'.transfers)
    (hjournals : ∀ (y : Transfer) (j : Journal), y.HasJournal s j → y.HasJournal s' j)
    (hjournal : x.status = .posted → ∃ j, x.HasJournal s' j)
    (hreverses : ∀ i, x.compensationOfTransferId = some i →
      ∃ o, s.transfers.find? i = some o ∧ x.Reverses o)
    (hsingle : ∀ y ∈ s.transfers, x.compensationOfTransferId ≠ none →
      x.compensationOfTransferId ≠ y.compensationOfTransferId)
    (hcorrections : s'.corrections = s.corrections) : Reversing s' where
  journaled y hy hposted := by
    rcases (Table.mem_insert? htransfers).mp hy with rfl | hold
    · exact hjournal hposted
    · obtain ⟨j, hj⟩ := hs.journaled y hold hposted
      exact ⟨j, hjournals y j hj⟩
  original k hk := by
    obtain ⟨o, ho, hrest⟩ := hs.original k (hcorrections ▸ hk)
    exact ⟨o, Table.find?_insert?_of_some htransfers ho, hrest⟩
  reverses y hy i hi := by
    have hold : ∃ o, s.transfers.find? i = some o ∧ y.Reverses o := by
      rcases (Table.mem_insert? htransfers).mp hy with rfl | hold
      · exact hreverses i hi
      · exact hs.reverses y hold i hi
    obtain ⟨o, ho, hrest⟩ := hold
    exact ⟨o, Table.find?_insert?_of_some htransfers ho, hrest⟩
  single y hy z hz hne heq := by
    -- Of two transfers with one original, at most one is new.
    rcases (Table.mem_insert? htransfers).mp hy with rfl | hy' <;>
      rcases (Table.mem_insert? htransfers).mp hz with rfl | hz'
    · rfl
    · exact absurd heq (hsingle z hz' hne)
    · exact absurd heq.symm (hsingle y hy' (heq ▸ hne))
    · exact hs.single y hy' z hz' hne heq
  posted k hk hstatus := by
    obtain ⟨y, hy, hrest⟩ := hs.posted k (hcorrections ▸ hk) hstatus
    exact ⟨y, (Table.mem_insert? htransfers).mpr (.inr hy), hrest⟩

/-- A change of the corrections keeps the rules when every correction that it leaves has an
original and, once it is posted, its compensation. -/
theorem Reversing.corrections (hs : Reversing s) (htransfers : s'.transfers = s.transfers)
    (hjournals : ∀ (y : Transfer) (j : Journal), y.HasJournal s j → y.HasJournal s' j)
    (horiginal : ∀ k ∈ s'.corrections, ∃ o, s.transfers.find? k.originalTransferId = some o ∧
      o.status = .posted ∧ o.compensationOfTransferId = none)
    (hposted : ∀ k ∈ s'.corrections, k.status = .posted → ∃ x ∈ s.transfers,
      k.compensationTransferId = some x.id ∧
        x.compensationOfTransferId = some k.originalTransferId ∧
        k.Independent x.actorSubjectId) : Reversing s' where
  journaled y hy hstatus := by
    obtain ⟨j, hj⟩ := hs.journaled y (htransfers ▸ hy) hstatus
    exact ⟨j, hjournals y j hj⟩
  original := by
    rw [htransfers]
    exact horiginal
  reverses := by
    rw [htransfers]
    exact hs.reverses
  single := by
    rw [htransfers]
    exact hs.single
  posted := by
    rw [htransfers]
    exact hposted

/-- A posted correction: first its transfer, then the correction that names it. -/
theorem PostedCorrection.reversing {p : CorrectionPost} {ids : CorrectionPostIds}
    (h : PostedCorrection p ids s s') (hl : Linked s) (hs : Reversing s)
    (hjournals : ∀ (y : Transfer) (j : Journal), y.HasJournal s j → y.HasJournal s' j) :
    Reversing s' := by
  have hkey : h.original.id = h.correction.originalTransferId := Table.key_of_find? h.original_find
  -- The state after the insertion and before the change of the correction.
  have hmid : Reversing { s' with corrections := s.corrections } := by
    refine hs.insert h.transfers hjournals (fun _ => ?_) (fun i hi => ?_) (fun y hy _ heq => ?_) rfl
    · exact ⟨transferJournal p.tenantId p.now ids.journal ids.compensation,
        (Table.mem_insert? h.journals).mpr (.inl rfl), rfl, rfl⟩
    · cases hi
      exact ⟨h.original, hkey ▸ h.original_find, h.reverses hl hs⟩
    · exact h.uncompensated ⟨y, hy, .inr ⟨by simp [compensationTransfer], heq⟩⟩
  -- The correction itself is changed last.
  refine hmid.corrections rfl (fun _ _ hj => hj) (fun k hk => ?_) (fun k hk hstatus => ?_)
  · rw [h.corrections] at hk
    rcases Table.mem_replace hk with rfl | ⟨hold, -⟩
    · exact hmid.original h.correction (Table.mem_of_find? h.correction_find)
    · exact hmid.original k hold
  · rw [h.corrections] at hk
    rcases Table.mem_replace hk with rfl | ⟨hold, -⟩
    · exact ⟨_, (Table.mem_insert? h.transfers).mpr (.inl rfl), rfl, congrArg some hkey,
        h.independent_post⟩
    · exact hmid.posted k hold hstatus

/-- A returning call keeps every reversal with its original. -/
theorem Effect.reversing (h : Effect d c s s') (hl : Linked s) (hs : Reversing s) :
    Reversing s' := by
  -- A journal once written stays.
  have hjournals : ∀ (y : Transfer) (j : Journal), y.HasJournal s j → y.HasJournal s' j :=
    fun _ _ => h.change.hasJournal
  cases h.correctionStep with
  | same transfers corrections =>
    refine hs.corrections transfers hjournals ?_ ?_
    · rw [corrections]
      exact hs.original
    · rw [corrections]
      exact hs.posted
  | submitted transfers first journal corrections =>
    -- A submitted transfer has no original.
    refine hs.insert transfers hjournals journal (fun i hi => ?_) (fun _ _ hne => ?_) corrections
    · cases first.symm.trans hi
    · exact absurd first hne
  | requested find posted first status corrections transfers =>
    refine hs.corrections transfers hjournals (fun k hk => ?_) (fun k hk hposted => ?_)
    · rcases (Table.mem_insert? corrections).mp hk with rfl | hold
      · exact ⟨_, find, posted, first⟩
      · exact hs.original k hold
    -- A requested correction is not posted.
    · rcases (Table.mem_insert? corrections).mp hk with rfl | hold
      · cases status.symm.trans hposted
      · exact hs.posted k hold hposted
  | decided find id original pending status corrections transfers =>
    refine hs.corrections transfers hjournals (fun k hk => ?_) (fun k hk hposted => ?_)
    · rw [corrections] at hk
      rcases Table.mem_replace hk with rfl | ⟨hold, -⟩
      · rw [original]
        exact hs.original _ (Table.mem_of_find? find)
      · exact hs.original k hold
    · rw [corrections] at hk
      rcases Table.mem_replace hk with rfl | ⟨hold, -⟩
      -- Neither is one that was decided.
      · exact absurd hposted status
      · exact hs.posted k hold hposted
  | posted h => exact h.reversing hl hs hjournals

/-- At first there are no corrections. -/
theorem Db.Provisioned.reversing (h : s.Provisioned) : Reversing s where
  journaled x hx := by
    rw [Table.mem_def, h.transfers] at hx
    cases hx
  original k hk := by
    rw [Table.mem_def, h.corrections] at hk
    cases hk
  reverses x hx := by
    rw [Table.mem_def, h.transfers] at hx
    cases hx
  single x hx := by
    rw [Table.mem_def, h.transfers] at hx
    cases hx
  posted k hk := by
    rw [Table.mem_def, h.corrections] at hk
    cases hk

/-- Every history keeps every reversal with its original. -/
theorem run_reversing (d : Digest) (cs : List Call) (hs : s.Provisioned) :
    Linked (run (exec d) cs s) ∧ Reversing (run (exec d) cs s) := by
  refine run_invariant (I := fun s => Linked s ∧ Reversing s) (fun _ _ _ _ h hI => ?_) cs
    ⟨hs.linked, hs.reversing⟩
  have heffect := exec_effect h
  exact ⟨heffect.linked hI.1, heffect.reversing hI.1 hI.2⟩

end Invariant

/-! ## Final states, and postings that come too late -/

/-- A correction that was decided for good. -/
def Correction.Final (k : Correction) : Prop :=
  k.status = .posted ∨ k.status = .rejected ∨ k.status = .cancelled ∨ k.status = .expired

/-- A final correction waits for nothing. -/
theorem Correction.Final.not_pending {k : Correction} (h : k.Final) :
    ¬(k.status = .requested ∨ k.status = .approved) := by
  rcases h with h | h | h | h <;> simp [h]

/-- A final correction stays as it is. -/
theorem CorrectionStep.final {s s' : Db} (h : CorrectionStep s s') {k : Correction}
    (hk : s.corrections.find? k.id = some k) (hfinal : k.Final) :
    s'.corrections.find? k.id = some k := by
  -- A correction that is replaced is pending, so it is another one.
  have hreplace : ∀ {i : Uuid} {x y : Correction}, s.corrections.find? i = some x → y.id = i →
      (x.status = .requested ∨ x.status = .approved) →
      (s.corrections.replace y).find? k.id = some k := by
    rintro i x y hx rfl hpending
    rw [Table.find?_replace_ne]
    · exact hk
    · intro heq
      rw [heq] at hk
      obtain rfl := Option.some.inj (hk.symm.trans hx)
      exact hfinal.not_pending hpending
  cases h with
  | same _ corrections => rw [corrections]; exact hk
  | submitted _ _ _ corrections => rw [corrections]; exact hk
  | requested _ _ _ _ corrections => exact Table.find?_insert?_of_some corrections hk
  | decided find id _ pending _ corrections =>
    rw [corrections]
    exact hreplace find id pending
  | posted h =>
    have hkey := Table.key_of_find? h.correction_find
    rw [h.corrections]
    exact hreplace h.correction_find hkey (.inr h.correction_status)

/-- No later call changes a correction that is posted, rejected, cancelled or expired. -/
theorem correction_final (d : Digest) (cs : List Call) {s : Db} {k : Correction}
    (hk : s.corrections.find? k.id = some k) (hfinal : k.Final) :
    (run (exec d) cs s).corrections.find? k.id = some k :=
  run_invariant (I := fun s => s.corrections.find? k.id = some k)
    (fun _ _ _ _ h hI => (exec_effect h).correctionStep.final hI hfinal) cs hk

/-- No amount, journal, posting or transfer differs. -/
structure Db.SameMoney (s s' : Db) : Prop where
  balances : s'.balances = s.balances
  transfers : s'.transfers = s.transfers
  journals : s'.journals = s.journals
  postings : s'.postings = s.postings

/-- A posting at the end of the approval window or after it moves nothing. -/
theorem late_post_moves_nothing (d : Digest) {s : Db} (sess : Session) (p : CorrectionPost)
    (ids : CorrectionPostIds) {k : Correction} (hk : s.corrections.find? p.correctionId = some k)
    (hlate : k.approvalExpiresAt ≤ p.now) :
    s.SameMoney (commit (exec d (.postCorrection sess p ids)) s) := by
  rcases commit_cases (exec d (.postCorrection sess p ids)) s with h | ⟨u, h⟩
  · rw [h]
    exact ⟨rfl, rfl, rfl, rfl⟩
  · generalize commit (exec d (.postCorrection sess p ids)) s = s' at h
    cases exec_effect h with
    | none => exact ⟨rfl, rfl, rfl, rfl⟩
    | lapsedCorrection h =>
      rw [h.frame]
      exact ⟨rfl, rfl, rfl, rfl⟩
    | postedCorrection h =>
      obtain rfl := Option.some.inj (h.correction_find.symm.trans hk)
      exact absurd h.unexpired (not_lt.mpr hlate)

/-- After every history of requests, decisions and postings by any actors at any times, mixed with
any other calls: a transfer that reverses another reverses a posted transfer that reverses nothing
itself, with swapped accounts and the same amount and currency, and it is the only one that does;
the journals of the two cancel on every account; corrections are only of transfers that reverse
nothing; a posted correction names its reversal, and in production its requester is neither its
approver nor the actor of the reversal; posted, rejected, cancelled and expired corrections never
change again; and a posting at or after the end of the approval window moves nothing. -/
theorem corrections_controlled (d : Digest) (s : Db) (hs : s.Provisioned) (cs : List Call) :
    (∀ x ∈ (run (exec d) cs s).transfers, ∀ i, x.compensationOfTransferId = some i →
      ∃ o, (run (exec d) cs s).transfers.find? i = some o ∧ x.Reverses o ∧
        (run (exec d) cs s).Cancels x o ∧
        ∀ y ∈ (run (exec d) cs s).transfers, y.compensationOfTransferId = some i → y = x) ∧
    (∀ k ∈ (run (exec d) cs s).corrections,
      ∃ o, (run (exec d) cs s).transfers.find? k.originalTransferId = some o ∧
        o.status = .posted ∧ o.compensationOfTransferId = none) ∧
    (∀ k ∈ (run (exec d) cs s).corrections, k.status = .posted →
      ∃ x ∈ (run (exec d) cs s).transfers, k.compensationTransferId = some x.id ∧
        x.compensationOfTransferId = some k.originalTransferId ∧
        k.Independent x.actorSubjectId) ∧
    (∀ k ∈ (run (exec d) cs s).corrections, k.Final → ∀ later,
      (run (exec d) (cs ++ later) s).corrections.find? k.id = some k) ∧
    ∀ sess p ids k, (run (exec d) cs s).corrections.find? p.correctionId = some k →
      k.approvalExpiresAt ≤ p.now →
      (run (exec d) cs s).SameMoney
        (commit (exec d (.postCorrection sess p ids)) (run (exec d) cs s)) := by
  obtain ⟨hlinked, hreversing⟩ := run_reversing d cs hs
  refine ⟨fun x hx i hi => ?_, hreversing.original, hreversing.posted, fun k hk hfinal later => ?_,
    fun sess p ids k hk hlate => late_post_moves_nothing d sess p ids hk hlate⟩
  · obtain ⟨o, ho, hrev⟩ := hreversing.reverses x hx i hi
    obtain ⟨j, hj⟩ := hreversing.journaled x hx hrev.status
    obtain ⟨j', hj'⟩ := hreversing.journaled o (Table.mem_of_find? ho) hrev.original_status
    refine ⟨o, ho, hrev, hrev.cancels hlinked hx (Table.mem_of_find? ho) hj hj', fun y hy hyi => ?_⟩
    exact hreversing.single y hy x hx (by simp [hyi]) (hyi.trans hi.symm)
  · rw [run_append]
    exact correction_final d later (Table.find?_eq_some.mpr ⟨hk, rfl⟩) hfinal

namespace Sample

/-- The settings with a member of finance. -/
def correctionSettings : Settings :=
  { settings with subjectRoles := [⟨tenant, alice, .operator⟩, ⟨tenant, "fiona", .finance⟩] }

/-- The fingerprint of the request to correct the transfer. -/
def correctionFingerprint : Bytes :=
  [209, 167, 136, 108, 210, 32, 123, 129, 38, 185, 161, 159, 80, 55, 140, 84, 240, 220, 143, 36, 0,
    226, 176, 89, 109, 236, 1, 11, 122, 153, 156, 171]

/-- SHA-256 of the transfer and of the request to correct it. -/
def correctionDigest : Digest :=
  digestOf (("\x00".intercalate ["00000000-0000-0000-0000-000000000001", "alice",
    "00000000-0000-0000-0000-000000000064", "duplicate", "paid twice"], correctionFingerprint) ::
      digests)

/-- Alice asks for the correction of her transfer, Fiona approves it and posts it. -/
def correctionCalls : List Call :=
  [transfer,
    .requestCorrection session
      { tenant := tenant
        actor := alice
        original := uuid 100
        reason := "duplicate"
        note := "paid twice"
        key := "sample-correction-1"
        fingerprint := correctionFingerprint
        correlation := uuid 5
        requestedAt := hour 1
        stepUp := none }
      ⟨uuid 500, uuid 501, uuid 502⟩,
    .decideCorrection ⟨tenant.text, "fiona", false⟩
      { tenant := tenant
        actor := "fiona"
        correction := uuid 500
        decision := .approved
        reason := "seen"
        correlation := uuid 5
        decidedAt := hour 1
        stepUp := none }
      ⟨uuid 510, uuid 511, uuid 512⟩,
    .postCorrection ⟨tenant.text, "fiona", false⟩
      { tenantId := tenant
        actorSubjectId := "fiona"
        correctionId := uuid 500
        idempotencyKey := "sample-correction-post-1"
        correlationId := uuid 5
        occurredAt := hour 1
        stepUp := none }
      ⟨uuid 520, uuid 521, uuid 522, uuid 523, uuid 524, uuid 525, uuid 526, uuid 527⟩]

/-- The database with these settings. -/
def correctionDb : Db := { db with settings := correctionSettings }

end Sample

/-- A transfer, the request to correct it, its approval and its posting: the reversal is stored, and
its journal cancels that of the transfer. -/
theorem corrections_controlled_sample : Sample.correctionDb.Provisioned ∧
    ∃ x ∈ (run (exec Sample.correctionDigest) Sample.correctionCalls Sample.correctionDb).transfers,
      x.compensationOfTransferId = some (Sample.uuid 100) ∧
      ∃ o, (run (exec Sample.correctionDigest) Sample.correctionCalls
          Sample.correctionDb).transfers.find? (Sample.uuid 100) = some o ∧ x.Reverses o ∧
        (run (exec Sample.correctionDigest) Sample.correctionCalls
          Sample.correctionDb).Cancels x o := by
  have hprovisioned := Sample.provisioned.configured Sample.correctionSettings
  have hposted : (run (exec Sample.correctionDigest) Sample.correctionCalls
      Sample.correctionDb).transfers.rows.any
      (fun x => x.compensationOfTransferId = some (Sample.uuid 100)) = true := by decide +kernel
  obtain ⟨x, hx, hof⟩ := List.any_eq_true.mp hposted
  obtain ⟨o, ho, hrev, hcancels, -⟩ := (corrections_controlled Sample.correctionDigest
    Sample.correctionDb hprovisioned Sample.correctionCalls).1 x hx _ (of_decide_eq_true hof)
  exact ⟨hprovisioned, x, hx, of_decide_eq_true hof, o, ho, hrev, hcancels⟩

end LedgerSync
