import LedgerSync.TransferExplanations

/-!
# What explanations show

An explanation that calls itself complete is to show every stored row of each kind, and the stage of
the balance versions is to show the version that the posting left each account with. In the states
that commands reach all stages but two do. The stage of the balance versions leaves out an account
that had a reserved amount when the transfer was posted, and the stage of reconciliation shows the
latest of the runs that cover the transfer (`explanation_honest_iff`).
-/

namespace LedgerSync

open Lib

/-! ## Promises -/

/-- The items of all stored rows of a kind. -/
def storedEvidence (s : Db) (ev : EvidenceSource) (x : Transfer) : StageKind → List EvidenceItem
  | .request => (linkedRequests s x).map (requestItem ev x)
  | .transfer => [transferItem x]
  | .journalPostings =>
    (linkedJournals s x).map (journalItem x) ++ (linkedPostings s x).map (postingItem x)
  | .balanceVersions =>
    ((linkedEvents s x).filter fun e => e.IsBalance).map (versionItem x)
  | .outbox => (linkedEvents s x).map (outboxItem ev x)
  | .delivery => (linkedAttempts ev x).map (deliveryItem s)
  | .reconciliation => (coveringRuns s ev x).map (runItem x)

/-- The stage of the balance versions has exactly one item for the account of each balance, with the
version of the balance, unless it is truncated. -/
def ExplainabilityTimeline.ShowsVersions (tl : ExplainabilityTimeline) (balances : List Balance) :
    Prop :=
  ∀ st ∈ tl.stages, st.kind = .balanceVersions → st.truncated = true ∨ ∀ b ∈ balances,
    ∃ item, st.evidence.filter (fun i => i.accountId = b.accountId.text) = [item] ∧
      item.balanceVersion = b.version.text

/-- A timeline that calls itself complete shows all stored rows. -/
def ExplainabilityTimeline.CompleteHonestly (tl : ExplainabilityTimeline) (s : Db)
    (ev : EvidenceSource) (x : Transfer) : Prop :=
  tl.complete = true → ∀ st ∈ tl.stages, st.evidence.Perm (storedEvidence s ev x st.kind)

/-! ## Links and stages -/

section Links

variable {ρ : Type} {limit : ℕ} {le : ρ → ρ → Bool} {rows : List ρ} {item : ρ → EvidenceItem}

/-- The link of a bounded query. -/
abbrev boundedRows (limit : ℕ) (le : ρ → ρ → Bool) (rows : List ρ) (item : ρ → EvidenceItem) :
    EvidenceLink :=
  .bounded limit ((selectFirst (limit + 1) le rows).map item)

/-- A selection within its limit is all of the rows, in another order perhaps. -/
theorem selectFirst_perm (h : rows.length ≤ limit) : (selectFirst limit le rows).Perm rows := by
  unfold selectFirst
  rw [List.take_of_length_le (by rw [List.length_mergeSort]; exact h)]
  exact List.mergeSort_perm rows le

/-- A selection has as many rows as there are, up to its limit. -/
theorem length_selectFirst : (selectFirst limit le rows).length = min limit rows.length := by
  unfold selectFirst
  rw [List.length_take, List.length_mergeSort]

/-- Evidence within its limit is shown as it is. -/
theorem bounded_of_le {items : List EvidenceItem} (h : items.length ≤ limit) :
    EvidenceLink.bounded limit items = { items := items } := by
  unfold EvidenceLink.bounded
  rw [if_neg (not_lt.mpr h)]

/-- Evidence that is cut is not unavailable. -/
@[simp]
theorem unavailable_bounded (limit : ℕ) (items : List EvidenceItem) :
    (EvidenceLink.bounded limit items).unavailable = false := by
  unfold EvidenceLink.bounded
  split <;> rfl

/-- Evidence is cut exactly when there is more than its limit. -/
@[simp]
theorem truncated_bounded (limit : ℕ) (items : List EvidenceItem) :
    (EvidenceLink.bounded limit items).truncated = decide (limit < items.length) := by
  unfold EvidenceLink.bounded
  split
  next h => exact (decide_eq_true h).symm
  next h => exact (decide_eq_false h).symm

/-- The link is truncated when there are more rows than it keeps. -/
theorem truncated_boundedRows :
    (boundedRows limit le rows item).truncated = decide (limit < rows.length) := by
  rw [truncated_bounded, List.length_map, length_selectFirst]
  congr 1
  rw [lt_min_iff]
  exact propext ⟨fun h => h.2, fun h => ⟨Nat.lt_succ_self limit, h⟩⟩

/-- A link that is not truncated has all rows. -/
theorem boundedRows_of_le (h : rows.length ≤ limit) :
    (boundedRows limit le rows item).items.Perm (rows.map item) := by
  have hperm : (selectFirst (limit + 1) le rows).Perm rows :=
    selectFirst_perm (h.trans (Nat.le_succ limit))
  rw [boundedRows, bounded_of_le (by rw [List.length_map, hperm.length_eq]; exact h)]
  exact hperm.map item

/-- A link of at most `limit` rows has an item when there is a row. -/
theorem boundedRows_eq_nil (h : rows.length ≤ limit) :
    (boundedRows limit le rows item).items = [] ↔ rows = [] := by
  rw [← List.length_eq_zero_iff, (boundedRows_of_le h).length_eq, List.length_map,
    List.length_eq_zero_iff]

/-- The link is read in full and has an item. -/
structure EvidenceLink.Full (link : EvidenceLink) : Prop where
  available : link.unavailable = false
  some : link.items ≠ []
  whole : link.truncated = false

/-- The link of a bounded query is full when there is a row and no more than the bound. -/
theorem boundedRows_full :
    (boundedRows limit le rows item).Full ↔ rows ≠ [] ∧ rows.length ≤ limit := by
  constructor
  · rintro ⟨-, hsome, hwhole⟩
    rw [truncated_boundedRows, decide_eq_false_iff_not, not_lt] at hwhole
    exact ⟨fun hnil => hsome ((boundedRows_eq_nil hwhole).mpr hnil), hwhole⟩
  · rintro ⟨hsome, hle⟩
    refine ⟨unavailable_bounded _ _, fun hnil => hsome ((boundedRows_eq_nil hle).mp hnil), ?_⟩
    rw [truncated_boundedRows]
    exact decide_eq_false (not_lt.mpr hle)

variable {sequence : ℕ} {kind : StageKind} {link : EvidenceLink} {reason : String}

/-- A stage is of its kind. -/
@[simp]
theorem kind_stage : (stage sequence kind link reason).kind = kind := by
  unfold stage
  split
  · rfl
  · split <;> rfl

/-- A stage is cut when its evidence is. -/
@[simp]
theorem truncated_stage : (stage sequence kind link reason).truncated = link.truncated := by
  unfold stage
  split
  · rfl
  · split <;> rfl

/-- A stage shows the items of a link that could be read. -/
theorem stage_perm (h : link.unavailable = false) :
    (stage sequence kind link reason).evidence.Perm link.items := by
  unfold stage
  rw [if_neg (by rw [h]; exact Bool.false_ne_true)]
  split
  next hnil =>
    rw [hnil]
  next => exact List.mergeSort_perm _ _

/-- A stage passes the test for completeness when its link is full. -/
theorem stage_passes : ((stage sequence kind link reason).state = .available ∧
    (stage sequence kind link reason).truncated = false) ↔ link.Full := by
  rw [truncated_stage]
  unfold stage
  constructor
  · rintro ⟨hstate, hwhole⟩
    split at hstate
    · cases hstate
    · next havailable =>
      split at hstate
      · cases hstate
      · next hsome => exact ⟨Bool.eq_false_iff.mpr havailable, hsome, hwhole⟩
  · rintro ⟨havailable, hsome, hwhole⟩
    rw [if_neg (by rw [havailable]; exact Bool.false_ne_true), if_neg hsome]
    exact ⟨rfl, hwhole⟩

/-- The rule for journals without postings leaves a stage with more items as it is. -/
theorem withPostings_of_two {st : TimelineStage} (h : 2 ≤ st.evidence.length) :
    st.withPostings = st := by
  unfold TimelineStage.withPostings
  split
  next item hitem =>
    rw [hitem, List.length_singleton] at h
    omega
  next => rfl

end Links

/-! ## Posted transfers -/

section Posted

variable {s : Db} {ev : EvidenceSource} {x : Transfer} {b b' : Balance}

/-- The events of a posted transfer are its tenant's. -/
theorem Told.linkedEvents (h : Told (s.transferEvents x.id) x b b') :
    linkedEvents s x = s.transferEvents x.id := by
  obtain ⟨rest, e, e', hsplit, he, he', -, hrest⟩ := h.split
  have htenant : ∀ y ∈ s.transferEvents x.id, y.tenantId = x.tenantId := by
    intro y hy
    rw [hsplit] at hy
    rcases List.mem_append.mp hy with hy | hy
    · exact (hrest y hy).1
    · rcases List.mem_cons.mp hy with rfl | hy
      · exact he'.tenant
      · obtain rfl := List.mem_singleton.mp hy
        exact he.tenant
  unfold LedgerSync.linkedEvents Db.transferEvents transferEventsIn
  refine List.filter_congr fun y hy => ?_
  rw [decide_eq_decide]
  refine and_iff_right_of_imp fun htransfer => htenant y ?_
  exact List.mem_filter.mpr ⟨hy, decide_eq_true htransfer⟩

/-- A posted transfer has two events, or three. -/
theorem Told.length (h : Told (s.transferEvents x.id) x b b') :
    2 ≤ (LedgerSync.linkedEvents s x).length ∧ (LedgerSync.linkedEvents s x).length ≤ 3 := by
  obtain ⟨rest, e, e', hsplit, -, -, hlength, -⟩ := h.split
  rw [h.linkedEvents, hsplit, List.length_append, List.length_cons, List.length_singleton]
  omega

/-- An event that tells a balance is an event of balances. -/
theorem OutboxEvent.Tells.isBalance {e : OutboxEvent} (h : e.Tells x b) : e.IsBalance := by
  unfold OutboxEvent.IsBalance
  rw [h.eventType]
  by_cases heq : b.ledger ≠ b.available
  · rw [if_pos heq]
    exact .inr rfl
  · rw [if_neg heq]
    exact .inl rfl

/-- The event is of the first version when nothing is reserved. -/
theorem OutboxEvent.Tells.first {e : OutboxEvent} (h : e.Tells x b) :
    e.eventType = balanceChangedV1 ↔ b.ledger = b.available := by
  rw [h.eventType]
  by_cases heq : b.ledger ≠ b.available
  · rw [if_pos heq]
    exact iff_of_false (by decide) heq
  · rw [if_neg heq]
    exact iff_of_true rfl (not_not.mp heq)

/-- The balance events of a posted transfer. -/
theorem Told.balanceEvents (h : Told (s.transferEvents x.id) x b b') : ∃ e e', e.Tells x b ∧
    e'.Tells x b' ∧ ((LedgerSync.linkedEvents s x).filter fun e => e.IsBalance) = [e', e] ∧
      ((LedgerSync.linkedEvents s x).filter fun e => e.eventType = balanceChangedV1) =
        [e', e].filter fun e => e.eventType = balanceChangedV1 := by
  obtain ⟨rest, e, e', hsplit, he, he', -, hrest⟩ := h.split
  have hbalance : (rest.filter fun e => decide e.IsBalance) = [] := by
    rw [List.filter_eq_nil_iff]
    intro y hy hkept
    exact (hrest y hy).2 (of_decide_eq_true hkept)
  have hfirst : (rest.filter fun e => e.eventType = balanceChangedV1) = [] := by
    rw [List.filter_eq_nil_iff]
    intro y hy hkept
    exact (hrest y hy).2 (.inl (of_decide_eq_true hkept))
  refine ⟨e, e', he, he', ?_, ?_⟩
  · rw [h.linkedEvents, hsplit, List.filter_append, hbalance, List.nil_append]
    refine List.filter_eq_self.mpr fun y hy => decide_eq_true ?_
    rcases List.mem_cons.mp hy with rfl | hy
    · exact he'.isBalance
    · obtain rfl := List.mem_singleton.mp hy
      exact he.isBalance
  · rw [h.linkedEvents, hsplit, List.filter_append, hfirst, List.nil_append]

/-- A posted transfer has one journal, which it refers to, with two postings. -/
theorem linkedJournals_of_posted (hjournaled : Journaled s) (hlinked : Linked s)
    (hx : x ∈ s.transfers) (hposted : x.status = .posted) :
    ∃ j, x.journalTransactionId = some j.id ∧ linkedJournals s x = [j] ∧
      (linkedPostings s x).length = 2 := by
  have hfind : s.transfers.find? x.id = some x := Table.find?_eq_some.mpr ⟨hx, rfl⟩
  -- Every journal of the transfer has the shape of a transfer's journal.
  have hshape : ∀ k ∈ s.journals, k.transferId = some x.id → TransferShape s k x := by
    intro k hk hid
    have hshaped := hlinked.shaped k hk
    unfold Journal.Shaped at hshaped
    split at hshaped
    · obtain ⟨y, hy⟩ := hshaped
      obtain heq := Option.some.inj (hid.symm.trans hy.transferId)
      have hy' := hy.find
      rw [← heq, hfind] at hy'
      obtain rfl := Option.some.inj hy'
      exact hy
    · obtain ⟨e, he⟩ := hshaped
      rw [he.transferId] at hid
      cases hid
  obtain ⟨j, hj, htype, hsource⟩ := hjournaled x hx hposted
  have hid : j.transferId = some x.id := by
    have hshaped := hlinked.shaped j hj
    unfold Journal.Shaped at hshaped
    rw [htype] at hshaped
    obtain ⟨y, hy⟩ := hshaped
    rw [hy.transferId, hsource]
  have hjshape := hshape j hj hid
  have honly : ∀ k ∈ linkedJournals s x, k = j := by
    intro k hk
    obtain ⟨hmem, hkept⟩ := List.mem_filter.mp hk
    have hk' := hshape k hmem (of_decide_eq_true hkept).2
    have hids := Option.some.inj (hk'.linked.symm.trans hjshape.linked)
    exact Table.eq_of_key hmem hj hids
  have hjmem : j ∈ linkedJournals s x :=
    List.mem_filter.mpr ⟨hj, decide_eq_true ⟨hjshape.tenant.symm, hid⟩⟩
  have hsingle : linkedJournals s x = [j] := by
    have hnodup : (linkedJournals s x).Nodup := s.journals.nodup.of_map.filter _
    exact List.perm_singleton.mp ((List.perm_ext_iff_of_nodup hnodup (List.nodup_singleton j)).mpr
      fun k => ⟨fun hk => List.mem_singleton.mpr (honly k hk),
        fun hk => List.mem_singleton.mp hk ▸ hjmem⟩)
  refine ⟨j, hjshape.linked, hsingle, ?_⟩
  have hpostings : linkedPostings s x = s.postingsOf j.id := by
    unfold linkedPostings Db.postingsOf
    rw [hsingle]
    refine List.filter_congr fun p _ => ?_
    rw [decide_eq_decide]
    simp [eq_comm]
  obtain ⟨i, i', now, hsides⟩ := hjshape.sides
  rw [hpostings, hsides]
  rfl

/-! ## The links of a posted transfer -/

variable (hreads : ∀ r, ev.fails r = false)

include hreads

/-- The evidence of the request is a selection of at most two requests. -/
theorem requestEvidence_eq : ∃ le, requestEvidence s ev x =
    boundedRows 2 le (linkedRequests s x) (requestItem ev x) := by
  unfold requestEvidence
  rw [if_neg (by rw [hreads]; exact Bool.false_ne_true)]
  exact ⟨_, rfl⟩

/-- The evidence of the delivery is a bounded selection of the attempts. -/
theorem deliveryEvidence_eq : ∃ le, deliveryEvidence s ev x =
    boundedRows maxTimelineDelivery le (linkedAttempts ev x) (deliveryItem s) := by
  unfold deliveryEvidence
  rw [if_neg (by rw [hreads]; exact Bool.false_ne_true)]
  exact ⟨_, rfl⟩

/-- The stage of reconciliation has one run, the latest, when there is one. -/
theorem reconciliationEvidence_eq : (reconciliationEvidence s ev x).unavailable = false ∧
    (reconciliationEvidence s ev x).truncated = false ∧
      (reconciliationEvidence s ev x).items.length = min 1 (coveringRuns s ev x).length ∧
        ((coveringRuns s ev x).length ≤ 1 → (reconciliationEvidence s ev x).items.Perm
          ((coveringRuns s ev x).map (runItem x))) := by
  unfold reconciliationEvidence
  rw [if_neg (by rw [hreads]; exact Bool.false_ne_true)]
  refine ⟨rfl, rfl, ?_, fun hone => (selectFirst_perm hone).map _⟩
  rw [List.length_map, length_selectFirst]

/-- The journal and its two postings. -/
theorem journalEvidence_eq {j : Journal} (hid : x.journalTransactionId = some j.id)
    (hjournals : linkedJournals s x = [j]) (hpostings : (linkedPostings s x).length = 2) :
    (journalEvidence s ev x).Full ∧ 2 ≤ (journalEvidence s ev x).items.length ∧
      (journalEvidence s ev x).items.Perm (storedEvidence s ev x .journalPostings) := by
  unfold journalEvidence
  rw [hid]
  dsimp only
  have hfound : ([j].find? fun k => k.id = j.id) = some j :=
    List.find?_cons_of_pos (decide_eq_true (rfl : j.id = j.id))
  rw [if_neg (by rw [hreads]; exact Bool.false_ne_true), hjournals, hfound]
  dsimp only
  rw [if_neg (by rw [hreads]; exact Bool.false_ne_true)]
  generalize hle : (fun p p' : Posting => byTimeAndId p.occurredAt p'.occurredAt p.id p'.id) = le
  -- The journal and its two postings stay under the bound, so that nothing is cut.
  have hperm : (selectFirst (maxTimelinePostings + 1) le (linkedPostings s x)).Perm
      (linkedPostings s x) := selectFirst_perm (by rw [hpostings]; decide)
  have hlength : (journalItem x j :: (selectFirst (maxTimelinePostings + 1) le
      (linkedPostings s x)).map (postingItem x)).length = 3 := by
    rw [List.length_cons, List.length_map, hperm.length_eq, hpostings]
  rw [bounded_of_le (by rw [hlength]; decide)]
  refine ⟨⟨rfl, List.cons_ne_nil _ _, rfl⟩, by rw [hlength]; decide, ?_⟩
  unfold storedEvidence
  rw [hjournals]
  exact (hperm.map _).cons _

/-- The outbox events of a posted transfer, and those of the first version among them. -/
theorem outboxEvidence_eq (h : Told (s.transferEvents x.id) x b b') :
    (outboxEvidence s ev x).1.Full ∧
      (outboxEvidence s ev x).1.items.Perm (storedEvidence s ev x .outbox) ∧
        (outboxEvidence s ev x).2.unavailable = false ∧
          (outboxEvidence s ev x).2.truncated = false ∧ (outboxEvidence s ev x).2.items.Perm
            (((LedgerSync.linkedEvents s x).filter fun e => e.eventType = balanceChangedV1).map
              (versionItem x)) := by
  obtain ⟨htwo, hthree⟩ := h.length
  -- A transfer tells at most three events, below the limit of the read.
  have hperm : (readEvents s x).Perm (LedgerSync.linkedEvents s x) :=
    selectFirst_perm (hthree.trans (by decide))
  have hlength : ((readEvents s x).map (outboxItem ev x)).length ≤ 3 := by
    rw [List.length_map, hperm.length_eq]
    exact hthree
  have hfiltered : (((readEvents s x).filter fun e => e.eventType = balanceChangedV1).map
      (versionItem x)).length ≤ 3 := by
    rw [List.length_map]
    refine (List.length_filter_le _ _).trans ?_
    rw [hperm.length_eq]
    exact hthree
  unfold outboxEvidence
  rw [if_neg (by rw [hreads]; exact Bool.false_ne_true)]
  dsimp only
  rw [bounded_of_le (hlength.trans (by decide)), bounded_of_le (hfiltered.trans (by decide))]
  refine ⟨⟨rfl, ?_, rfl⟩, hperm.map _, rfl, rfl, (hperm.filter _).map _⟩
  -- No item would mean no event, and there are at least two.
  intro hnil
  have hzero : ((readEvents s x).map (outboxItem ev x)).length = 0 := by
    rw [List.length_eq_zero_iff]
    exact hnil
  rw [List.length_map, hperm.length_eq] at hzero
  omega

/-- The items of the balance versions, which are all versions when neither account has a reserved
amount. -/
theorem versionItems (h : Told (s.transferEvents x.id) x b b') : ∃ e e', e.Tells x b ∧ e'.Tells x b' ∧
    storedEvidence s ev x .balanceVersions = [e', e].map (versionItem x) ∧
      (outboxEvidence s ev x).2.items.Perm
        (([e', e].filter fun e => e.eventType = balanceChangedV1).map (versionItem x)) := by
  obtain ⟨e, e', he, he', hbalance, hfirst⟩ := h.balanceEvents
  refine ⟨e, e', he, he', ?_, ?_⟩
  · unfold storedEvidence
    rw [hbalance]
  · rw [← hfirst]
    exact (outboxEvidence_eq hreads h).2.2.2.2

end Posted

/-! ## Stages and their links -/

/-- The link of a kind. -/
def TransferFacts.link (facts : TransferFacts) : StageKind → EvidenceLink
  | .request => facts.request
  | .transfer => facts.transfer
  | .journalPostings => facts.journalPostings
  | .balanceVersions => facts.balanceVersions
  | .outbox => facts.outbox
  | .delivery => facts.delivery
  | .reconciliation => facts.reconciliation

/-- The stage shows the items of its link, and passes the test for completeness with a full link. -/
structure TimelineStage.Of (st : TimelineStage) (link : EvidenceLink) : Prop where
  evidence : st.evidence.Perm link.items
  truncated : st.truncated = link.truncated
  passes : (st.state = .available ∧ st.truncated = false) ↔ link.Full

/-- A stage of evidence that could be read shows it. -/
theorem stage_of {sequence : ℕ} {kind : StageKind} {link : EvidenceLink} {reason : String}
    (h : link.unavailable = false) : (stage sequence kind link reason).Of link :=
  ⟨stage_perm h, truncated_stage, stage_passes⟩

section Stages

variable {facts : TransferFacts} (h : ∀ kind, (facts.link kind).unavailable = false)
  (hpostings : 2 ≤ facts.journalPostings.items.length)

include h hpostings

/-- The stages are one for each kind, of the link of the kind. -/
theorem stages_of : facts.stages.map TimelineStage.kind =
    [.request, .transfer, .journalPostings, .balanceVersions, .outbox, .delivery,
      .reconciliation] ∧ ∀ st ∈ facts.stages, st.Of (facts.link st.kind) := by
  have hjournal : (stage 3 .journalPostings facts.journalPostings "no_journal").withPostings =
      stage 3 .journalPostings facts.journalPostings "no_journal" := by
    have hperm : (stage 3 .journalPostings facts.journalPostings "no_journal").evidence.Perm
        facts.journalPostings.items := stage_perm (h .journalPostings)
    exact withPostings_of_two (hpostings.trans_eq hperm.length_eq.symm)
  unfold TransferFacts.stages
  rw [hjournal]
  refine ⟨by simp only [List.map_cons, List.map_nil, kind_stage], fun st hst => ?_⟩
  simp only [List.mem_cons, List.not_mem_nil, or_false] at hst
  rcases hst with rfl | rfl | rfl | rfl | rfl | rfl | rfl <;> rw [kind_stage]
  · exact stage_of (h .request)
  · exact stage_of (h .transfer)
  · exact stage_of (h .journalPostings)
  · exact stage_of (h .balanceVersions)
  · exact stage_of (h .outbox)
  · exact stage_of (h .delivery)
  · exact stage_of (h .reconciliation)

/-- Every kind of stage is there. -/
theorem exists_stage (kind : StageKind) : ∃ st ∈ facts.stages, st.kind = kind := by
  have hmem : kind ∈ facts.stages.map TimelineStage.kind := by
    rw [(stages_of h hpostings).1]
    cases kind <;> decide
  exact List.mem_map.mp hmem

/-- The stages make a complete timeline when all links are full. -/
theorem complete_iff : (facts.stages.all fun st => st.state = .available && !st.truncated) = true ↔
    ∀ kind, (facts.link kind).Full := by
  have hof := (stages_of h hpostings).2
  have hpasses : ∀ st ∈ facts.stages,
      (st.state = .available && !st.truncated) = true ↔ (facts.link st.kind).Full := by
    intro st hst
    rw [← (hof st hst).passes, Bool.and_eq_true, decide_eq_true_eq, Bool.not_eq_true']
  rw [List.all_eq_true]
  constructor
  · intro hall kind
    obtain ⟨st, hst, rfl⟩ := exists_stage h hpostings kind
    exact (hpasses st hst).mp (hall st hst)
  · intro hfull st hst
    exact (hpasses st hst).mpr (hfull st.kind)

end Stages

/-! ## The answer of the service -/

/-- The text of an identifier has the shape that the service asks for. -/
theorem isCanonicalUuid_text (u : Uuid) : isCanonicalUuid u.text = true := by
  -- No hyphen stands within a part, so that the text splits exactly at the four it puts in.
  have htake : ∀ i j, '-' ∉ ((hexDigits 32 u.toNat).drop i).take j := fun i j hmem =>
    ne_hyphen_of_mem_hexDigits (List.mem_of_mem_drop (List.mem_of_mem_take hmem)) rfl
  have hfirst : '-' ∉ (hexDigits 32 u.toNat).take 8 := htake 0 8
  have hlast : '-' ∉ (hexDigits 32 u.toNat).drop 20 := fun hmem =>
    ne_hyphen_of_mem_hexDigits (List.mem_of_mem_drop hmem) rfl
  unfold isCanonicalUuid
  refine decide_eq_true ⟨?_, ?_⟩
  · rw [Uuid.text, String.toList_ofList]
    simp only [List.append_assoc, List.cons_append]
    rw [List.splitOn_append_cons_self_of_not_mem hfirst,
      List.splitOn_append_cons_self_of_not_mem (htake 8 4),
      List.splitOn_append_cons_self_of_not_mem (htake 12 4),
      List.splitOn_append_cons_self_of_not_mem (htake 16 4), List.splitOn_eq_singleton hlast]
    simp [length_hexDigits]
  -- Every other character is a lower-case hexadecimal digit.
  · refine List.all_eq_true.mpr fun c hc => ?_
    rcases Uuid.mem_text hc with rfl | ⟨d, hd, rfl⟩
    · decide
    · interval_cases d <;> decide

/-- A hexadecimal digit is not a space. -/
theorem isSpace_of_hex {c : Char} (h : (hexValue? c).isSome = true) : isSpace c = false := by
  have hbounds {lo hi : Char} (hle : lo ≤ c ∧ c ≤ hi) :
      lo.toNat ≤ c.toNat ∧ c.toNat ≤ hi.toNat := by
    have hval : lo.val.toNat ≤ c.val.toNat ∧ c.val.toNat ≤ hi.val.toNat := by
      simpa only [Char.le_def, UInt32.le_iff_toNat_le] using hle
    exact hval
  -- Hexadecimal digits lie between the digit 0 and the letter f, all of them visible.
  have hrange : '0'.toNat ≤ c.toNat ∧ c.toNat ≤ 'f'.toNat := by
    unfold hexValue? at h
    split at h
    next hdigit =>
      have hle : '0' ≤ c ∧ c ≤ '9' := by simpa [Char.isDigit, Char.le_def] using hdigit
      exact ⟨(hbounds hle).1, (hbounds hle).2.trans (by decide)⟩
    next =>
      split at h
      next hlower => exact ⟨(hbounds hlower).1.trans' (by decide), (hbounds hlower).2⟩
      next =>
        split at h
        next hupper =>
          exact ⟨(hbounds hupper).1.trans' (by decide), (hbounds hupper).2.trans (by decide)⟩
        next => cases h
  have hlo : 33 ≤ '0'.toNat := by decide
  have hhi : 'f'.toNat ≤ 126 := by decide
  exact isSpace_of_visible (hlo.trans hrange.1) (hrange.2.trans hhi)

/-- What a scope accepts as a tenant and an actor is not blank. -/
theorem TenantScope.not_blank {tenantId actorId : String} {scope : TenantScope}
    (h : TenantScope.canonical ⟨tenantId, actorId⟩ = some scope) :
    trimSpace tenantId ≠ "" ∧ trimSpace actorId ≠ "" := by
  unfold TenantScope.canonical at h
  obtain ⟨u, hparse, hrest⟩ := Option.bind_eq_some_iff.mp h
  split at hrest
  · cases hrest
  · next haccepted =>
    simp only [not_or, not_not] at haccepted
    refine ⟨?_, by rw [haccepted.2.2.1]; exact haccepted.1⟩
    -- A tenant id of the identifier shape has nothing to trim and is not empty.
    unfold parseIdentifier at hparse
    split at hparse
    · next hshape =>
      have htrimmed : tenantId = trimSpace tenantId := trimSpace_of_all fun c hc => by
        rcases hshape.2 c hc with rfl | hhex
        · decide
        · exact isSpace_of_hex hhex
      rw [← htrimmed]
      rintro rfl
      have hempty : HasIdentifierShape "" := hshape
      exact absurd hempty (by decide)
    · cases hparse

/-- An explanation that nothing keeps from being read is answered. -/
theorem explainTransfer_ok {s : Db} {ev : EvidenceSource} {x : Transfer} {now : Instant}
    {tenantId actorId transferId : String} (hx : x ∈ s.transfers)
    (hscope : TenantScope.canonical ⟨tenantId, actorId⟩ = some ⟨x.tenantId.text, actorId⟩)
    (hid : toLower transferId = x.id.text) (hreadable : x.ReadableBy s actorId)
    (hreads : ∀ r, ev.fails r = false) :
    GuidanceService.explainTransfer s ev now tenantId actorId transferId = .ok
      { transferId := x.id.text
        generatedAt := now
        complete := (transferFacts s ev x x.id.text).stages.all fun st =>
          st.state = .available && !st.truncated
        stages := (transferFacts s ev x x.id.text).stages } := by
  -- The row is found by its text, which determines its id.
  obtain ⟨htenant, hactor⟩ := TenantScope.not_blank hscope
  have hfind : (s.transfers.rows.find? fun y => y.tenantId.text = x.tenantId.text ∧
      y.id.text = x.id.text ∧ y.ReadableBy s actorId) = some x := by
    cases hfound : s.transfers.rows.find? fun y => y.tenantId.text = x.tenantId.text ∧
        y.id.text = x.id.text ∧ y.ReadableBy s actorId with
    | none =>
      have hnot := List.find?_eq_none.mp hfound x hx
      exact absurd (decide_eq_true ⟨rfl, rfl, hreadable⟩) hnot
    | some y =>
      have hkept := List.find?_some hfound
      rw [decide_eq_true_eq] at hkept
      rw [Table.eq_of_key (List.mem_of_find?_eq_some hfound) hx (Uuid.text_inj.mp hkept.2.1)]
  unfold GuidanceService.explainTransfer
  rw [hid, isCanonicalUuid_text, if_neg (by simp [htenant, hactor])]
  unfold GuidanceRepository.explainTransfer
  rw [hscope]
  dsimp only
  rw [hreads, hreads, if_neg Bool.false_ne_true, if_neg Bool.false_ne_true, hfind]
  rfl

/-! ## Honesty -/

/-- Among the items of two events, one item is about the account of the first of them when this
event is of the first version. -/
theorem shows_iff {x : Transfer} {b b' : Balance} {e e' : OutboxEvent} (he : e.Tells x b)
    (he' : e'.Tells x b') (hne : b.accountId ≠ b'.accountId) {evidence : List EvidenceItem}
    (hperm : evidence.Perm (([e, e'].filter fun e => e.eventType = balanceChangedV1).map
      (versionItem x))) :
    (∃ item, evidence.filter (fun i => i.accountId = b.accountId.text) = [item] ∧
      item.balanceVersion = b.version.text) ↔ b.ledger = b.available := by
  -- Of the two events only the first is of the account of `b`.
  have hkept : (versionItem x e).accountId = b.accountId.text := by
    unfold versionItem OutboxEvent.accountText
    rw [he.account]
    rfl
  have hdropped : (versionItem x e').accountId ≠ b.accountId.text := by
    unfold versionItem OutboxEvent.accountText
    rw [he'.account]
    exact fun htext => hne (Uuid.text_inj.mp htext).symm
  have hrest : (([e'].filter fun e => e.eventType = balanceChangedV1).map (versionItem x)).filter
      (fun i => i.accountId = b.accountId.text) = [] := by
    rw [List.filter_eq_nil_iff]
    intro i hi hkeeps
    obtain ⟨y, hy, rfl⟩ := List.mem_map.mp hi
    obtain rfl := List.mem_singleton.mp (List.mem_of_mem_filter hy)
    exact hdropped (of_decide_eq_true hkeeps)
  have hshown := hperm.filter fun i => i.accountId = b.accountId.text
  constructor
  -- A version other than the first event of the account would leave the filter empty.
  · rintro ⟨item, hitem, -⟩
    by_contra hreserved
    rw [List.filter_cons_of_neg (by rw [decide_eq_true_eq, he.first]; exact hreserved), hrest,
      hitem] at hshown
    exact List.cons_ne_nil _ _ hshown.eq_nil
  · intro hfree
    have hfirst : ([e, e'].filter fun e => e.eventType = balanceChangedV1) =
        e :: [e'].filter fun e => e.eventType = balanceChangedV1 :=
      List.filter_cons_of_pos (decide_eq_true (he.first.mpr hfree))
    have hitem (items : List EvidenceItem) :
        (versionItem x e :: items).filter (fun i => i.accountId = b.accountId.text) =
          versionItem x e :: items.filter fun i => i.accountId = b.accountId.text :=
      List.filter_cons_of_pos (decide_eq_true hkept)
    rw [hfirst, List.map_cons, hitem, hrest] at hshown
    refine ⟨versionItem x e, List.perm_singleton.mp hshown, ?_⟩
    unfold versionItem
    dsimp only
    rw [he.version]
    rfl

section Honesty

variable {s : Db} {ev : EvidenceSource} {x : Transfer} {b b' : Balance}
  (hreads : ∀ r, ev.fails r = false) (htold : Told (s.transferEvents x.id) x b b')
  (hjournal : (journalEvidence s ev x).Full ∧ 2 ≤ (journalEvidence s ev x).items.length ∧
    (journalEvidence s ev x).items.Perm (storedEvidence s ev x .journalPostings))

include hreads htold hjournal

/-- All links of a posted transfer are read. -/
theorem link_available (kind : StageKind) :
    ((transferFacts s ev x x.id.text).link kind).unavailable = false := by
  obtain ⟨_, hrequest⟩ := requestEvidence_eq hreads
  obtain ⟨_, hdelivery⟩ := deliveryEvidence_eq hreads
  have houtbox := outboxEvidence_eq hreads htold
  cases kind with
  | request =>
    show (requestEvidence s ev x).unavailable = false
    rw [hrequest, unavailable_bounded]
  | transfer => rfl
  | journalPostings => exact hjournal.1.available
  | balanceVersions => exact houtbox.2.2.1
  | outbox => exact houtbox.1.available
  | delivery =>
    show (deliveryEvidence s ev x).unavailable = false
    rw [hdelivery, unavailable_bounded]
  | reconciliation => exact (reconciliationEvidence_eq hreads).1

variable {tl : ExplainabilityTimeline}
  (hstages : tl.stages = (transferFacts s ev x x.id.text).stages)

include hstages

/-- The versions of both accounts are shown when neither has a reserved amount. -/
theorem showsVersions_iff :
    tl.ShowsVersions [b, b'] ↔ b.ledger = b.available ∧ b'.ledger = b'.available := by
  have havailable := link_available hreads htold hjournal
  have hwhole := (outboxEvidence_eq hreads htold).2.2.2.1
  obtain ⟨e, e', he, he', -, hversions⟩ := versionItems hreads htold
  -- The two sides of a transfer are different accounts, so that each version is told apart.
  have hne : b.accountId ≠ b'.accountId := by
    rw [htold.debit_key, htold.credit_key]
    exact x.distinct
  have hitems : ∀ st ∈ tl.stages, st.kind = .balanceVersions → st.truncated = false ∧
      st.evidence.Perm (([e', e].filter fun e => e.eventType = balanceChangedV1).map
        (versionItem x)) := by
    intro st hst hkind
    rw [hstages] at hst
    have hof := (stages_of havailable hjournal.2.1).2 st hst
    rw [hkind] at hof
    exact ⟨hof.truncated.trans hwhole, hof.evidence.trans hversions⟩
  have hswap : ([e', e].filter fun e => e.eventType = balanceChangedV1).Perm
      ([e, e'].filter fun e => e.eventType = balanceChangedV1) := (List.Perm.swap e e' []).filter _
  constructor
  -- Both versions are read off the one stage; the other direction is the same for every stage.
  · intro hshows
    obtain ⟨st, hst, hkind⟩ := exists_stage havailable hjournal.2.1 .balanceVersions
    rw [← hstages] at hst
    obtain ⟨huncut, hperm⟩ := hitems st hst hkind
    have hboth := (hshows st hst hkind).resolve_left (by rw [huncut]; exact Bool.false_ne_true)
    exact ⟨(shows_iff he he' hne (hperm.trans (hswap.map _))).mp (hboth b (by simp)),
      (shows_iff he' he hne.symm hperm).mp (hboth b' (by simp))⟩
  · rintro ⟨hfree, hfree'⟩ st hst hkind
    obtain ⟨-, hperm⟩ := hitems st hst hkind
    refine .inr fun y hy => ?_
    rcases List.mem_cons.mp hy with rfl | hy
    · exact (shows_iff he he' hne (hperm.trans (hswap.map _))).mpr hfree
    · obtain rfl := List.mem_singleton.mp hy
      exact (shows_iff he' he hne.symm hperm).mpr hfree'

/-- A timeline in which a version is shown calls itself complete when there are rows of each kind,
and no more of them than it shows. -/
theorem saysComplete_iff (hcomplete : tl.complete = tl.stages.all fun st =>
      st.state = .available && !st.truncated)
    (hfree : b.ledger = b.available ∨ b'.ledger = b'.available) :
    tl.complete = true ↔ (linkedRequests s x ≠ [] ∧ (linkedRequests s x).length ≤ 2) ∧
      (linkedAttempts ev x ≠ [] ∧ (linkedAttempts ev x).length ≤ maxTimelineDelivery) ∧
        coveringRuns s ev x ≠ [] := by
  have havailable := link_available hreads htold hjournal
  obtain ⟨_, hrequest⟩ := requestEvidence_eq hreads
  obtain ⟨_, hdelivery⟩ := deliveryEvidence_eq hreads
  obtain ⟨houtbox, -, -, hwhole, -⟩ := outboxEvidence_eq hreads htold
  obtain ⟨hread, huncut, hlatest, -⟩ := reconciliationEvidence_eq hreads
  rw [hcomplete, hstages, complete_iff havailable hjournal.2.1]
  constructor
  · intro hfull
    have hrequested : (requestEvidence s ev x).Full := hfull .request
    have hdelivered : (deliveryEvidence s ev x).Full := hfull .delivery
    rw [hrequest] at hrequested
    rw [hdelivery] at hdelivered
    -- The stages left over need no condition: posting alone fills them.
    refine ⟨boundedRows_full.mp hrequested, boundedRows_full.mp hdelivered, fun hnone => ?_⟩
    have hreconciled : (reconciliationEvidence s ev x).Full := hfull .reconciliation
    rw [hnone, List.length_nil, Nat.min_zero, List.length_eq_zero_iff] at hlatest
    exact hreconciled.some hlatest
  · rintro ⟨hrequests, hattempts, hcovered⟩ kind
    cases kind with
    | request =>
      show (requestEvidence s ev x).Full
      rw [hrequest]
      exact boundedRows_full.mpr hrequests
    | transfer => exact ⟨rfl, List.cons_ne_nil _ _, rfl⟩
    | journalPostings => exact hjournal.1
    | balanceVersions =>
      -- One of the two events has kept its type, so that the stage has an item.
      refine ⟨havailable .balanceVersions, fun hnil => ?_, hwhole⟩
      obtain ⟨e, e', he, he', -, hitems⟩ := versionItems hreads htold
      rw [show (outboxEvidence s ev x).2.items = [] from hnil, List.nil_perm, List.map_eq_nil_iff,
        List.filter_eq_nil_iff] at hitems
      rcases hfree with hfree | hfree
      · exact hitems e (by simp) (decide_eq_true (he.first.mpr hfree))
      · exact hitems e' (by simp) (decide_eq_true (he'.first.mpr hfree))
    | outbox => exact houtbox
    | delivery =>
      show (deliveryEvidence s ev x).Full
      rw [hdelivery]
      exact boundedRows_full.mpr hattempts
    | reconciliation =>
      refine ⟨hread, fun hnil => hcovered ?_, huncut⟩
      rw [show (reconciliationEvidence s ev x).items = [] from hnil, List.length_nil] at hlatest
      rw [← List.length_eq_zero_iff]
      omega

/-- What calls itself complete is complete when neither account has a reserved amount and no more
than one run covers the transfer. -/
theorem completeHonestly_iff (hcomplete : tl.complete = tl.stages.all fun st =>
      st.state = .available && !st.truncated) :
    tl.CompleteHonestly s ev x ↔ (tl.complete = true →
      (b.ledger = b.available ∧ b'.ledger = b'.available) ∧
        (coveringRuns s ev x).length ≤ 1) := by
  have havailable := link_available hreads htold hjournal
  obtain ⟨_, hrequest⟩ := requestEvidence_eq hreads
  obtain ⟨_, hdelivery⟩ := deliveryEvidence_eq hreads
  obtain ⟨-, hevents, -⟩ := outboxEvidence_eq hreads htold
  obtain ⟨-, -, hlatest, hone⟩ := reconciliationEvidence_eq hreads
  obtain ⟨e, e', he, he', hstored, hitems⟩ := versionItems hreads htold
  have hof := (stages_of havailable hjournal.2.1).2
  refine forall_congr' fun hmarked => ?_
  rw [hcomplete, hstages, complete_iff havailable hjournal.2.1] at hmarked
  rw [hstages]
  constructor
  · intro hhonest
    -- Honesty makes every stage as long as what is stored for it.
    have hshown (kind : StageKind) :
        (((transferFacts s ev x x.id.text).link kind).items).length =
          (storedEvidence s ev x kind).length := by
      obtain ⟨st, hst, rfl⟩ := exists_stage havailable hjournal.2.1 kind
      exact ((hof st hst).evidence.symm.trans (hhonest st hst)).length_eq
    have hversions : (outboxEvidence s ev x).2.items.length = _ := hshown .balanceVersions
    rw [hitems.length_eq, hstored, List.length_map, List.length_map,
      List.length_filter_eq_length_iff] at hversions
    have hruns : (reconciliationEvidence s ev x).items.length =
      ((coveringRuns s ev x).map (runItem x)).length := hshown .reconciliation
    rw [hlatest, List.length_map] at hruns
    refine ⟨⟨?_, ?_⟩, by omega⟩
    · exact he.first.mp (of_decide_eq_true (hversions e (by simp)))
    · exact he'.first.mp (of_decide_eq_true (hversions e' (by simp)))
  -- Conversely each stage is compared with what is stored for its kind.
  · rintro ⟨hfree, hcovered⟩ st hst
    refine (hof st hst).evidence.trans ?_
    cases st.kind with
    | request =>
      have hrequested : (requestEvidence s ev x).Full := hmarked .request
      show (requestEvidence s ev x).items.Perm _
      rw [hrequest] at hrequested ⊢
      exact boundedRows_of_le (boundedRows_full.mp hrequested).2
    | transfer => exact List.Perm.refl _
    | journalPostings => exact hjournal.2.2
    | balanceVersions =>
      rw [hstored]
      refine hitems.trans ?_
      -- With both balances free no event is dropped by its type.
      have hkept : ([e', e].filter fun e => e.eventType = balanceChangedV1) = [e', e] := by
        refine List.filter_eq_self.mpr fun y hy => decide_eq_true ?_
        rcases List.mem_cons.mp hy with rfl | hy
        · exact he'.first.mpr hfree.2
        · obtain rfl := List.mem_singleton.mp hy
          exact he.first.mpr hfree.1
      rw [hkept]
    | outbox => exact hevents
    | delivery =>
      have hdelivered : (deliveryEvidence s ev x).Full := hmarked .delivery
      show (deliveryEvidence s ev x).items.Perm _
      rw [hdelivery] at hdelivered ⊢
      exact boundedRows_of_le (boundedRows_full.mp hdelivered).2
    | reconciliation => exact hone hcovered

end Honesty

/-- What a run leaves of a transfer that a call has posted. -/
theorem posted_of_run {d : Digest} {s : Db} (hs : s.Provisioned) {pre : List Call} {c : Call}
    (post : List Call) {x : Transfer} {b b' : Balance} (hbefore : x ∉ (run (exec d) pre s).transfers)
    (hafter : x ∈ (run (exec d) (pre ++ [c]) s).transfers) (hposted : x.status = .posted)
    (hb : (run (exec d) (pre ++ [c]) s).balances.find? x.debitAccountId = some b)
    (hb' : (run (exec d) (pre ++ [c]) s).balances.find? x.creditAccountId = some b')
    (ev : EvidenceSource) (hreads : ∀ r, ev.fails r = false) :
    x ∈ (run (exec d) (pre ++ c :: post) s).transfers ∧
      Told ((run (exec d) (pre ++ c :: post) s).transferEvents x.id) x b b' ∧
        (journalEvidence (run (exec d) (pre ++ c :: post) s) ev x).Full ∧
          2 ≤ (journalEvidence (run (exec d) (pre ++ c :: post) s) ev x).items.length ∧
            (journalEvidence (run (exec d) (pre ++ c :: post) s) ev x).items.Perm
              (storedEvidence (run (exec d) (pre ++ c :: post) s) ev x .journalPostings) := by
  obtain ⟨y, y', hy, hy', hx, htold⟩ := told_of_run hs post hbefore hafter hposted
  obtain rfl := Option.some.inj (hy.symm.trans hb)
  obtain rfl := Option.some.inj (hy'.symm.trans hb')
  have hjournaled := run_journaled d (pre ++ c :: post) hs.journaled
  have hlinked := run_linked d (pre ++ c :: post) hs.linked
  obtain ⟨j, hid, hjournals, hpostings⟩ := linkedJournals_of_posted hjournaled hlinked hx hposted
  exact ⟨hx, htold, journalEvidence_eq hreads hid hjournals hpostings⟩

/-- The explanation of a posted transfer shows the balance versions of both accounts, and calls
itself complete only when it shows all stored rows, exactly when the posting found no reserved
amount on either account and, where there are rows of all other kinds, no more than one run covers
it. -/
theorem explanation_honest_iff (d : Digest) {s : Db} (hs : s.Provisioned) (pre post : List Call)
    (c : Call) {x : Transfer} {b b' : Balance} (hbefore : x ∉ (run (exec d) pre s).transfers)
    (hafter : x ∈ (run (exec d) (pre ++ [c]) s).transfers) (hposted : x.status = .posted)
    (hb : (run (exec d) (pre ++ [c]) s).balances.find? x.debitAccountId = some b)
    (hb' : (run (exec d) (pre ++ [c]) s).balances.find? x.creditAccountId = some b')
    (ev : EvidenceSource) (hreads : ∀ r, ev.fails r = false) (now : Instant)
    {tenantId actorId transferId : String}
    (hscope : TenantScope.canonical ⟨tenantId, actorId⟩ = some ⟨x.tenantId.text, actorId⟩)
    (hid : toLower transferId = x.id.text)
    (hreadable : x.ReadableBy (run (exec d) (pre ++ c :: post) s) actorId) :
    ∃ tl, GuidanceService.explainTransfer (run (exec d) (pre ++ c :: post) s) ev now tenantId
      actorId transferId = .ok tl ∧
        ((tl.ShowsVersions [b, b'] ∧
            tl.CompleteHonestly (run (exec d) (pre ++ c :: post) s) ev x) ↔
          (b.ledger = b.available ∧ b'.ledger = b'.available) ∧
            ((linkedRequests (run (exec d) (pre ++ c :: post) s) x ≠ [] ∧
                (linkedRequests (run (exec d) (pre ++ c :: post) s) x).length ≤ 2) →
              (linkedAttempts ev x ≠ [] ∧
                (linkedAttempts ev x).length ≤ maxTimelineDelivery) →
              (coveringRuns (run (exec d) (pre ++ c :: post) s) ev x).length ≤ 1)) := by
  obtain ⟨hx, htold, hjournal⟩ :=
    posted_of_run hs post hbefore hafter hposted hb hb' ev hreads
  generalize run (exec d) (pre ++ c :: post) s = final at hx htold hjournal hreadable ⊢
  refine ⟨_, explainTransfer_ok hx hscope hid hreadable hreads, ?_⟩
  rw [showsVersions_iff hreads htold hjournal rfl,
    completeHonestly_iff hreads htold hjournal rfl rfl]
  refine and_congr_right fun hfree => ?_
  rw [saysComplete_iff hreads htold hjournal rfl rfl (.inl hfree.1)]
  constructor
  · intro hcovered hrequests hattempts
    by_cases hnone : coveringRuns final ev x = []
    · rw [hnone]
      exact Nat.zero_le 1
    · exact (hcovered ⟨hrequests, hattempts, hnone⟩).2
  · rintro hcovered ⟨hrequests, hattempts, -⟩
    exact ⟨hfree, hcovered hrequests hattempts⟩

namespace Sample

/-- `pg_visible_in_snapshot` of a transaction that was committed: it had ended when the snapshot was
taken. -/
def endedBefore (transaction : ℕ) (snapshot : String) : Bool :=
  match snapshot.toList.splitOn ':' with
  | [xmin, xmax, running] =>
    (parseDigits xmin).any (transaction < ·) || ((parseDigits xmax).any (transaction < ·) &&
      !(running.splitOn ',').any fun t => parseDigits t = some transaction)
  | _ => false

/-- A delivered attempt, and a run with a snapshot taken while the transaction 743 was open. The
rows of the transfer are of transaction 741, which the snapshot shows. -/
def evidence : EvidenceSource where
  requestCreatedAt _ := 0
  operationLe a a' := a ≤ a'
  eventState _ := .published
  attempts :=
    [{ id := uuid 500
       tenantId := tenant
       transferId := uuid 100
       outboxEventId := none
       deliveryKind := .webhook
       endpointReference := "endpoint"
       attemptNumber := 1
       status := .delivered
       responseClass := none
       sanitizedErrorCode := none
       dueAt := 0
       startedAt := none
       completedAt := none
       createdAt := 0 }]
  runs := [⟨uuid 501, tenant, .matched, 0, "742:745:743"⟩]
  visible snapshot _ := endedBefore 741 snapshot
  fails _ := false

/-- The transfer is posted, the source has no reserved amount if `free`, and the destination has
none. -/
def Transferred (s : Db) (free : Bool) : Prop :=
  (s.transfers.find? (uuid 100)).map (fun x =>
    (x.tenantId, x.actorSubjectId, x.debitAccountId, x.creditAccountId, x.status)) =
      some (tenant, alice, source, destination, .posted) ∧
  (s.balances.find? source).map (fun b => decide (b.ledger = b.available)) = some free ∧
  (s.balances.find? destination).map (fun b => decide (b.ledger = b.available)) = some true

/-- Whether a database is as after the transfer of the sample can be decided. -/
instance Transferred.decidable (s : Db) (free : Bool) : Decidable (Transferred s free) :=
  inferInstanceAs (Decidable (_ ∧ _ ∧ _))

/-- Such a database has the transfer and the balances of its accounts. -/
theorem Transferred.exists {s : Db} {free : Bool} (h : Transferred s free) :
    ∃ x b b', x ∈ s.transfers ∧ x.id = uuid 100 ∧ x.tenantId = tenant ∧ x.status = .posted ∧
      x.ReadableBy s alice ∧ s.balances.find? x.debitAccountId = some b ∧
        s.balances.find? x.creditAccountId = some b' ∧ decide (b.ledger = b.available) = free ∧
          b'.ledger = b'.available := by
  obtain ⟨hfound, hsource, hdestination⟩ := h
  obtain ⟨x, hx, hfields⟩ := Option.map_eq_some_iff.mp hfound
  simp only [Prod.mk.injEq] at hfields
  obtain ⟨htenant, hactor, hdebit, hcredit, hposted⟩ := hfields
  obtain ⟨b, hb, hfree⟩ := Option.map_eq_some_iff.mp hsource
  obtain ⟨b', hb', hfree'⟩ := Option.map_eq_some_iff.mp hdestination
  obtain ⟨hmem, hid⟩ := Table.find?_eq_some.mp hx
  exact ⟨x, b, b', hmem, hid, htenant, hposted, .inl hactor, hdebit ▸ hb, hcredit ▸ hb', hfree,
    of_decide_eq_true hfree'⟩

/-- The operator's scope. -/
theorem scope_canonical : TenantScope.canonical ⟨tenant.text, alice⟩ = some ⟨tenant.text, alice⟩ := by
  have hfields : (TenantScope.canonical ⟨tenant.text, alice⟩).map (fun s => (s.tenantId, s.actorId)) =
      some (tenant.text, alice) := by
    decide +kernel
  obtain ⟨⟨_, _⟩, hscope, heq⟩ := Option.map_eq_some_iff.mp hfields
  cases heq
  exact hscope

/-- Every read of the sample evidence succeeds. -/
theorem evidence_fails (r : EvidenceRead) : evidence.fails r = false := rfl

/-- The sample has one covering run at most. -/
theorem coveringRuns_le (s : Db) (x : Transfer) : (coveringRuns s evidence x).length ≤ 1 := by
  unfold coveringRuns
  exact List.length_filter_le _ _

/-- The text of an identifier is in lower case. -/
theorem toLower_id : toLower (uuid 100).text = (uuid 100).text := by
  decide +kernel

end Sample

/-- A transfer from an account without holds is explained honestly. -/
theorem explanation_honest_sample : Sample.db.Provisioned ∧ ∃ tl x b b',
    GuidanceService.explainTransfer (run (exec Sample.digest) ([] ++ [Sample.transfer]) Sample.db)
      Sample.evidence 0 Sample.tenant.text Sample.alice (Sample.uuid 100).text = .ok tl ∧
        tl.ShowsVersions [b, b'] ∧ tl.CompleteHonestly
          (run (exec Sample.digest) ([] ++ [Sample.transfer]) Sample.db) Sample.evidence x := by
  have hfacts : Sample.Transferred (run (exec Sample.digest) ([] ++ [Sample.transfer]) Sample.db)
      true := by
    decide +kernel
  obtain ⟨x, b, b', hx, hid, htenant, hposted, hreadable, hdebit, hcredit, hfree, hfree'⟩ :=
    hfacts.exists
  -- The history before the transfer holds no transfer at all.
  have hbefore : x ∉ (run (exec Sample.digest) [] Sample.db).transfers := by
    rw [run_nil, Table.mem_def, Sample.provisioned.transfers]
    exact List.not_mem_nil
  have hscope : TenantScope.canonical ⟨Sample.tenant.text, Sample.alice⟩ =
      some ⟨x.tenantId.text, Sample.alice⟩ := by
    rw [htenant]
    exact Sample.scope_canonical
  have hlower : toLower (Sample.uuid 100).text = x.id.text := by
    rw [hid]
    exact Sample.toLower_id
  obtain ⟨tl, htl, hiff⟩ := explanation_honest_iff Sample.digest Sample.provisioned [] []
    Sample.transfer hbefore hx hposted hdebit hcredit Sample.evidence Sample.evidence_fails 0
    hscope hlower hreadable
  -- The sample source covers the transfer by at most one run.
  have hhonest := hiff.mpr ⟨⟨of_decide_eq_true hfree, hfree'⟩, fun _ _ => Sample.coveringRuns_le _ _⟩
  exact ⟨Sample.provisioned, tl, x, b, b', htl, hhonest⟩

/-- The version of an account with an open hold is hidden in an explanation that calls itself
complete. -/
theorem reserved_version_hidden : Sample.db.Provisioned ∧ ∃ s tl x b b',
    s = run (exec Sample.digest) ([Sample.openHold] ++ [Sample.transfer]) Sample.db ∧
      x ∈ s.transfers ∧ x.status = .posted ∧ x.ReadableBy s Sample.alice ∧
        s.balances.find? x.debitAccountId = some b ∧ s.balances.find? x.creditAccountId = some b' ∧
          GuidanceService.explainTransfer s Sample.evidence 0 Sample.tenant.text Sample.alice
            (Sample.uuid 100).text = .ok tl ∧ tl.complete = true ∧ ¬tl.ShowsVersions [b, b'] ∧
              ¬tl.CompleteHonestly s Sample.evidence x := by
  have hfacts : Sample.Transferred (run (exec Sample.digest) ([Sample.openHold] ++
        [Sample.transfer]) Sample.db) false ∧
      (run (exec Sample.digest) ([Sample.openHold] ++ [Sample.transfer])
        Sample.db).transfers.rows.all (fun x =>
          (linkedRequests (run (exec Sample.digest) ([Sample.openHold] ++ [Sample.transfer])
            Sample.db) x).length = 1 ∧ (linkedAttempts Sample.evidence x).length = 1 ∧
          (coveringRuns (run (exec Sample.digest) ([Sample.openHold] ++ [Sample.transfer])
            Sample.db) Sample.evidence x).length = 1) = true ∧
      (run (exec Sample.digest) [Sample.openHold] Sample.db).transfers.rows.length = 0 := by
    decide +kernel
  obtain ⟨hpostedBy, hrows, hempty⟩ := hfacts
  obtain ⟨x, b, b', hx, hid, htenant, hposted, hreadable, hdebit, hcredit, hreserved, hfree⟩ :=
    hpostedBy.exists
  have hbefore : x ∉ (run (exec Sample.digest) [Sample.openHold] Sample.db).transfers := by
    rw [Table.mem_def, List.eq_nil_of_length_eq_zero hempty]
    exact List.not_mem_nil
  obtain ⟨-, htold, hjournal⟩ := @posted_of_run Sample.digest Sample.db Sample.provisioned
    [Sample.openHold] Sample.transfer [] x b b' hbefore hx hposted hdebit hcredit Sample.evidence
    Sample.evidence_fails
  generalize run (exec Sample.digest) ([Sample.openHold] ++ [Sample.transfer]) Sample.db = s at *
  -- The hold keeps part of the debit balance, the one fact that differs from the sample above.
  have hneq : b.ledger ≠ b.available := of_decide_eq_false hreserved
  obtain ⟨hrequests, hattempts, hcovering⟩ :=
    of_decide_eq_true (List.all_eq_true.mp hrows x (Table.mem_def.mp hx))
  have hne {α : Type} {l : List α} (h : l.length = 1) : l ≠ [] :=
    List.ne_nil_of_length_pos (by omega)
  have hscope : TenantScope.canonical ⟨Sample.tenant.text, Sample.alice⟩ =
      some ⟨x.tenantId.text, Sample.alice⟩ := by
    rw [htenant]
    exact Sample.scope_canonical
  have hlower : toLower (Sample.uuid 100).text = x.id.text := by
    rw [hid]
    exact Sample.toLower_id
  -- Every other stage is full, so that the timeline is marked complete all the same.
  have hmarked (tl : ExplainabilityTimeline)
      (hstages : tl.stages = (transferFacts s Sample.evidence x x.id.text).stages)
      (hcomplete : tl.complete = tl.stages.all fun st => st.state = .available && !st.truncated) :
      tl.complete = true :=
    (saysComplete_iff Sample.evidence_fails htold hjournal hstages hcomplete (.inr hfree)).mpr
      ⟨⟨hne hrequests, by omega⟩, ⟨hne hattempts, hattempts.trans_le (by decide)⟩, hne hcovering⟩
  refine ⟨Sample.provisioned, s, _, x, b, b', rfl, hx, hposted, hreadable, hdebit, hcredit,
    explainTransfer_ok hx hscope hlower hreadable Sample.evidence_fails, hmarked _ rfl rfl, ?_, ?_⟩
  · rw [showsVersions_iff Sample.evidence_fails htold hjournal rfl]
    exact fun hboth => hneq hboth.1
  · rw [completeHonestly_iff Sample.evidence_fails htold hjournal rfl rfl]
    exact fun hhonest => hneq (hhonest (hmarked _ rfl rfl)).1.1

end LedgerSync
