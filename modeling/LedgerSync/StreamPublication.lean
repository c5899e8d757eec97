import LedgerSync.LamportClocks
import LedgerSync.Projector
import LedgerSync.StreamEncoding
import LedgerSync.System

/-!
# What reaches the stream

The commands insert events, the trigger of the outbox stamps those that a component inserts, workers
claim them and stamp their delivery. A row of `outbox_events` is in two tables here: what the
commands write is in the ledger, and what the trigger and the workers write is in the queue. Every
event that a worker publishes meets what the decoder asks for, whatever the calls before it
(`stream_round_trip`): no event stops the batch that it is read in.
-/

namespace LedgerSync

open Lib

/-! ## The two tables -/

/-- The ledger with the queue of its events. -/
structure StreamDb where
  ledger : Db
  queue : QueueDb

/-- A procedure of both. -/
abbrev StreamProc (α : Type) : Type := Txn StreamDb PgError α

/-- A procedure of the ledger. -/
def inLedger {α : Type} (x : Proc α) : StreamProc α :=
  x.zoom StreamDb.ledger fun s t => { s with ledger := t }

/-- A procedure of the queue. -/
def inQueue {α : Type} (x : QueueProc α) : StreamProc α :=
  x.zoom StreamDb.queue fun s t => { s with queue := t }

/-- The `application_name` of a connection: the database keeps fewer than 64 characters of it, and
replaces all but printable ASCII. -/
structure ApplicationName where
  text : String
  /-- The characters are printable. -/
  printable : ∀ c ∈ text.toList, 32 ≤ c.toNat ∧ c.toNat < 127
  /-- The name is shorter than `NAMEDATALEN`. -/
  short : text.toList.length < 64

/-! ## Events of accounts -/

/-- What an event of an account reports. -/
inductive AccountEventKind where
  | created
  | metadataUpdated
  | statusChanged (reason : String)

/-- The type of an event. -/
def AccountEventKind.eventType : AccountEventKind → String
  | created => "account.created.v1"
  | metadataUpdated => "account.metadata.updated.v1"
  | statusChanged _ => "account.status.changed.v1"

/-- The event of a change of an account. -/
structure AccountEvent where
  id : Uuid
  tenant : Uuid
  account : Uuid
  kind : AccountEventKind
  currency : String
  status : AccountStatus
  version : Bigint
  occurredAt : Timestamp

/-- The time in the payload: `insertAccountOutbox` writes it for a new account, and
`controlled_update_account_v1` for a changed one. -/
def AccountEvent.timeText (e : AccountEvent) : String :=
  match e.kind with
  | .created => nanoText (e.occurredAt.micros * 1000)
  | _ => utcText e.occurredAt

/-- The reason in the payload. -/
def AccountEvent.reason (e : AccountEvent) : List (String × Json) :=
  match e.kind with
  | .statusChanged reason => [("reason", .str reason)]
  | _ => []

/-- The row of an event of an account. -/
def AccountEvent.row (e : AccountEvent) : OutboxEvent where
  id := e.id
  tenantId := e.tenant
  transferId := none
  fundingEventId := none
  openingImportId := none
  holdId := none
  accountId := some e.account
  aggregateType := "account"
  aggregateId := e.account
  eventType := e.kind.eventType
  aggregateVersion := e.version
  payload := .obj ([("event_id", .str e.id.text), ("event_type", .str e.kind.eventType),
    ("aggregate_type", .str "account"), ("aggregate_id", .str e.account.text),
    ("account_id", .str e.account.text), ("currency", .str e.currency),
    ("status", .str e.status.text), ("version", .str e.version.text),
    ("occurred_at", .str e.timeText)] ++ e.reason)
  occurredAt := instant e.occurredAt

/-! ## Calls -/

/-- The events that a procedure inserted, the first one first. -/
def newEvents (s s' : Db) : List OutboxEvent :=
  (s'.outbox.rows.filter fun e => (s.outbox.find? e.id).isNone).reverse

/-- The queue takes new events, which the trigger stamps. -/
def enqueue (app : ApplicationName) (now : Uuid → Instant) : List OutboxEvent → StreamProc Unit
  | [] => pure ()
  | e :: es => do
    let _ ← inQueue (insertQueued app.text ⟨e.id, e.tenantId, e.transferId, now e.id⟩)
    enqueue app now es

/-- A procedure of the ledger over a connection: the queue gets the events that it inserts. -/
def overConnection (app : ApplicationName) (now : Uuid → Instant) (x : Proc Unit) :
    StreamProc Unit := do
  let s ← Txn.get
  inLedger x
  let s' ← Txn.get
  enqueue app now (newEvents s.ledger s'.ledger)

/-- A call that works on events that are there. -/
def QueueCall.Delivers : QueueCall → Prop
  | .insert .. => False
  | _ => True

/-- The calls: a command over a connection, the event of a change of an account, whatever the change
checks, and what happens to the queue besides. -/
inductive StreamCall where
  | command (app : ApplicationName) (now : Uuid → Instant) (c : Call)
  | account (app : ApplicationName) (now : Uuid → Instant) (e : AccountEvent)
  | deliver (c : QueueCall) (h : c.Delivers)

/-- A call as a transaction. -/
def streamExec (d : Digest) : StreamCall → StreamProc Unit
  | .command app now c => overConnection app now (exec d c)
  | .account app now e => overConnection app now (insertOutbox e.row)
  | .deliver c _ => Txn.discard (inQueue c.exec)

/-! ## Publication -/

/-- `Claim`: the claimed events. Its own checks are those of the procedure. -/
def claimEvents (p : OutboxClaim) : StreamProc (List EventEnvelope) := do
  let claimed ← inQueue (controlledClaimOutboxV1 p)
  let s ← Txn.get
  pure (claimed.filterMap fun q => (s.ledger.outbox.find? q.id).bind (scanEvent · q))

/-- `NewLogicalClockRepository`. -/
structure LogicalClockRepository where
  nodeId : String
  /-- The identity of the node has 1 to 128 bytes. -/
  bounded : 1 ≤ nodeId.utf8ByteSize ∧ nodeId.utf8ByteSize ≤ 128

/-- `ErrStaleClaim`. -/
def staleClaim : PgError :=
  ⟨"", "", "claim owner, generation, or expiry is no longer valid"⟩

/-- `PreparePublication`, where `trace` is the stored trace of the event. -/
def preparePublication (r : LogicalClockRepository) (sess : Session) (owner : String) (now : Instant)
    (trace : String) (event : EventEnvelope) : StreamProc EventEnvelope := do
  let id ← Txn.orRaise (Uuid.ofText? event.id) ⟨"22P02", "", "invalid input syntax for type uuid"⟩
  let stamps ← inQueue
    (controlledPreparePublicationV1 sess ⟨id, owner, event.claimGeneration⟩ r.nodeId now)
  let sent ← Txn.orRaise (stamps.getLast?) staleClaim
  let s ← Txn.get
  let q ← Txn.orRaise ((s.queue.events.find? id).filter
    fun q => Uuid.ofText? event.tenantId = some q.tenantId) staleClaim
  pure { event with
    causal := q.origin
    delivery := some ⟨r.nodeId, sent.stamp, event.id⟩
    diagnosticTraceParent := trace }

/-- An event that a worker publishes after some calls: it was claimed and is valid, and its delivery
may have been stamped. -/
inductive Published (d : Digest) (s₀ : StreamDb) : EventEnvelope → Prop
  | claimed {cs : List StreamCall} {p : OutboxClaim} {events : List EventEnvelope} {s' : StreamDb}
      {e : EventEnvelope} (h : claimEvents p (run (streamExec d) cs s₀) = .ok (events, s'))
      (mem : e ∈ events) (valid : e.Valid) : Published d s₀ e
  | prepared {cs : List StreamCall} {r : LogicalClockRepository} {sess : Session} {owner : String}
      {now : Instant} {trace : String} {e e' : EventEnvelope} {s' : StreamDb} (h : Published d s₀ e)
      (h' : preparePublication r sess owner now trace e (run (streamExec d) cs s₀) = .ok (e', s')) :
      Published d s₀ e'

/-! ## Texts of documents -/

/-- A document of named texts. -/
def Json.isRecord : Json → Bool
  | .obj fields => fields.all fun f => match f.2 with
    | .str _ => true
    | _ => false
  | _ => false

section Documents

/-- An escaped character is a piece of a string. -/
theorem Json.escape_piece (c : Char) : StringPiece (escape c) := by
  unfold escape
  split_ifs with hquote hbackslash hnewline hreturn htab hbell hfeed hcontrol
  · exact .escape (by decide)
  · exact .escape (by decide)
  · exact .escape (by decide)
  · exact .escape (by decide)
  · exact .escape (by decide)
  · exact .escape (by decide)
  · exact .escape (by decide)
  -- The last escape writes four hexadecimal digits.
  · have hhex : ∀ x ∈ hexDigits 4 c.toNat, isJsonHex x = true := by
      intro x hx
      obtain ⟨d, hd, rfl⟩ := mem_hexDigits hx
      interval_cases d <;> decide
    obtain ⟨w, x, y, z, hdigits⟩ : ∃ w x y z, hexDigits 4 c.toNat = [w, x, y, z] :=
      ⟨_, _, _, _, rfl⟩
    rw [hdigits] at hhex ⊢
    exact .unicode hhex
  · exact .plain hquote hbackslash (not_lt.mp hcontrol)

/-- A text in quotes, in its pieces. -/
theorem Json.quote_append (s : String) (rest : List Char) :
    quote s ++ rest = '"' :: ((s.toList.map escape).flatten ++ '"' :: rest) := by
  simp [quote, List.flatMap]

/-- The escaped characters of a text are pieces of a string. -/
theorem Json.escape_pieces (s : String) : ∀ p ∈ s.toList.map escape, StringPiece p := by
  intro p hp
  obtain ⟨c, -, rfl⟩ := List.mem_map.mp hp
  exact escape_piece c

/-- The fields of a record and the brace behind them. -/
theorem Json.accepts_renderFields {fields : List (String × Json)}
    (h : ∀ f ∈ fields, ∃ s, f.2 = .str s) {start : ScanState}
    (hstart : (start = .beginString ∧ fields ≠ []) ∨ start = .beginStringOrEmpty) :
    (⟨start, [.objectKey]⟩ : Scanner).accepts (renderFields fields ++ ['\x7d']) = true := by
  -- The induction is on the fields; what follows a comma must be a string, which the state records.
  have hbegin : start = .beginString ∨ start = .beginStringOrEmpty := hstart.imp_left And.left
  induction fields generalizing start with
  | nil =>
    obtain rfl := hstart.resolve_left fun h => h.2 rfl
    rfl
  | cons f fs ih =>
    obtain ⟨k, v⟩ := f
    obtain ⟨s, rfl⟩ : ∃ s, v = .str s := h (k, v) List.mem_cons_self
    have hfield : ∀ rest, (⟨start, [.objectKey]⟩ : Scanner).accepts
        (quote k ++ (':' :: ' ' :: (quote s ++ rest))) =
          (⟨.endValue, [.objectValue]⟩ : Scanner).accepts rest := by
      intro rest
      rw [quote_append, Scanner.accepts_name (escape_pieces k) hbegin, Scanner.accepts_blank,
        quote_append, Scanner.accepts_string (escape_pieces s)]
    -- The last field ends the object, any other is followed by a comma.
    rcases fs with _ | ⟨g, gs⟩
    · rw [renderFields, render, List.append_assoc, List.cons_append, List.cons_append, hfield]
      rfl
    · rw [renderFields, render]
      simp only [List.append_assoc, List.cons_append]
      rw [hfield, Scanner.accepts_comma]
      exact ih (fun x hx => h x (List.mem_cons_of_mem _ hx)) (.inl ⟨rfl, List.cons_ne_nil _ _⟩)
        (.inl rfl)

/-- A record is an object all of whose members are strings. -/
theorem Json.isRecord_iff {doc : Json} :
    doc.isRecord = true ↔ ∃ fields, doc = .obj fields ∧ ∀ f ∈ fields, ∃ s, f.2 = .str s := by
  constructor
  · intro h
    cases doc with
    | obj fields =>
      refine ⟨fields, rfl, fun f hf => ?_⟩
      have htext := List.all_eq_true.mp h f hf
      split at htext
      · exact ⟨_, ‹_›⟩
      · cases htext
    | _ => cases h
  · rintro ⟨fields, rfl, h⟩
    refine List.all_eq_true.mpr fun f hf => ?_
    obtain ⟨s, hs⟩ := h f hf
    rw [hs]

/-- The text of a record is a JSON text. -/
theorem Json.jsonValid_of_isRecord {doc : Json} (h : doc.isRecord = true) :
    jsonValid doc.render = true := by
  obtain ⟨fields, rfl, hfields⟩ := isRecord_iff.mp h
  rw [render, List.cons_append, jsonValid, Scanner.accepts_cons
    (show Scanner.step ⟨.beginValue, []⟩ '\x7b' = some ⟨.beginStringOrEmpty, [.objectKey]⟩ from rfl)]
  exact accepts_renderFields hfields (.inr rfl)

/-- Fields that are added to a record. -/
theorem Json.isRecord_merge {doc added : Json} (h : doc.isRecord = true)
    (hadded : added.isRecord = true) : (doc.merge added).isRecord = true := by
  obtain ⟨own, rfl, hown⟩ := isRecord_iff.mp h
  obtain ⟨fields, rfl, hfields⟩ := isRecord_iff.mp hadded
  refine isRecord_iff.mpr ⟨_, rfl, fun f hf => ?_⟩
  rcases List.mem_append.mp hf with hf | hf
  · exact hown f (List.mem_of_mem_filter hf)
  · exact hfields f hf

end Documents

/-! ## Rows that can be sent -/

/-- What every row of a command has. -/
structure OutboxEvent.Sendable (e : OutboxEvent) : Prop where
  aggregateType : e.aggregateType ≠ ""
  payload : e.payload.isRecord = true
  occurredAt : ∃ t : Timestamp, e.occurredAt = instant t

/-- Every row can be sent. -/
def Db.Sendable (s : Db) : Prop := ∀ e ∈ s.outbox, e.Sendable

section Rows

variable {d : Digest} {s s' : Db} {e e' : OutboxEvent}

/-- The trigger that enriches an event keeps it so. -/
theorem OutboxEvent.Sendable.enrich (h : e.Sendable)
    (he : enrichReservedBalanceEventV1 s e = some e') : e'.Sendable := by
  unfold enrichReservedBalanceEventV1 at he
  split at he
  · cases he
    exact h
  · split_ifs at he
    · obtain ⟨b, -, rfl⟩ := Option.map_eq_some_iff.mp he
      split_ifs
      · exact ⟨h.aggregateType, Json.isRecord_merge h.payload rfl, h.occurredAt⟩
      · exact h
    · cases he
      exact h

/-- The payload of a balance is a record. -/
theorem balancePayload_isRecord (eventId account : Uuid) (cause : String) (causeId : Uuid)
    (currency : String) (b : Balance) (occurredAt : Timestamp) (amount : Option ℤ) :
    (balancePayload eventId account cause causeId currency b occurredAt amount).isRecord = true := by
  cases amount <;> rfl

/-- The balance event of a transfer can be sent. -/
theorem transferBalanceEvent_sendable (tenant eventId account transfer : Uuid) (currency : String)
    (b : Balance) (occurredAt : Timestamp) (amount : Option ℤ) :
    (transferBalanceEvent tenant eventId account transfer currency b occurredAt amount).Sendable where
  aggregateType := show "account_balance" ≠ "" by decide
  payload := balancePayload_isRecord ..
  occurredAt := ⟨occurredAt, rfl⟩

/-- The event of a posted transfer can be sent. -/
theorem transferPostedEvent_sendable (p : TransferRequest) (ids : TransferIds) :
    (transferPostedEvent p ids).Sendable where
  aggregateType := show "transfer" ≠ "" by decide
  payload := rfl
  occurredAt := ⟨p.occurredAt, rfl⟩

/-- The balance event of a funding can be sent. -/
theorem fundingBalanceEvent_sendable (p : FundingPost) (ids : FundingPostIds) (e : FundingEvent)
    (b : Balance) : (fundingBalanceEvent p ids e b).Sendable where
  aggregateType := show "account_balance" ≠ "" by decide
  payload := balancePayload_isRecord ..
  occurredAt := ⟨p.occurredAt, rfl⟩

/-- The balance event of a hold can be sent. -/
theorem holdBalanceEvent_sendable (tenant : Uuid) (h : Hold) (b : Balance) (ids : ChangeIds)
    (clock : ChangeClock) : (holdBalanceEvent tenant h b ids clock).Sendable where
  aggregateType := show "account_balance" ≠ "" by decide
  payload := rfl
  occurredAt := ⟨clock.event, rfl⟩

/-- The balance event of an import can be sent. -/
theorem importEvent_sendable (p : ImportExecute) (ids : ImportIds) (currency : String)
    (r : ImportRow) (b : Balance) : (importEvent p ids currency r b).Sendable where
  aggregateType := show "account_balance" ≠ "" by decide
  payload := balancePayload_isRecord ..
  occurredAt := ⟨p.occurredAt, rfl⟩

/-- The events of accounts can be sent. -/
theorem AccountEvent.row_sendable (e : AccountEvent) : e.row.Sendable where
  aggregateType := show "account" ≠ "" by decide
  payload := by
    unfold row reason
    cases e.kind <;> rfl
  occurredAt := ⟨e.occurredAt, rfl⟩

/-- A row that can be sent is inserted. -/
theorem Db.Sendable.insert {t t' : Table OutboxEvent.id} (hs : ∀ x ∈ t, x.Sendable)
    (h : t.insert? e = some t') (he : e.Sendable) : ∀ x ∈ t', x.Sendable := by
  intro x hx
  rcases (Table.mem_insert? h).mp hx with rfl | hx
  · exact he
  · exact hs x hx

/-- A posted transfer adds events that can be sent. -/
theorem PostedTransfer.sendable {p : TransferRequest} {ids : TransferIds} {body : Json}
    (h : PostedTransfer p ids s s' body) (hs : s.Sendable) : s'.Sendable := by
  obtain ⟨t₁, t₂, h₁, h₂, h₃⟩ := h.outbox
  have hsource := (transferBalanceEvent_sendable ..).enrich h.source_enrich
  have hdestination := (transferBalanceEvent_sendable ..).enrich h.destination_enrich
  exact Db.Sendable.insert (Db.Sendable.insert (Db.Sendable.insert hs h₁ hsource) h₂ hdestination) h₃
    (transferPostedEvent_sendable p ids)

/-- Every command keeps the rows sendable. -/
theorem Change.sendable (h : Change d s s') (hs : s.Sendable) : s'.Sendable := by
  -- A change that keeps the outbox keeps its events.
  have hsame : s'.outbox = s.outbox → s'.Sendable := fun heq e he => hs e (heq ▸ he)
  cases h with
  | quiet frame => exact hsame (by rw [frame])
  | status => exact hsame rfl
  | claimed _ frame => exact hsame (by rw [frame])
  | cleared h frame => exact hsame (by rw [frame, h.frame])
  | rejected h => exact hsame (by rw [h.frame, Db.prune])
  | posted h => exact h.sendable hs
  -- A correction inserts two events, one for each account.
  | corrected h =>
    obtain ⟨t, h₁, h₂⟩ := h.outbox
    have hsource := (transferBalanceEvent_sendable ..).enrich h.source_enrich
    have hdestination := (transferBalanceEvent_sendable ..).enrich h.destination_enrich
    exact Db.Sendable.insert (Db.Sendable.insert hs h₁ hsource) h₂ hdestination
  | funded h =>
    exact Db.Sendable.insert hs h.outbox ((fundingBalanceEvent_sendable ..).enrich h.enrich)
  | reserved h => exact Db.Sendable.insert hs h.outbox (holdBalanceEvent_sendable ..)
  | returned _ h => exact Db.Sendable.insert hs h.outbox (holdBalanceEvent_sendable ..)
  | captured h =>
    have hmid : h.mid.Sendable := h.posted.sendable hs
    have heq : s'.outbox = h.mid.outbox := (congrArg Db.outbox h.frame :)
    exact fun e he => hmid e (heq ▸ he)
  -- An import inserts one event for each line of its manifest.
  | @imported p ids _ h =>
    have hevents : ∀ e ∈ h.events, e.Sendable := by
      have hall := h.events_eq.imp (S := fun _ e => e.Sendable) fun r e hr => by
        obtain ⟨b, -, rfl⟩ := hr
        exact importEvent_sendable ..
      generalize s.manifest p = rows, h.events = events at hall ⊢
      induction hall with
      | nil => nofun
      | cons he _ ih => exact List.forall_mem_cons.mpr ⟨he, ih⟩
    intro e he
    rcases (Table.mem_insertAll? h.outbox).mp he with he | he
    · exact hevents e he
    · exact hs e he

end Rows

/-! ## Stamps of events -/

/-- The stamps of an event are what the decoder asks for. -/
def QueuedEvent.Stamped (q : QueuedEvent) : Prop := ∀ m, q.origin = some m → m.Bounded

section Stamps

variable {c : QueueCall} {s s' : QueueDb} {q q' : QueuedEvent}

/-- The text of an identifier takes 36 octets. -/
theorem Uuid.size_text (u : Uuid) : u.text.utf8ByteSize = 36 := by
  have hascii : ∀ c ∈ u.text.toList, c.toNat < 128 := fun c hc => by
    have hprintable := u.printable_text hc
    omega
  rw [utf8ByteSize_of_ascii hascii, u.length_text]

/-- A name that the database keeps is shorter than 64 octets. -/
theorem ApplicationName.size (app : ApplicationName) : app.text.utf8ByteSize < 64 := by
  rw [utf8ByteSize_of_ascii fun c hc => lt_trans (app.printable c hc).2 (by decide)]
  exact app.short

/-- The origin of an event never changes. -/
theorem QueuedEvent.Step.origin (h : q.Step c q') : q'.origin = q.origin := by
  cases h <;> rfl

/-- A new counter is positive. -/
theorem advanceLogicalClock_pos {node : String} {received : ℤ} {k : Bigint}
    (hreceived : 0 ≤ received) (h : advanceLogicalClock node received s = .ok (k, s')) :
    1 ≤ (k : ℤ) := by
  have hk := (advanceLogicalClock_ok h).1
  have hle := le_max_right (s.clock node) received
  omega

/-- What the trigger stamps is bounded. -/
theorem stampOutboxLogicalClock_bounded {app : ApplicationName} {transfer : Option Uuid}
    {node : String} {stamp : Bigint} {parent : Option String}
    (h : stampOutboxLogicalClock app.text transfer s = .ok (some (node, stamp, parent), s')) :
    (CausalMetadata.mk node stamp (parent.getD "")).Bounded := by
  unfold stampOutboxLogicalClock at h
  split_ifs at h with hcomponent
  -- The stamp names the application, the value just advanced to and the transfer.
  · obtain ⟨k, s₁, hadvance, hpure⟩ := Txn.bind_ok.mp h
    obtain ⟨hsome, -⟩ := Txn.pure_ok.mp hpure
    obtain ⟨rfl, rfl, rfl⟩ : app.text = node ∧ k = stamp ∧
        (transfer.map fun t => "transfer/" ++ t.text) = parent := by simpa using hsome
    have hsize := app.size
    refine ⟨fun hempty => ?_, hsize.le.trans (by decide), ?_, advanceLogicalClock_pos le_rfl hadvance⟩
    -- The name starts with one of the two component prefixes, so that it is not empty.
    · have hprefix : ∀ p : List Char, p ≠ [] → ¬p <+: app.text.toList := by
        intro p hp hle
        have hempty' : app.text = "" := hempty
        rw [hempty'] at hle
        exact hp (List.prefix_nil.mp hle)
      rcases hcomponent with h' | h'
      · exact hprefix _ (by decide) h'
      · exact hprefix _ (by decide) h'
    · rcases transfer with _ | t
      · exact Nat.zero_le _
      · show ("transfer/" ++ t.text).utf8ByteSize ≤ 128
        rw [String.utf8ByteSize_append, t.size_text]
        decide
  · obtain ⟨hnone, -⟩ := Txn.pure_ok.mp h
    cases hnone

/-- A new event is stamped so. -/
theorem insertQueued_stamped {app : ApplicationName} {e : NewEvent} {r : List StampedEvent}
    (h : insertQueued app.text e s = .ok (r, s')) (hs : ∀ q ∈ s.events, q.Stamped) :
    ∀ q ∈ s'.events, q.Stamped := by
  unfold insertQueued at h
  obtain ⟨stamped, s₁, hstamp, hrest⟩ := Txn.bind_ok.mp h
  simp only [Txn.get_bind_ok, Txn.orRaise_bind_ok, Txn.set_bind_ok, Txn.pure_ok] at hrest
  obtain ⟨t, ht, -, rfl⟩ := hrest
  -- Stamping advances a clock and leaves the queue alone.
  have hevents : s₁.events = s.events := by
    unfold stampOutboxLogicalClock at hstamp
    split_ifs at hstamp
    · obtain ⟨k, s₂, hadvance, hpure⟩ := Txn.bind_ok.mp hstamp
      obtain ⟨-, rfl⟩ := Txn.pure_ok.mp hpure
      obtain ⟨-, -, -, hframe⟩ := advanceLogicalClock_ok hadvance
      rw [hframe]
    · obtain ⟨-, rfl⟩ := Txn.pure_ok.mp hstamp
      rfl
  rw [hevents] at ht
  intro q hq
  -- The event is the inserted one, whose stamp is within its bounds, or one of before.
  rcases (Table.mem_insert? ht).mp hq with rfl | hq
  · intro m hm
    rcases stamped with _ | ⟨node, stamp, parent⟩
    · cases hm
    · obtain rfl := Option.some.inj hm
      exact stampOutboxLogicalClock_bounded hstamp
  · exact hs q hq

/-- A call on events that are there keeps their stamps. -/
theorem QueueCall.exec_stamped {r : List StampedEvent} (hc : c.Delivers)
    (h : c.exec s = .ok (r, s')) (hs : ∀ q ∈ s.events, q.Stamped) : ∀ q ∈ s'.events, q.Stamped := by
  intro q' hq'
  have hfind := Table.find?_eq_some.mpr ⟨hq', rfl⟩
  have hsteps := (QueueCall.exec_step h).1
  rcases hold : s.events.find? q'.id with _ | q
  · obtain ⟨app, n, stamped, rfl, -⟩ := hsteps.new _ _ hold hfind
    exact hc.elim
  · obtain ⟨x, hx, hstep⟩ := hsteps.step _ q hold
    obtain rfl := Option.some.inj (hx.symm.trans hfind)
    intro m hm
    exact hs q (Table.mem_of_find? hold) m (hstep.origin ▸ hm)

end Stamps

/-! ## Every history -/

/-- Every row can be sent, and its stamps are bounded. -/
structure StreamDb.Sound (s : StreamDb) : Prop where
  sendable : s.ledger.Sendable
  stamped : ∀ q ∈ s.queue.events, q.Stamped

section Runs

variable {d : Digest} {s s' : StreamDb}

/-- Queued events are stamped, and the ledger stays. -/
theorem enqueue_ok {app : ApplicationName} {now : Uuid → Instant} {es : List OutboxEvent} {u : Unit}
    (h : enqueue app now es s = .ok (u, s')) (hs : ∀ q ∈ s.queue.events, q.Stamped) :
    s'.ledger = s.ledger ∧ ∀ q ∈ s'.queue.events, q.Stamped := by
  induction es generalizing s with
  | nil =>
    obtain ⟨-, rfl⟩ := Txn.pure_ok.mp h
    exact ⟨rfl, hs⟩
  | cons e es ih =>
    obtain ⟨r, s₁, hinsert, hrest⟩ := Txn.bind_ok.mp h
    obtain ⟨t, hqueue, rfl⟩ := Txn.zoom_ok.mp hinsert
    exact ih (s := { s with queue := t }) hrest (insertQueued_stamped hqueue hs)

/-- A call over a connection keeps the stream sound when its part on the ledger leaves events that
can be sent. -/
theorem overConnection_sound {app : ApplicationName} {now : Uuid → Instant} {x : Proc Unit} {u : Unit}
    (h : overConnection app now x s = .ok (u, s')) (hs : s.Sound)
    (hx : ∀ t, x s.ledger = .ok ((), t) → t.Sendable) : s'.Sound := by
  simp only [overConnection, Txn.get_bind_ok] at h
  obtain ⟨v, s₁, hledger, hrest⟩ := Txn.bind_ok.mp h
  obtain ⟨t, ht, rfl⟩ := Txn.zoom_ok.mp hledger
  obtain ⟨hsame, hstamped⟩ := enqueue_ok hrest hs.stamped
  exact ⟨hsame ▸ hx t ht, hstamped⟩

/-- Every call keeps the stream sound. -/
theorem streamExec_sound {c : StreamCall} {u : Unit} (h : streamExec d c s = .ok (u, s'))
    (hs : s.Sound) : s'.Sound := by
  cases c with
  | command app now c =>
    exact overConnection_sound h hs fun t ht => (exec_change ht).sendable hs.sendable
  | account app now e =>
    refine overConnection_sound h hs fun t ht => ?_
    obtain ⟨e', he, -, t', hinsert, rfl⟩ := insertOutbox_ok.mp ht
    exact Db.Sendable.insert hs.sendable hinsert (e.row_sendable.enrich he)
  | deliver c hc =>
    obtain ⟨r, hqueue⟩ := Txn.discard_ok.mp h
    obtain ⟨t, ht, rfl⟩ := Txn.zoom_ok.mp hqueue
    exact ⟨hs.sendable, QueueCall.exec_stamped hc ht hs.stamped⟩

/-- Every history keeps the stream sound. -/
theorem run_sound (cs : List StreamCall) (hs : s.Sound) : (run (streamExec d) cs s).Sound :=
  run_invariant (I := StreamDb.Sound) (fun _ _ _ _ h hs => streamExec_sound h hs) cs hs

/-- A row that is claimed is decoded, when the worker accepts it. -/
theorem scanEvent_decodable {row : OutboxEvent} {q : QueuedEvent} {e : EventEnvelope}
    (h : scanEvent row q = some e) (hrow : row.Sendable) (hq : q.Stamped) (hvalid : e.Valid) :
    e.Decodable ∧ ∃ u : Uuid, e.id = u.text := by
  obtain ⟨version, -, rfl⟩ := Option.map_eq_some_iff.mp h
  obtain ⟨t, ht⟩ := hrow.occurredAt
  simp only [EventEnvelope.Valid, not_or, not_lt] at hvalid
  obtain ⟨-, -, -, -, htype, hversion, hpayload⟩ := hvalid
  -- The payload was rendered from a record, which the scanner accepts.
  have hjson : jsonValid (String.ofList row.payload.render).toList = true := by
    rw [String.toList_ofList]
    exact Json.jsonValid_of_isRecord hrow.payload
  have hnonempty : String.ofList row.payload.render ≠ "" := by
    intro hempty
    rw [hempty] at hpayload
    exact hpayload rfl
  -- The instant fits the seconds that RFC 3339 can write.
  have hrange : t.micros * 1000 < wholeSeconds * 1000000000 := by
    have hlt := t.inRange
    unfold wholeSeconds
    omega
  have hnanos : row.occurredAt * 1000 = ((t.micros * 1000 : ℕ) : ℤ) := by
    rw [ht, instant, Nat.cast_mul]
    rfl
  have htime : ∃ nanos < wholeSeconds * 1000000000, row.occurredAt * 1000 = (nanos : ℤ) :=
    ⟨_, hrange, hnanos⟩
  exact ⟨⟨row.id.text_ne_empty, row.tenantId.text_ne_empty, htype, hrow.aggregateType,
    row.aggregateId.text_ne_empty, hversion, hnonempty, hjson, htime, hq,
    fun m hm => (Option.some_ne_none m hm.symm).elim⟩, row.id, rfl⟩

/-- A valid event that is claimed can be decoded. -/
theorem claimEvents_decodable {p : OutboxClaim} {events : List EventEnvelope}
    (h : claimEvents p s = .ok (events, s')) (hs : s.Sound) {e : EventEnvelope} (he : e ∈ events)
    (hvalid : e.Valid) : e.Decodable ∧ ∃ u : Uuid, e.id = u.text := by
  obtain ⟨claimed, s₁, hclaim, hrest⟩ := Txn.bind_ok.mp h
  obtain ⟨t, ht, rfl⟩ := Txn.zoom_ok.mp hclaim
  simp only [Txn.get_bind_ok, Txn.pure_ok] at hrest
  obtain ⟨rfl, -⟩ := hrest
  obtain ⟨hclaimed, -⟩ := controlledClaimOutboxV1_ok ht
  obtain ⟨q, hq, hscan⟩ := List.mem_filterMap.mp he
  obtain ⟨row, hrow, hscan⟩ := Option.bind_eq_some_iff.mp hscan
  rw [hclaimed] at hq
  obtain ⟨q₀, hq₀, rfl⟩ := List.mem_map.mp hq
  -- a claim keeps the stamps of the event
  have hstamped : (q₀.claim p).Stamped := hs.stamped q₀ (OutboxClaim.candidate_of_selected hq₀).1
  exact scanEvent_decodable hscan (hs.sendable row (Table.mem_of_find? hrow)) hstamped hvalid

/-- An event that is prepared for publication can be decoded as before. -/
theorem preparePublication_decodable {r : LogicalClockRepository} {sess : Session} {owner : String}
    {now : Instant} {trace : String} {e e' : EventEnvelope}
    (h : preparePublication r sess owner now trace e s = .ok (e', s')) (hs : s.Sound)
    (he : e.Decodable ∧ ∃ u : Uuid, e.id = u.text) : e'.Decodable ∧ ∃ u : Uuid, e'.id = u.text := by
  simp only [preparePublication, Txn.orRaise_bind_ok] at h
  obtain ⟨id, -, h⟩ := h
  obtain ⟨stamps, s₁, hprepare, h⟩ := Txn.bind_ok.mp h
  obtain ⟨t, ht, rfl⟩ := Txn.zoom_ok.mp hprepare
  simp only [Txn.orRaise_bind_ok, Txn.get_bind_ok, Txn.pure_ok] at h
  obtain ⟨sent, hsent, q, hq, rfl, -⟩ := h
  obtain ⟨hdecodable, u, hid⟩ := he
  -- The queued event is read again after the preparation, which keeps stamped events stamped.
  have hstamped : q.Stamped :=
    QueueCall.exec_stamped (c := .prepare sess ⟨id, owner, e.claimGeneration⟩ r.nodeId now) trivial ht
      hs.stamped q (Table.mem_of_find? (Option.filter_eq_some_iff.mp hq).1)
  -- The stamp is present, so that the preparation advanced the clock to it.
  have hpositive : 1 ≤ (sent.stamp : ℤ) := by
    rcases controlledPreparePublicationV1_ok ht with ⟨rfl, -⟩ |
        ⟨x, y, received, counter, s₁, -, -, hsend, -, -, rfl⟩
    · cases hsent
    · obtain rfl := Option.some.inj hsent
      exact advanceLogicalClock_pos le_rfl hsend
  have hnode : r.nodeId ≠ "" := by
    intro hempty
    have hbounded := r.bounded.1
    rw [hempty] at hbounded
    exact absurd hbounded (by decide)
  have hparent : e.id.utf8ByteSize ≤ 128 := by
    rw [hid, u.size_text]
    decide
  refine ⟨{ hdecodable with causal := hstamped, delivery := fun m hm => ?_ }, u, hid⟩
  obtain rfl := Option.some.inj hm
  exact ⟨⟨hnode, r.bounded.2, hparent, hpositive⟩, rfl⟩

/-- Every published event can be decoded. -/
theorem Published.decodable {s₀ : StreamDb} (hs : s₀.Sound) {e : EventEnvelope}
    (h : Published d s₀ e) : e.Decodable ∧ ∃ u : Uuid, e.id = u.text := by
  induction h with
  | @claimed cs _ _ _ _ h mem valid => exact claimEvents_decodable h (run_sound cs hs) mem valid
  | @prepared cs _ _ _ _ _ _ _ _ _ h' ih => exact preparePublication_decodable h' (run_sound cs hs) ih

end Runs

/-! ## The main result -/

/-- **Every published event is read back**: whatever the calls before its claim and before the stamp
of its delivery, the fields of the event are decoded to the event, with its origin and its delivery,
whose parent is the event. A batch of such entries is therefore decoded whole. -/
theorem stream_round_trip (d : Digest) (traced : String → Bool) {s₀ : StreamDb}
    (hledger : s₀.ledger.outbox = .empty) (hqueue : s₀.queue.events = .empty) :
    (∀ e parent, Published d s₀ e →
      decodeEvent traced (publish parent e) =
        .ok (e.received (if traced parent then parent else "")) ∧
      ∀ m, e.delivery = some m → m.parentReference = e.id) ∧
    ∀ messages : List StreamMessage,
      (∀ m ∈ messages, ∃ e parent, Published d s₀ e ∧ m.values = publish parent e) →
      ∃ events, decodeMessages traced messages = .ok events ∧
        events.map Prod.fst = messages.map StreamMessage.id := by
  have hs : s₀.Sound := by
    refine ⟨fun e he => ?_, fun q hq => ?_⟩
    · rw [hledger] at he
      cases he
    · rw [hqueue] at hq
      cases hq
  have hdecode : ∀ e parent, Published d s₀ e → decodeEvent traced (publish parent e) =
      .ok (e.received (if traced parent then parent else "")) := fun e parent h =>
    decodeEvent_publish traced parent (h.decodable hs).1
  refine ⟨fun e parent h => ⟨hdecode e parent h, fun m hm => ?_⟩, fun messages h => ?_⟩
  · exact ((h.decodable hs).1.delivery m hm).2
  · refine decodeMessages_ok fun m hm => ?_
    obtain ⟨e, parent, hpublished, hvalues⟩ := h m hm
    exact ⟨_, hvalues ▸ hdecode e parent hpublished⟩

namespace Sample

/-- The name of a component. -/
def component : ApplicationName := ⟨"ledgersync/api/1", by decide, by decide⟩

/-- The ledger and an empty queue. -/
def streamDb : StreamDb := ⟨db, queue⟩

/-- A component freezes an account. -/
def frozenOver : StreamCall :=
  .account component (fun _ => 0) ⟨uuid 100, tenant, source, .statusChanged "requested by its owner",
    "INR", .frozen, big 2, hour 0⟩

/-- A worker claims the events. -/
def streamClaim : OutboxClaim := ⟨10, "worker", 1000, fun _ => 1, fun _ => 1, fun _ => 1, []⟩

/-- The claim as a call. -/
def claimedOver : StreamCall := .deliver (.claim streamClaim) trivial

/-- The clock of the worker. -/
def workerClock : LogicalClockRepository := ⟨"ledgersync/worker/1", by decide⟩

/-- The session of the worker. -/
def publisherSession : Session := ⟨tenant.text, "worker", false⟩

/-- The events of the claim. -/
def claimedEvents : List EventEnvelope :=
  match claimEvents streamClaim (run (streamExec digest) [frozenOver] streamDb) with
  | .ok (events, _) => events
  | .error _ => []

/-- An event with the stamp of its delivery. -/
def preparedEvent (e : EventEnvelope) : Option EventEnvelope :=
  match preparePublication workerClock publisherSession "worker" 2 "" e
      (run (streamExec digest) [frozenOver, claimedOver] streamDb) with
  | .ok (e', _) => some e'
  | .error _ => none

end Sample

/-- The event of a frozen account is published and read back, with the stamp of its delivery and
without it. -/
theorem stream_round_trip_sample : ∃ e e', Published Sample.digest Sample.streamDb e ∧
    Published Sample.digest Sample.streamDb e' ∧
    e.causal ≠ none ∧ e.delivery = none ∧ e'.delivery ≠ none ∧
    decodeEvent (fun _ => false) (publish "" e) = .ok (e.received "") ∧
    decodeEvent (fun _ => false) (publish "" e') = .ok (e'.received "") := by
  -- One sample event is stamped by both calls; the facts about it are evaluated at once.
  have hfacts : (Sample.claimedEvents.any fun e => e.Valid ∧ e.causal ≠ none ∧ e.delivery = none ∧
      (Sample.preparedEvent e).any fun e' => e'.delivery ≠ none) = true := by
    decide +kernel
  obtain ⟨e, he, hfacts⟩ := List.any_eq_true.mp hfacts
  obtain ⟨hvalid, hcausal, hdelivery, hprepared⟩ := of_decide_eq_true hfacts
  obtain ⟨e', he', hstamped⟩ := (Option.any_eq_true _ _).mp hprepared
  -- The event comes from the claim and, prepared, from the publication.
  have hclaimed : Published Sample.digest Sample.streamDb e := by
    unfold Sample.claimedEvents at he
    rcases hclaim : claimEvents Sample.streamClaim
        (run (streamExec Sample.digest) [Sample.frozenOver] Sample.streamDb) with x | ⟨events, s'⟩
    · rw [hclaim] at he
      cases he
    · rw [hclaim] at he
      exact .claimed hclaim he hvalid
  have hpublished : Published Sample.digest Sample.streamDb e' := by
    unfold Sample.preparedEvent at he'
    rcases hprepare : preparePublication Sample.workerClock Sample.publisherSession "worker" 2 "" e
        (run (streamExec Sample.digest) [Sample.frozenOver, Sample.claimedOver] Sample.streamDb)
        with x | ⟨e₁, s'⟩
    · rw [hprepare] at he'
      cases he'
    · rw [hprepare] at he'
      obtain rfl := Option.some.inj he'
      exact .prepared hclaimed hprepare
  have hempty : Sample.streamDb.ledger.outbox = .empty ∧ Sample.streamDb.queue.events = .empty :=
    ⟨rfl, rfl⟩
  have hround := (stream_round_trip Sample.digest (fun _ => false) hempty.1 hempty.2).1
  exact ⟨e, e', hclaimed, hpublished, hcausal, hdelivery, of_decide_eq_true hstamped,
    (hround e "" hclaimed).1, (hround e' "" hpublished).1⟩

end LedgerSync
