import LedgerSync.AccountCommands
import LedgerSync.Outbox
import LedgerSync.Lib.JsonScanner
import Mathlib.Computability.Primrec.List

/-!
# Events on the stream

A worker claims an outbox event, checks it and publishes it as a map of text fields; a consumer
decodes the fields into an event again. The encoder writes defaults for what is empty and leaves out
what is absent, and the decoder has its own notion of what has to be there. An event that meets what
the decoder asks for is decoded to itself (`decodeEvent_publish`).

The trace header is written from the span of the publication and is not part of the event; whether a
header names a trace is a parameter of the decoder.
-/

namespace LedgerSync

open Lib

/-! ## Events of the worker -/

/-- `outbox.CausalMetadata`. -/
structure CausalMetadata where
  nodeId : String
  timestamp : Bigint
  parentReference : String
deriving DecidableEq

/-- `outbox.Event`. The payload is the text of a document. -/
structure EventEnvelope where
  id : String
  tenantId : String
  transferId : String
  accountId : String
  aggregateType : String
  aggregateId : String
  eventType : String
  aggregateVersion : Bigint
  payload : String
  occurredAt : Time
  attemptCount : ℤ
  claimGeneration : ℤ
  causal : Option CausalMetadata
  delivery : Option CausalMetadata
  diagnosticTraceParent : String
deriving DecidableEq

/-- What a row says about the origin of its event, when it has a node and a timestamp. -/
def QueuedEvent.origin (q : QueuedEvent) : Option CausalMetadata :=
  match q.nodeId, q.logicalTimestamp with
  | some node, some timestamp => some ⟨node, timestamp, q.parentReference.getD ""⟩
  | _, _ => none

/-- The scan of a row that `controlled_claim_outbox_v1` returns: the columns of the event, and those
of its delivery. -/
def scanEvent (e : OutboxEvent) (q : QueuedEvent) : Option EventEnvelope :=
  (Bigint.ofInt? e.aggregateVersion).map fun version => {
    id := e.id.text
    tenantId := e.tenantId.text
    transferId := (e.transferId.map Uuid.text).getD ""
    accountId := (e.accountId.map Uuid.text).getD ""
    aggregateType := e.aggregateType
    aggregateId := e.aggregateId.text
    eventType := e.eventType
    aggregateVersion := version
    payload := String.ofList e.payload.render
    occurredAt := e.occurredAt * 1000
    attemptCount := q.attemptCount
    claimGeneration := q.claimGeneration
    causal := q.origin
    delivery := none
    diagnosticTraceParent := "" }

/-- `validate`. -/
def EventEnvelope.Valid (e : EventEnvelope) : Prop :=
  let aggregateType :=
    if e.aggregateType = "" ∧ e.accountId ≠ "" then "account_balance" else e.aggregateType
  let aggregateId := if e.aggregateId = "" then e.accountId else e.aggregateId
  ¬(e.id = "" ∨ e.tenantId = "" ∨ aggregateType = "" ∨ aggregateId = "" ∨ e.eventType = "" ∨
    (e.aggregateVersion : ℤ) < 0 ∨ e.payload.utf8ByteSize = 0)

/-- Whether an event is valid can be decided. -/
instance EventEnvelope.decidableValid (e : EventEnvelope) : Decidable e.Valid :=
  inferInstanceAs (Decidable (¬_))

/-! ## Fields -/

/-- A value of a field map; the client of the stream returns texts. -/
inductive FieldValue where
  | text (s : String)
  | other

/-- The fields of an entry. -/
abbrev Fields : Type := List (String × FieldValue)

/-- The fields that `Publish` adds, where `parent` is the trace of its span. -/
def publish (parent : String) (event : EventEnvelope) : Fields :=
  let aggregateType := if event.aggregateType = "" then "account_balance" else event.aggregateType
  let aggregateId := if event.aggregateId = "" then event.accountId else event.aggregateId
  ([("event_id", .text event.id), ("event_type", .text event.eventType),
    ("tenant_id", .text event.tenantId), ("transfer_id", .text event.transferId),
    ("account_id", .text event.accountId), ("aggregate_type", .text aggregateType),
    ("aggregate_id", .text aggregateId), ("aggregate_version", .text event.aggregateVersion.text),
    ("payload", .text event.payload), ("occurred_at", .text (timeText event.occurredAt))] :
      Fields) ++
  (if parent = "" then [] else [("diagnostic_traceparent", .text parent)]) ++
  (match event.causal with
    | none => []
    | some m => [("origin_node_id", .text m.nodeId),
        ("origin_logical_timestamp", .text m.timestamp.text),
        ("parent_reference", .text m.parentReference)]) ++
  match event.delivery with
  | none => []
  | some m => [("delivery_node_id", .text m.nodeId),
      ("delivery_logical_timestamp", .text m.timestamp.text)]

/-- A field that has to be there, and not empty. -/
def Fields.get (values : Fields) (key : String) : Except String String :=
  match values.lookup key with
  | none => .error ("redis stream message missing " ++ key)
  | some (.text s) =>
    if s = "" then .error ("redis stream message has invalid " ++ key) else .ok s
  | some .other => .error ("redis stream message has invalid " ++ key)

/-- A field that may be absent. -/
def Fields.optional (values : Fields) (key : String) : String :=
  match values.lookup key with
  | some (.text s) => s
  | _ => ""

/-- `strconv.ParseInt(text, 10, 64)`. -/
def parseBigint (text : String) : Option Bigint := (parseInt64 text).bind Bigint.ofInt?

/-- `decodeCausal`. -/
def decodeCausal (values : Fields) (side parent : String) :
    Except String (Option CausalMetadata) :=
  match values.lookup (side ++ "_node_id"), values.lookup (side ++ "_logical_timestamp") with
  | none, none => .ok none
  | some (.text node), stamp =>
    if node = "" ∨ 128 < node.utf8ByteSize ∨ 128 < parent.utf8ByteSize then
      .error "invalid causal node metadata"
    else match stamp with
      | some (.text text) =>
        match parseBigint text with
        | none => .error "invalid causal counter metadata"
        | some stamp =>
          if (stamp : ℤ) < 1 then .error "invalid causal counter metadata"
          else .ok (some ⟨node, stamp, parent⟩)
      | _ => .error "invalid causal counter metadata"
  | _, _ => .error "invalid causal node metadata"

/-- The version of an entry. -/
def decodeVersion (text : String) : Except String Bigint :=
  match parseBigint text with
  | none => .error "redis stream message has invalid aggregate_version"
  | some version =>
    if (version : ℤ) < 0 then .error "redis stream message has invalid aggregate_version"
    else .ok version

/-- The time of an entry. -/
def decodeTime (text : String) : Except String Time :=
  match parseRfc3339 text with
  | none => .error "redis stream message has invalid occurred_at"
  | some t => .ok t

/-- `decodeEvent`, where `traced` says whether a header names a trace. -/
def decodeEvent (traced : String → Bool) (values : Fields) : Except String EventEnvelope := do
  let id ← values.get "event_id"
  let eventType ← values.get "event_type"
  let tenantId ← values.get "tenant_id"
  let transferId := values.optional "transfer_id"
  let accountId := values.optional "account_id"
  let version ← decodeVersion (← values.get "aggregate_version")
  let payload ← values.get "payload"
  let occurredAt ← decodeTime (← values.get "occurred_at")
  if !jsonValid payload.toList then throw "redis stream message payload is not JSON"
  let aggregateType := values.optional "aggregate_type"
  let aggregateId := values.optional "aggregate_id"
  let aggregateType := if aggregateType = "" then "account_balance" else aggregateType
  let aggregateId := if aggregateId = "" then accountId else aggregateId
  let origin ← decodeCausal values "origin" (values.optional "parent_reference")
  let delivery ← decodeCausal values "delivery" id
  let parent := values.optional "diagnostic_traceparent"
  let parent := if traced parent then parent else ""
  pure {
    id := id
    tenantId := tenantId
    transferId := transferId
    accountId := accountId
    aggregateType := aggregateType
    aggregateId := aggregateId
    eventType := eventType
    aggregateVersion := version
    payload := payload
    occurredAt := occurredAt
    attemptCount := 0
    claimGeneration := 0
    causal := origin
    delivery := delivery
    diagnosticTraceParent := parent }

/-- An entry of the stream. -/
structure StreamMessage where
  id : String
  values : Fields

/-- `decodeMessages`: one entry that is not decoded refuses the batch. -/
def decodeMessages (traced : String → Bool) (messages : List StreamMessage) :
    Except String (List (String × EventEnvelope)) :=
  messages.mapM fun message => do
    let event ← decodeEvent traced message.values
    pure (message.id, event)

/-! ## Reading back -/

/-- What the decoder asks of causal metadata. -/
structure CausalMetadata.Bounded (m : CausalMetadata) : Prop where
  node : m.nodeId ≠ ""
  nodeSize : m.nodeId.utf8ByteSize ≤ 128
  parentSize : m.parentReference.utf8ByteSize ≤ 128
  timestamp : 1 ≤ (m.timestamp : ℤ)

/-- What the decoder asks of an event. -/
structure EventEnvelope.Decodable (e : EventEnvelope) : Prop where
  id : e.id ≠ ""
  tenantId : e.tenantId ≠ ""
  eventType : e.eventType ≠ ""
  aggregateType : e.aggregateType ≠ ""
  aggregateId : e.aggregateId ≠ ""
  version : 0 ≤ (e.aggregateVersion : ℤ)
  payload : e.payload ≠ ""
  json : jsonValid e.payload.toList = true
  time : ∃ nanos < wholeSeconds * 1000000000, e.occurredAt = (nanos : ℕ)
  causal : ∀ m, e.causal = some m → m.Bounded
  delivery : ∀ m, e.delivery = some m → m.Bounded ∧ m.parentReference = e.id

/-- The event that a consumer reads. -/
def EventEnvelope.received (e : EventEnvelope) (trace : String) : EventEnvelope :=
  { e with attemptCount := 0, claimGeneration := 0, diagnosticTraceParent := trace }

section ReadBack

variable {values : Fields} {key text : String} {e : EventEnvelope}

/-- A field that is there and not empty is got. -/
theorem Fields.get_eq (h : values.lookup key = some (.text text)) (hne : text ≠ "") :
    values.get key = .ok text := by
  unfold Fields.get
  simp only [h, if_neg hne]

/-- A field that is there is the optional one. -/
theorem Fields.optional_eq (h : values.lookup key = some (.text text)) :
    values.optional key = text := by
  unfold Fields.optional
  rw [h]

/-- The text of a `bigint` is read back. -/
theorem parseBigint_text (b : Bigint) : parseBigint b.text = some b := by
  have hparse : parseInt64 b.text = some (b : ℤ) := parseInt64_decimal b.inRange.1 b.inRange.2
  rw [parseBigint, hparse, Option.bind_some]
  exact Bigint.ofInt?_eq_some.mpr rfl

/-- The text of a `bigint` is not empty. -/
theorem Bigint.text_ne_empty (b : Bigint) : b.text ≠ "" := by
  intro h
  have hread := parseBigint_text b
  rw [h, show parseBigint "" = none by decide] at hread
  cases hread

/-- Metadata that is written with its side is read back. -/
theorem decodeCausal_eq {side : String} {m : CausalMetadata} (h : m.Bounded)
    (hnode : values.lookup (side ++ "_node_id") = some (.text m.nodeId))
    (hstamp : values.lookup (side ++ "_logical_timestamp") = some (.text m.timestamp.text)) :
    decodeCausal values side m.parentReference = .ok (some m) := by
  have hbounds : ¬(m.nodeId = "" ∨ 128 < m.nodeId.utf8ByteSize ∨
      128 < m.parentReference.utf8ByteSize) := by
    have := h.nodeSize
    have := h.parentSize
    rintro (hempty | hlong | hlong)
    · exact h.node hempty
    · omega
    · omega
  have hpositive : ¬(m.timestamp : ℤ) < 1 := not_lt.mpr h.timestamp
  unfold decodeCausal
  simp only [hnode, hstamp, if_neg hbounds, parseBigint_text, if_neg hpositive]

/-- Metadata that is not written is not read. -/
theorem decodeCausal_none {side parent : String} (hnode : values.lookup (side ++ "_node_id") = none)
    (hstamp : values.lookup (side ++ "_logical_timestamp") = none) :
    decodeCausal values side parent = .ok none := by
  unfold decodeCausal
  rw [hnode, hstamp]

/-- A time before the last whole second is read back. -/
theorem timeText_decode {t : Time} {nanos : ℕ} (hlt : nanos < wholeSeconds * 1000000000)
    (ht : t = nanos) : decodeTime (timeText t) = .ok t := by
  unfold decodeTime timeText
  rw [ht, Int.toNat_natCast, parseRfc3339_nanoText hlt]

/-- The text of a time is not empty. -/
theorem timeText_ne_empty (t : Time) : timeText t ≠ "" := by
  intro h
  have hlist := congrArg String.toList h
  simp [timeText, nanoText] at hlist

/-- The fields that every entry has. -/
theorem publish_lookup (parent : String) (htype : e.aggregateType ≠ "") (hid : e.aggregateId ≠ "") :
    let values := publish parent e
    values.lookup "event_id" = some (.text e.id) ∧
      values.lookup "event_type" = some (.text e.eventType) ∧
      values.lookup "tenant_id" = some (.text e.tenantId) ∧
      values.lookup "transfer_id" = some (.text e.transferId) ∧
      values.lookup "account_id" = some (.text e.accountId) ∧
      values.lookup "aggregate_type" = some (.text e.aggregateType) ∧
      values.lookup "aggregate_id" = some (.text e.aggregateId) ∧
      values.lookup "aggregate_version" = some (.text e.aggregateVersion.text) ∧
      values.lookup "payload" = some (.text e.payload) ∧
      values.lookup "occurred_at" = some (.text (timeText e.occurredAt)) := by
  simp [publish, List.lookup, htype, hid]

/-- The fields that an entry has when the event has what they say. -/
theorem publish_lookup_optional (parent : String) :
    let values := publish parent e
    values.lookup "diagnostic_traceparent" =
        (if parent = "" then none else some (.text parent)) ∧
      values.lookup "origin_node_id" = e.causal.map (.text ·.nodeId) ∧
      values.lookup "origin_logical_timestamp" = e.causal.map (.text ·.timestamp.text) ∧
      values.lookup "parent_reference" = e.causal.map (.text ·.parentReference) ∧
      values.lookup "delivery_node_id" = e.delivery.map (.text ·.nodeId) ∧
      values.lookup "delivery_logical_timestamp" = e.delivery.map (.text ·.timestamp.text) := by
  rcases hcausal : e.causal with _ | m <;> rcases hdelivery : e.delivery with _ | m' <;>
    by_cases hparent : parent = "" <;>
    simp [publish, List.lookup, hcausal, hdelivery, hparent]

/-- Metadata of a side that is written where the event has it. -/
theorem decodeCausal_map {side parent : String} {m : Option CausalMetadata}
    (hm : ∀ x, m = some x → x.Bounded ∧ x.parentReference = parent)
    (hnode : values.lookup (side ++ "_node_id") = m.map (.text ·.nodeId))
    (hstamp : values.lookup (side ++ "_logical_timestamp") = m.map (.text ·.timestamp.text)) :
    decodeCausal values side parent = .ok m := by
  rcases m with _ | x
  · exact decodeCausal_none hnode hstamp
  · obtain ⟨hbounded, rfl⟩ := hm x rfl
    exact decodeCausal_eq hbounded hnode hstamp

/-- An event that meets what the decoder asks for is decoded to itself. -/
theorem decodeEvent_publish (traced : String → Bool) (parent : String) (h : e.Decodable) :
    decodeEvent traced (publish parent e) =
      .ok (e.received (if traced parent then parent else "")) := by
  -- Each field of the message is found under its name.
  obtain ⟨hid, htype, htenant, htransfer, haccount, haggregate, haggregateId, hversion, hpayload,
    htime⟩ := publish_lookup parent h.aggregateType h.aggregateId
  obtain ⟨htrace, hnode, hstamp, hparent, hdnode, hdstamp⟩ := @publish_lookup_optional e parent
  obtain ⟨nanos, hlt, hnanos⟩ := h.time
  -- The stamps are rebuilt from node and counter.
  have horigin : decodeCausal (publish parent e) "origin"
      ((publish parent e).optional "parent_reference") = .ok e.causal := by
    refine decodeCausal_map (fun x hx => ⟨h.causal x hx, ?_⟩) hnode hstamp
    rw [hx, Option.map_some] at hparent
    exact (Fields.optional_eq hparent).symm
  have hdelivery : decodeCausal (publish parent e) "delivery" e.id = .ok e.delivery :=
    decodeCausal_map h.delivery hdnode hdstamp
  have hheader : (publish parent e).optional "diagnostic_traceparent" = parent := by
    unfold Fields.optional
    rw [htrace]
    split_ifs with hempty
    · exact hempty.symm
    · rfl
  -- The version is a decimal number that is not negative.
  have hdecoded : decodeVersion e.aggregateVersion.text = .ok e.aggregateVersion := by
    unfold decodeVersion
    simp only [parseBigint_text, if_neg (not_lt.mpr h.version)]
  unfold decodeEvent
  simp only [Fields.get_eq hid h.id, Fields.get_eq htype h.eventType,
    Fields.get_eq htenant h.tenantId, Fields.get_eq hversion e.aggregateVersion.text_ne_empty,
    Fields.get_eq hpayload h.payload, Fields.get_eq htime (timeText_ne_empty _),
    Fields.optional_eq htransfer, Fields.optional_eq haccount, Fields.optional_eq haggregate,
    Fields.optional_eq haggregateId, hdecoded, timeText_decode hlt hnanos, h.json, horigin, hdelivery,
    hheader, if_neg h.aggregateType, if_neg h.aggregateId, bind, Except.bind, Bool.not_true,
    Bool.false_eq_true, if_false]
  rfl

/-- A batch of entries that are decoded is decoded. -/
theorem decodeMessages_ok {traced : String → Bool} {messages : List StreamMessage}
    (h : ∀ m ∈ messages, ∃ event, decodeEvent traced m.values = .ok event) :
    ∃ events, decodeMessages traced messages = .ok events ∧
      events.map Prod.fst = messages.map StreamMessage.id := by
  induction messages with
  | nil => exact ⟨[], rfl, rfl⟩
  | cons m ms ih =>
    obtain ⟨event, hevent⟩ := h m List.mem_cons_self
    obtain ⟨events, hevents, hids⟩ := ih fun x hx => h x (List.mem_cons_of_mem _ hx)
    refine ⟨(m.id, event) :: events, ?_, by rw [List.map_cons, List.map_cons, hids]⟩
    unfold decodeMessages at hevents ⊢
    rw [List.mapM_cons, hevent, hevents]
    rfl

end ReadBack

end LedgerSync
