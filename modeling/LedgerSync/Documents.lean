import LedgerSync.Statements

/-!
# Sizes of documents and the audit procedure

`controlled_append_audit_v1` checks what it is given: names, lengths, and the size of the metadata
as a text. Here are bounds for the size of a document of plain texts, and from them the one fact
that callers need: an audit event with a few plain fields is appended.
-/

namespace LedgerSync

open Lib

namespace Json

/-- The bytes of a document as a text, `octet_length(doc::text)`. -/
def size (doc : Json) : ℕ := (String.ofList doc.render).utf8ByteSize

/-- A text that is quoted as it is. -/
def Plain (s : String) : Prop :=
  ∀ c ∈ s.toList, 32 ≤ c.toNat ∧ c.toNat < 127 ∧ c ≠ '"' ∧ c ≠ '\\'

/-- Whether a text is plain can be decided. -/
instance (s : String) : Decidable (Plain s) := inferInstanceAs (Decidable (∀ c ∈ _, _))

/-- A plain character is not escaped. -/
theorem escape_of_plain {c : Char} (h : 32 ≤ c.toNat ∧ c.toNat < 127 ∧ c ≠ '"' ∧ c ≠ '\\') :
    escape c = [c] := by
  have hne : ∀ x : Char, x.toNat < 32 → c ≠ x := by
    rintro x hx rfl
    omega
  unfold escape
  rw [if_neg h.2.2.1, if_neg h.2.2.2, if_neg (hne _ (by decide)), if_neg (hne _ (by decide)),
    if_neg (hne _ (by decide)), if_neg (by omega), if_neg (by omega), if_neg (by omega)]

/-- Characters that are not escaped are written as they are. -/
theorem flatMap_escape {l : List Char} (h : ∀ c ∈ l, escape c = [c]) : l.flatMap escape = l := by
  induction l with
  | nil => rfl
  | cons c l ih =>
    rw [List.flatMap_cons, h c List.mem_cons_self, ih fun x hx => h x (List.mem_cons_of_mem _ hx)]
    rfl

/-- A plain text has its characters and two quotes. -/
theorem size_str {s : String} (h : Plain s) : (str s).size = s.toList.length + 2 := by
  have hascii : ∀ c ∈ (String.ofList s.toList).toList, c.toNat < 128 := by
    intro c hc
    rw [String.toList_ofList] at hc
    have := (h c hc).2.1
    omega
  have hquote : (String.ofList ['"']).utf8ByteSize = 1 := by
    rw [ofList_cons_size (by decide)]
    rfl
  unfold size
  rw [render, quote, flatMap_escape fun c hc => escape_of_plain (h c hc), ofList_append_size,
    ofList_cons_size (by decide), utf8ByteSize_of_ascii hascii, hquote, String.toList_ofList]
  omega

/-- An object has its keys and values, their separators and two braces. -/
theorem size_obj_le (fields : List (String × Json)) :
    (obj fields).size ≤ 2 + (fields.map fun f => (str f.1).size + f.2.size + 4).sum := by
  have hfields : ∀ l : List (String × Json), (String.ofList (renderFields l)).utf8ByteSize ≤
      (l.map fun f => (str f.1).size + f.2.size + 4).sum := by
    -- Name, value and two separators at most.
    intro l
    induction l with
    | nil => exact le_rfl
    | cons f l ih =>
      obtain ⟨k, v⟩ := f
      cases l with
      | nil =>
        rw [renderFields, ofList_append_size, ofList_cons_size (by decide),
          ofList_cons_size (by decide)]
        simp only [size, render, List.map_cons, List.map_nil, List.sum_cons, List.sum_nil]
        omega
      | cons g rest =>
        rw [renderFields, ofList_append_size, ofList_append_size, ofList_cons_size (by decide),
          ofList_cons_size (by decide), ofList_cons_size (by decide), ofList_cons_size (by decide),
          List.map_cons, List.sum_cons]
        unfold size at ih ⊢
        rw [render.eq_def (.str k)]
        dsimp only
        omega
  -- The closing brace is one more byte.
  have hclose : (String.ofList ['\x7d']).utf8ByteSize = 1 := by
    rw [ofList_cons_size (by decide)]
    rfl
  have hle := hfields fields
  unfold size at hle ⊢
  rw [render, ofList_append_size, ofList_cons_size (by decide), hclose]
  omega

end Json

/-- The text of an identifier is plain. -/
theorem Uuid.plain_text (u : Uuid) : Json.Plain u.text := by
  intro c hc
  obtain ⟨hlo, hhi, hquote, hslash⟩ := Uuid.printable_text hc
  exact ⟨hlo.le, hhi, hquote, hslash⟩

/-- A plain text has no control character. -/
theorem not_hasControl_of_plain {s : String} (h : Json.Plain s) : ¬HasControl s := by
  rintro ⟨c, hc, hlow | ⟨hhigh, -⟩⟩
  · have := (h c hc).1
    omega
  · have := (h c hc).2.1
    omega

/-- A plain text takes one octet for each character. -/
theorem utf8ByteSize_of_plain {s : String} (h : Json.Plain s) :
    s.utf8ByteSize = s.toList.length := by
  refine utf8ByteSize_of_ascii fun c hc => ?_
  have := (h c hc).2.1
  omega

/-- An audit name has plain characters only. -/
theorem IsAuditName.plain {dots : Bool} {limit : ℕ} {s : String} (h : IsAuditName dots limit s) :
    Json.Plain s := by
  intro c hc
  rcases h.2.2.2 c hc with ⟨hlo, hhi⟩ | ⟨hlo, hhi⟩ | rfl | ⟨-, rfl⟩
  · have hlo' : 97 ≤ c.toNat := hlo
    have hhi' : c.toNat ≤ 122 := hhi
    refine ⟨by omega, by omega, ?_, ?_⟩ <;> rintro rfl <;> revert hlo' <;> decide
  · have hlo' : 48 ≤ c.toNat := hlo
    have hhi' : c.toNat ≤ 57 := hhi
    refine ⟨by omega, by omega, ?_, ?_⟩ <;> rintro rfl <;> revert hlo' hhi' <;> decide
  · decide
  · decide

/-- A metadata entry whose value is a short plain text. -/
structure PlainEntry (key value : String) : Prop where
  name : IsAuditName false 64 key
  harmless : ∀ w ∈ unsafeWords, ¬w.toList <:+: key.toList
  plain : Json.Plain value
  short : value.toList.length ≤ 256

/-- An identifier under a harmless name is a plain entry. -/
theorem PlainEntry.uuid {key : String} (hname : IsAuditName false 64 key)
    (hharmless : ∀ w ∈ unsafeWords, ¬w.toList <:+: key.toList) (u : Uuid) :
    PlainEntry key u.text := by
  refine ⟨hname, hharmless, u.plain_text, ?_⟩
  rw [Uuid.length_text]
  decide

/-- A plain entry is safe. -/
theorem PlainEntry.safe {key value : String} (h : PlainEntry key value) :
    SafeEntry (key, .str value) := by
  refine ⟨h.name, h.harmless, fun s hs => ?_⟩
  obtain rfl : value = s := Option.some.inj hs
  exact ⟨h.short, not_hasControl_of_plain h.plain⟩

/-- A plain entry is short. -/
theorem PlainEntry.size_le {key value : String} (h : PlainEntry key value) :
    (Json.str key).size + (Json.str value).size + 4 ≤ 328 := by
  rw [Json.size_str h.name.plain, Json.size_str h.plain]
  have := h.name.2.1
  have := h.short
  omega

/-- A few plain entries make an object that the audit procedure accepts. -/
theorem metadataFields?_of_plain {entries : List (String × String)}
    (h : ∀ e ∈ entries, PlainEntry e.1 e.2) (hlen : entries.length ≤ 16) :
    metadataFields? (.obj (entries.map fun e => (e.1, .str e.2))) =
      some (entries.map fun e => (e.1, .str e.2)) := by
  have hsum : ∀ l : List (String × String), (∀ e ∈ l, PlainEntry e.1 e.2) →
      ((l.map fun e => (e.1, Json.str e.2)).map fun f =>
        (Json.str f.1).size + f.2.size + 4).sum ≤ l.length * 328 := by
    intro l hl
    induction l with
    | nil => exact le_rfl
    | cons e l ih =>
      have hhead := (hl e List.mem_cons_self).size_le
      have htail := ih fun x hx => hl x (List.mem_cons_of_mem _ hx)
      rw [List.map_cons, List.map_cons, List.sum_cons, List.length_cons]
      dsimp only
      omega
  have hsize := Json.size_obj_le (entries.map fun e => (e.1, Json.str e.2))
  have hle := hsum entries h
  refine if_pos ?_
  change Json.size _ ≤ _
  omega

/-- An approval record is inserted when nothing else is recorded for its target. -/
theorem insertApproval_of_fresh {a : Approval} {s : Db}
    (htarget : ∀ x ∈ s.approvals, x.targetId ≠ a.targetId)
    (hfresh : s.approvals.find? a.id = none) :
    ∃ s', insertApproval a s = .ok ((), s') ∧ s' = { s with approvals := s'.approvals } := by
  obtain ⟨t, ht⟩ := Table.exists_insert? hfresh
  refine ⟨{ s with approvals := t }, insertApproval_ok.mpr ⟨?_, t, ht, rfl⟩, rfl⟩
  rintro ⟨x, hx, -, -, hsame, -⟩
  exact htarget x hx hsame

section Audit

variable {sess : Session} {e : AuditEvent} {s : Db}

/-- What makes an audit event of the session's actor acceptable, but for its metadata. -/
structure AuditEvent.Proper (e : AuditEvent) (sess : Session) : Prop where
  scope : sess.Allows e.tenantId
  actor : e.actorSubjectId = some sess.actorId
  event : IsAuditName true 128 e.eventType
  targetType : IsAuditName false 64 e.targetType
  target : ∃ u : Uuid, e.targetId = some u.text
  outcome : e.outcome ∈ ["allowed", "denied", "succeeded", "failed"]

/-- What makes an audit event of the session's actor acceptable. -/
structure AuditEvent.Acceptable (e : AuditEvent) (sess : Session)
    (entries : List (String × String)) : Prop where
  scope : sess.Allows e.tenantId
  actor : e.actorSubjectId = some sess.actorId
  event : IsAuditName true 128 e.eventType
  targetType : IsAuditName false 64 e.targetType
  target : ∃ u : Uuid, e.targetId = some u.text
  outcome : e.outcome ∈ ["allowed", "denied", "succeeded", "failed"]
  metadata : e.metadata = .obj (entries.map fun x => (x.1, .str x.2))
  plain : ∀ x ∈ entries, PlainEntry x.1 x.2
  few : entries.length ≤ 16

/-- A proper event with safe metadata and a new identifier is appended, and nothing else happens. -/
theorem controlledAppendAuditV1_of_safe {fields : List (String × Json)} (h : e.Proper sess)
    (hfields : metadataFields? e.metadata = some fields) (hsafe : ∀ f ∈ fields, SafeEntry f)
    (hfresh : s.audit.find? e.id = none) :
    ∃ s', controlledAppendAuditV1 sess e s = .ok ((), s') ∧ s' = { s with audit := s'.audit } := by
  obtain ⟨t, ht⟩ := Table.exists_insert? hfresh
  -- An id is of printable ASCII and short.
  have htarget : ¬∃ x, e.targetId = some x ∧ (256 < x.utf8ByteSize ∨ HasControl x) := by
    obtain ⟨u, hu⟩ := h.target
    rintro ⟨x, hx, hbad⟩
    obtain rfl := Option.some.inj (hu.symm.trans hx)
    rcases hbad with hlong | hcontrol
    · rw [utf8ByteSize_of_plain u.plain_text, Uuid.length_text] at hlong
      omega
    · exact not_hasControl_of_plain u.plain_text hcontrol
  -- The record is of the caller and his tenant.
  have hscope : ¬(¬sess.Allows e.tenantId ∨ (e.actorSubjectId ≠ none ∧
      e.actorSubjectId ≠ some sess.actorId) ∨
      (e.actorSubjectId = none ∧ ¬"system:".toList <+: sess.actorId.toList)) := by
    rw [h.actor]
    simp [h.scope]
  have henvelope : ¬(¬IsAuditName true 128 e.eventType ∨ ¬IsAuditName false 64 e.targetType ∨
      (∃ x, e.targetId = some x ∧ (256 < x.utf8ByteSize ∨ HasControl x)) ∨
      e.outcome ∉ ["allowed", "denied", "succeeded", "failed"]) := by
    -- Each field of the envelope has its form.
    rintro (hevent | htype | hlong | houtcome)
    · exact hevent h.event
    · exact htype h.targetType
    · exact htarget hlong
    · exact houtcome h.outcome
  have hunsafe : ¬∃ f ∈ fields, ¬SafeEntry f := by
    rintro ⟨f, hf, hbad⟩
    exact hbad (hsafe f hf)
  refine ⟨{ s with audit := t }, ?_, rfl⟩
  simp only [controlledAppendAuditV1, Txn.raiseIf_bind_ok, Txn.orRaise_bind_ok]
  exact ⟨hscope, henvelope, fields, hfields, hunsafe, insertAudit_ok.mpr ⟨t, ht, rfl⟩⟩

/-- An acceptable event with a new identifier is appended, and nothing else happens. -/
theorem controlledAppendAuditV1_of_acceptable (entries : List (String × String))
    (h : e.Acceptable sess entries) (hfresh : s.audit.find? e.id = none) :
    ∃ s', controlledAppendAuditV1 sess e s = .ok ((), s') ∧ s' = { s with audit := s'.audit } := by
  have hsafe : ∀ f ∈ entries.map fun x => (x.1, Json.str x.2), SafeEntry f := by
    intro f hf
    obtain ⟨x, hx, rfl⟩ := List.mem_map.mp hf
    exact (h.plain x hx).safe
  refine controlledAppendAuditV1_of_safe
    ⟨h.scope, h.actor, h.event, h.targetType, h.target, h.outcome⟩ ?_ hsafe hfresh
  rw [h.metadata]
  exact metadataFields?_of_plain h.plain h.few

end Audit

end LedgerSync
