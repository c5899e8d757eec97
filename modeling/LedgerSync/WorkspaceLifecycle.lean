import LedgerSync.Lib.Keeping
import LedgerSync.Workspaces

/-!
# The lifecycle of a workspace

What a command does to the workspaces is said once (`WorkspaceEffect`). It creates an open workspace
at version one, or it hands one over, closes or reopens it at the next version and appends one audit
event of that kind.

The quota is looked at when a workspace is created by `CreateWorkspace`, and only there. An owner
gets open workspaces in three other ways (`InvestigationCall.Roomy`), and stays within the quota as
long as none of them is used beyond it. The list is bounded by the same number, over open and closed
workspaces together, so an open workspace is missing from it when that many were updated later.
-/

namespace LedgerSync

open Lib

/-! ## What the statements did -/

section Statements

variable {d : LiveDigest} {s s' : InvestigationDb}

/-- A procedure of the ledger returns on the whole when it returns on the ledger. -/
theorem onLedgerDb_ok {α : Type} {x : Proc α} {a : α} :
    onLedgerDb x s = .ok (a, s') ↔ ∃ t, x s.ledger = .ok (a, t) ∧
      s' = { s with live := { s.live with recovery := { s.live.recovery with db := t } } } :=
  Txn.within_ok

/-- The database with another audit trail. -/
def InvestigationDb.withAudit (s : InvestigationDb) (t : Table AuditEvent.id) : InvestigationDb :=
  { s with live := { s.live with recovery := { s.live.recovery with
    db := { s.live.recovery.db with audit := t } } } }

/-- An audit event of a workspace that is stored is a new row, and nothing else changes. -/
theorem insertWorkspaceAudit_ok {c : WorkspaceScope} {event : WorkspaceEvent} {w : WorkspaceRow}
    {captured : ℕ} {u : Unit} (h : insertWorkspaceAudit c event w captured s = .ok (u, s')) :
    ∃ t, s.ledger.audit.insert? (c.auditEvent event w captured) = some t ∧ s' = s.withAudit t := by
  obtain ⟨db, hdb, rfl⟩ := onLedgerDb_ok.mp h
  obtain ⟨t, ht, rfl⟩ := controlledAppendAuditV1_ok hdb
  exact ⟨t, ht, rfl⟩

/-- A workspace that is inserted is a new row, and nothing else changes. -/
theorem insertWorkspace_ok {row : WorkspaceRow} {u : Unit}
    (h : insertWorkspace row s = .ok (u, s')) :
    ∃ t, s.workspaces.insert? row = some t ∧ s' = { s with workspaces := t } := by
  simp only [insertWorkspace, Txn.get_bind_ok, Txn.raiseIf_bind_ok, Txn.orRaise_bind_ok,
    Txn.set_ok] at h
  obtain ⟨-, -, t, ht, rfl⟩ := h
  exact ⟨t, ht, rfl⟩

/-- What a creation did. -/
theorem createWorkspace_ok {c : WorkspaceCreate} {id : Uuid}
    (h : createWorkspace c s = .ok (id, s')) :
    ∃ draft n t audit references, c.normalize? = some draft ∧
      s.openCount c.tenant c.actor < maxInvestigationWorkspaces ∧
      s.workspaces.insert? (c.row draft) = some t ∧
      s.ledger.audit.insert? (c.auditEvent .created (c.row draft) n) = some audit ∧
      s' = { s with workspaces := t, references := references }.withAudit audit := by
  simp only [createWorkspace, Txn.orRaise_bind_ok, Txn.raiseIf_bind_ok, Txn.get_bind_ok] at h
  obtain ⟨draft, hdraft, -, related, -, hroom, h⟩ := h
  obtain ⟨_, s₁, hinsert, h⟩ := Txn.bind_ok.mp h
  obtain ⟨t, ht, rfl⟩ := insertWorkspace_ok hinsert
  simp only [Txn.get_bind_ok, Txn.set_bind_ok] at h
  obtain ⟨_, s₂, haudit, h⟩ := Txn.bind_ok.mp h
  obtain ⟨audit, hevent, rfl⟩ := insertWorkspaceAudit_ok haudit
  obtain ⟨-, rfl⟩ := Txn.pure_ok.mp h
  exact ⟨draft, _, t, audit, _, hdraft, Nat.lt_of_not_le hroom, ht, hevent, rfl⟩

/-- What a mutation found. -/
structure WorkspaceMutation.Finds (c : WorkspaceMutation) (x : WorkspaceChange) (s : InvestigationDb)
    (w : WorkspaceRow) : Prop where
  row : s.workspaces.find? c.investigationId = some w
  tenant : w.tenantId = c.tenant
  owner : w.ownerSubjectId = c.actor
  version : (w.version : ℤ) = c.expectedVersion
  status : w.status = x.required
  quiet : ¬s.LiveRoomActive c.tenant c.investigationId c.occurredAt

/-- What a mutation did. -/
theorem mutateWorkspace_ok {c : WorkspaceMutation} {x : WorkspaceChange} {r : WorkspaceReceipt}
    (h : mutateWorkspace c x s = .ok (r, s')) :
    ∃ w audit, c.Finds x s w ∧
      s.ledger.audit.insert? (c.auditEvent x.event (x.apply c.occurredAt w) 0) = some audit ∧
      s' = { s with workspaces := s.workspaces.replace (x.apply c.occurredAt w) }.withAudit audit := by
  simp only [mutateWorkspace, Txn.get_bind_ok, Txn.orRaise_bind_ok, Txn.raiseIf_bind_ok,
    Txn.set_bind_ok, Option.filter_eq_some_iff, decide_eq_true_eq] at h
  obtain ⟨w, ⟨hfind, htenant, howner⟩, -, -, hversion, hstatus, hquiet, -, h⟩ := h
  obtain ⟨_, s₁, haudit, h⟩ := Txn.bind_ok.mp h
  obtain ⟨audit, hevent, rfl⟩ := insertWorkspaceAudit_ok haudit
  obtain ⟨-, rfl⟩ := Txn.pure_ok.mp h
  exact ⟨w, audit, ⟨hfind, htenant, howner, not_not.mp hversion, not_not.mp hstatus, hquiet⟩, hevent,
    rfl⟩

/-- A creation that meets its checks returns. -/
theorem createWorkspace_of {c : WorkspaceCreate} {draft : WorkspaceDraft}
    {related : List RelatedRecord} {entries : List (String × String)}
    (hdraft : c.normalize? = some draft) (hactor : trimSpace c.actor ≠ "")
    (hrelated : c.related = some related)
    (hroom : s.openCount c.tenant c.actor < maxInvestigationWorkspaces)
    (hsubject : IsRoomSubject c.actor) (htenant : c.tenant ∈ s.ledger.settings.tenants)
    (hnew : s.workspaces.find? c.workspaceId = none)
    (haudit : (c.auditEvent .created (c.row draft) (capturedWorkspaceReferences c
      (draft.rootRecordType, draft.rootRecordId) related).length).Acceptable
        ⟨c.tenant.text, c.actor, false⟩ entries)
    (hfresh : s.ledger.audit.find? c.auditId = none) :
    ∃ s', createWorkspace c s = .ok (c.workspaceId, s') := by
  obtain ⟨t, ht⟩ := Table.exists_insert? (t := s.workspaces) (r := c.row draft) hnew
  obtain ⟨db, hdb, -⟩ := controlledAppendAuditV1_of_acceptable (s := s.ledger) entries haudit hfresh
  have hinsert : insertWorkspace (c.row draft) s = .ok ((), { s with workspaces := t }) := by
    simp only [insertWorkspace, Txn.get_bind_ok, Txn.raiseIf_bind_ok, Txn.orRaise_bind_ok,
      Txn.set_ok]
    exact ⟨not_not.mpr hsubject, not_not.mpr htenant, t, ht, rfl⟩
  have happend : ∀ references, ∃ s', insertWorkspaceAudit c.toWorkspaceScope .created (c.row draft)
      (capturedWorkspaceReferences c (draft.rootRecordType, draft.rootRecordId) related).length
      { s with workspaces := t, references := references } = .ok ((), s') :=
    fun _ => ⟨_, onLedgerDb_ok.mpr ⟨db, hdb, rfl⟩⟩
  obtain ⟨s', hs'⟩ := happend (capturedWorkspaceReferences c
    (draft.rootRecordType, draft.rootRecordId) related ++ s.references)
  refine ⟨s', ?_⟩
  simp only [createWorkspace, Txn.orRaise_bind_ok, Txn.raiseIf_bind_ok, Txn.get_bind_ok]
  refine ⟨draft, hdraft, hactor, related, hrelated, Nat.not_le_of_lt hroom, ?_⟩
  rw [Txn.bind_of_ok hinsert, Txn.get_bind_ok, Txn.set_bind_ok, Txn.bind_of_ok hs', Txn.pure_ok]
  exact ⟨rfl, rfl⟩

/-- A mutation that meets its checks returns. -/
theorem mutateWorkspace_of {c : WorkspaceMutation} {x : WorkspaceChange} {w : WorkspaceRow}
    {entries : List (String × String)} (hfinds : c.Finds x s w)
    (hallowed : w.rootRecordType.allowed c.access = true)
    (hauthorized : s.Authorized c.tenant c.actor w.rootRecordType w.rootRecordId)
    (hfits : w.version + 1 < 2 ^ 63)
    (haudit : (c.auditEvent x.event (x.apply c.occurredAt w) 0).Acceptable
      ⟨c.tenant.text, c.actor, false⟩ entries)
    (hfresh : s.ledger.audit.find? c.auditId = none) :
    ∃ r s', mutateWorkspace c x s = .ok (r, s') := by
  obtain ⟨db, hdb, -⟩ := controlledAppendAuditV1_of_acceptable (s := s.ledger) entries haudit hfresh
  obtain ⟨s', hs'⟩ : ∃ s', insertWorkspaceAudit c.toWorkspaceScope x.event (x.apply c.occurredAt w) 0
      { s with workspaces := s.workspaces.replace (x.apply c.occurredAt w) } = .ok ((), s') :=
    ⟨_, onLedgerDb_ok.mpr ⟨db, hdb, rfl⟩⟩
  refine ⟨⟨c.investigationId, x.event, (x.apply c.occurredAt w).version, c.occurredAt⟩, s', ?_⟩
  simp only [mutateWorkspace, Txn.get_bind_ok, Txn.orRaise_bind_ok, Txn.raiseIf_bind_ok,
    Txn.set_bind_ok, Option.filter_eq_some_iff, decide_eq_true_eq]
  refine ⟨w, ⟨hfinds.row, hfinds.tenant, hfinds.owner⟩, by simp [hallowed],
    not_not.mpr hauthorized, not_not.mpr hfinds.version, not_not.mpr hfinds.status, hfinds.quiet,
    Nat.not_le_of_lt hfits, ?_⟩
  rw [Txn.bind_of_ok hs', Txn.pure_ok]
  exact ⟨rfl, rfl⟩

/-- A command of the rooms returns on the whole when it returns on the rooms, which see the
identifiers of the workspaces. -/
theorem onLive_ok {α : Type} {x : LiveProc α} {a : α} :
    onLive x s = .ok (a, s') ↔
      ∃ t, x { s.live with workspaces := s.workspaces.rows.map WorkspaceRow.id } = .ok (a, t) ∧
        s' = { s with live := t } :=
  Txn.within_ok

end Statements

/-- The mutation of a command has its scope. -/
theorem mutation?_scope {c : WorkspaceCommand} {m : WorkspaceMutation} (h : c.mutation? = some m) :
    m.toWorkspaceScope = c.toWorkspaceScope := by
  unfold WorkspaceCommand.mutation? at h
  split_ifs at h
  obtain ⟨id, -, rfl⟩ := Option.map_eq_some_iff.mp h
  rfl

/-! ## One command -/

/-- What a command did to the workspaces. -/
inductive WorkspaceEffect (d : LiveDigest) (c : InvestigationCall) (s s' : InvestigationDb) : Prop
  | created {b : WorkspaceCreate} {draft : WorkspaceDraft} {n : ℕ} {t : Table WorkspaceRow.id}
      {audit : Table AuditEvent.id} {references : List WorkspaceReferenceRow}
      (call : c = .create b) (room : s.openCount b.tenant b.actor < maxInvestigationWorkspaces)
      (inserted : s.workspaces.insert? (b.row draft) = some t)
      (event : s.ledger.audit.insert? (b.auditEvent .created (b.row draft) n) = some audit)
      (frame : s' = { s with workspaces := t, references := references }.withAudit audit)
  | changed {b : WorkspaceCommand} {m : WorkspaceMutation} {x : WorkspaceChange} {w : WorkspaceRow}
      {audit : Table AuditEvent.id} (mutation : b.mutation? = some m)
      (call : (∃ target, c = .handoff b target ∧ x = .handOff target) ∨
        (c = .status b "closed" ∧ x = .close) ∨ (c = .status b "open" ∧ x = .reopen))
      (finds : m.Finds x s w)
      (event : s.ledger.audit.insert? (m.auditEvent x.event (x.apply m.occurredAt w) 0) = some audit)
      (frame : s' =
        { s with workspaces := s.workspaces.replace (x.apply m.occurredAt w) }.withAudit audit)
  | started {b : LiveRoomStart} {r : LiveRoom} {live : LiveDb} {reference : Uuid}
      {t : Table WorkspaceRow.id} {references : List WorkspaceReferenceRow}
      (call : c = .live (.start b))
      (rooms : startLiveRoom d b
        { s.live with workspaces := s.workspaces.rows.map WorkspaceRow.id } = .ok (r, live))
      (inserted : s.workspaces.insert? (b.workspace reference) = some t)
      (frame : s' = { s with live := live, workspaces := t, references := references })
  | live {l : LiveCall} {live : LiveDb} (call : c = .live l)
      (rooms : liveExec d l
        { s.live with workspaces := s.workspaces.rows.map WorkspaceRow.id } = .ok ((), live))
      (frame : s' = { s with live := live })

section Effects

variable {d : LiveDigest} {c : InvestigationCall} {s s' : InvestigationDb}

/-- Starting a room creates its workspace with it, or finds the workspace there. -/
theorem startLiveRoomWorkspace_effect {b : LiveRoomStart} {r : LiveRoom}
    (h : startLiveRoomWorkspace d b s = .ok (r, s')) :
    WorkspaceEffect d (.live (.start b)) s s' := by
  unfold startLiveRoomWorkspace at h
  obtain ⟨room, s₁, hlive, h⟩ := Txn.bind_ok.mp h
  obtain ⟨live, hstart, rfl⟩ := onLive_ok.mp hlive
  rw [Txn.get_bind_ok] at h
  split_ifs at h with hnew
  · obtain ⟨_, s₂, hinsert, h⟩ := Txn.bind_ok.mp h
    obtain ⟨t, ht, rfl⟩ := insertWorkspace_ok hinsert
    simp only [Txn.get_bind_ok, Txn.set_bind_ok, Txn.pure_ok] at h
    obtain ⟨-, rfl⟩ := h
    exact .started rfl hstart ht rfl
  · obtain ⟨-, rfl⟩ := Txn.pure_ok.mp h
    exact .live rfl (Txn.discard_ok.mpr ⟨room, hstart⟩) rfl

/-- What a returning command did. -/
theorem investigationExec_effect {u : Unit} (h : investigationExec d c s = .ok (u, s')) :
    WorkspaceEffect d c s s' := by
  cases c with
  | create b =>
    obtain ⟨id, hcreate⟩ := Txn.discard_ok.mp h
    obtain ⟨draft, n, t, audit, references, -, hroom, ht, hevent, rfl⟩ := createWorkspace_ok hcreate
    exact .created rfl hroom ht hevent rfl
  | handoff b target =>
    obtain ⟨r, hr⟩ := Txn.discard_ok.mp h
    simp only [handoffWorkspace, Txn.raiseIf_bind_ok, Txn.orRaise_bind_ok] at hr
    obtain ⟨-, m, hm, hr⟩ := hr
    obtain ⟨w, audit, hfinds, hevent, rfl⟩ := mutateWorkspace_ok hr
    exact .changed hm (.inl ⟨target, rfl, rfl⟩) hfinds hevent rfl
  | status b target =>
    obtain ⟨r, hr⟩ := Txn.discard_ok.mp h
    simp only [changeWorkspaceStatus, Txn.raiseIf_bind_ok, Txn.orRaise_bind_ok] at hr
    obtain ⟨htarget, m, hm, hr⟩ := hr
    obtain ⟨w, audit, hfinds, hevent, rfl⟩ := mutateWorkspace_ok hr
    refine .changed hm ?_ hfinds hevent rfl
    -- The two texts of a status are the two changes.
    by_cases hopen : target = "open"
    · exact .inr (.inr ⟨by rw [hopen], if_pos hopen⟩)
    · have hclosed : target = "closed" := by
        by_contra hother
        exact htarget ⟨hopen, hother⟩
      exact .inr (.inl ⟨by rw [hclosed], if_neg hopen⟩)
  | live l =>
    -- All other commands of the rooms leave the workspaces alone.
    have hlive : (∀ b, l ≠ .start b) → WorkspaceEffect d (.live l) s s' := by
      intro hother
      have hexec : onLive (liveExec d l) s = .ok (u, s') := by
        cases l with
        | start b => exact absurd rfl (hother b)
        | _ => exact h
      obtain ⟨t, ht, rfl⟩ := onLive_ok.mp hexec
      exact .live rfl ht rfl
    cases l with
    | start b =>
      obtain ⟨r, hr⟩ := Txn.discard_ok.mp h
      exact startLiveRoomWorkspace_effect hr
    | _ => exact hlive fun b hb => by cases hb

end Effects

/-! ## The rooms and the ledger -/

section Ledger

variable {d : LiveDigest} {v : RecoveryDb}

/-- The tables outside the rooms are the given ones. -/
def LiveDb.Over (v : RecoveryDb) (s : LiveDb) : Prop := s.recovery = v

/-- Reading a room keeps the database below. -/
theorem readLiveRoom_keeps (tenant : Uuid) (actor : String) (room : Uuid) (when' : Instant) :
    Txn.Keeps (LiveDb.Over v) (readLiveRoom tenant actor room when') :=
  .get_bind fun _ hs => (Txn.Keeps.orRaise _ _).bind fun _ =>
    .ite (fun _ => .set_bind hs (.pure _)) fun _ => .pure _

/-- A command that runs once under its key keeps the database below when its action does. -/
theorem withLiveOperation_keeps {α : Type} {k : LiveKey} {operation : LiveOperationName}
    {fingerprint : Bytes} {encode : α → LiveResponse} {decode : LiveResponse → Option α}
    {action : LiveProc α} (haction : Txn.Keeps (LiveDb.Over v) action) :
    Txn.Keeps (LiveDb.Over v)
      (withLiveOperation d k operation fingerprint encode decode action) := by
  refine (Txn.Keeps.raiseIf _ _).bind fun _ => .get_bind fun s _ => ?_
  rcases s.operations.find? (k.tenant, k.actor, operation, d.sha256 (trimSpace k.key)) with _ | stored
  · exact haction.bind fun _ => .get_bind fun _ hs => (Txn.Keeps.orRaise _ _).bind fun _ =>
      Txn.Keeps.set_bind hs (.pure _)
  · exact (Txn.Keeps.raiseIf _ _).bind fun _ => .orRaise _ _

/-- The action that starts a room keeps the database below. -/
theorem startAction_keeps (c : LiveRoomStart) (reference : Uuid) :
    Txn.Keeps (LiveDb.Over v) (startAction c reference) := by
  refine .get_bind fun s hs => (Txn.Keeps.orRaise _ _).bind fun _ =>
    (Txn.Keeps.raiseIf _ _).bind fun _ => Txn.Keeps.set_bind hs ?_
  split
  · exact readLiveRoom_keeps _ _ _ _
  · exact (Txn.Keeps.raiseIf _ _).bind fun _ => (Txn.Keeps.raiseIf _ _).bind fun _ =>
      (Txn.Keeps.raiseIf _ _).bind fun _ => (Txn.Keeps.orRaise _ _).bind fun _ =>
      Txn.Keeps.set_bind hs (.pure _)

/-- Starting a room keeps the database below. -/
theorem startLiveRoom_keeps (c : LiveRoomStart) :
    Txn.Keeps (LiveDb.Over v) (startLiveRoom d c) := by
  unfold startLiveRoom
  exact (Txn.Keeps.orRaise _ _).bind fun _ => withLiveOperation_keeps (startAction_keeps c _)

/-- The action that joins a room keeps the database below. -/
theorem joinAction_keeps (c : LiveRoomJoin) : Txn.Keeps (LiveDb.Over v) (joinAction d c) :=
  .get_bind fun _ hs => (Txn.Keeps.orRaise _ _).bind fun _ => (Txn.Keeps.raiseIf _ _).bind fun _ =>
    (Txn.Keeps.raiseIf _ _).bind fun _ => Txn.Keeps.set_bind hs (readLiveRoom_keeps _ _ _ _)

/-- Finding the room of a command keeps the database below. -/
theorem row_keeps (c : LiveRoomMutation) (room : Uuid) (s : LiveDb) :
    Txn.Keeps (LiveDb.Over v) (c.row room s) :=
  (Txn.Keeps.orRaise _ _).bind fun _ => (Txn.Keeps.raiseIf _ _).bind fun _ => .pure _

/-- The action that ends a room keeps the database below. -/
theorem endAction_keeps (c : LiveRoomMutation) (room : Uuid) :
    Txn.Keeps (LiveDb.Over v) (endAction c room) :=
  .get_bind fun _ hs => (row_keeps c room _).bind fun _ => (Txn.Keeps.raiseIf _ _).bind fun _ =>
    (Txn.Keeps.raiseIf _ _).bind fun _ => Txn.Keeps.set_bind hs (.pure _)

/-- The action that records a finding keeps the database below. -/
theorem findingAction_keeps (c : LiveFindingCommand) (room : Uuid) :
    Txn.Keeps (LiveDb.Over v) (findingAction c room) :=
  .get_bind fun _ hs => (Txn.Keeps.orRaise _ _).bind fun _ => (Txn.Keeps.raiseIf _ _).bind fun _ =>
    (Txn.Keeps.orRaise _ _).bind fun _ => (Txn.Keeps.orRaise _ _).bind fun _ =>
    (Txn.Keeps.raiseIf _ _).bind fun _ => (Txn.Keeps.orRaise _ _).bind fun _ =>
    Txn.Keeps.set_bind hs (readLiveRoom_keeps _ _ _ _)

/-- Reading a room by its text keeps the database below. -/
theorem getLiveRoom_keeps (tenant : Uuid) (actor room : String) (now : Instant) :
    Txn.Keeps (LiveDb.Over v) (getLiveRoom tenant actor room now) := by
  unfold getLiveRoom
  exact (Txn.Keeps.orRaise _ _).bind fun _ => readLiveRoom_keeps _ _ _ _

/-- Issuing an invitation keeps the database below. -/
theorem issueLiveRoomInvite_keeps (c : LiveRoomInvite) :
    Txn.Keeps (LiveDb.Over v) (issueLiveRoomInvite d c) := by
  unfold issueLiveRoomInvite
  exact (Txn.Keeps.orRaise _ _).bind fun _ => .get_bind fun _ hs =>
    (Txn.Keeps.orRaise _ _).bind fun _ => Txn.Keeps.set_bind hs (.pure _)

/-- Joining a room keeps the database below. -/
theorem joinLiveRoom_keeps (c : LiveRoomJoin) : Txn.Keeps (LiveDb.Over v) (joinLiveRoom d c) := by
  unfold joinLiveRoom
  exact (Txn.Keeps.raiseIf _ _).bind fun _ => withLiveOperation_keeps (joinAction_keeps c)

/-- Leaving a room keeps the database below. -/
theorem leaveLiveRoom_keeps (c : LiveRoomMutation) :
    Txn.Keeps (LiveDb.Over v) (leaveLiveRoom c) := by
  unfold leaveLiveRoom
  exact (Txn.Keeps.orRaise _ _).bind fun _ => .get_bind fun _ _ => (row_keeps c _ _).bind fun _ =>
    (Txn.Keeps.raiseIf _ _).bind fun _ => .pure _

/-- Ending a room keeps the database below. -/
theorem endLiveRoom_keeps (c : LiveRoomMutation) :
    Txn.Keeps (LiveDb.Over v) (endLiveRoom d c) := by
  unfold endLiveRoom
  exact (Txn.Keeps.orRaise _ _).bind fun _ => withLiveOperation_keeps (endAction_keeps c _)

/-- Recording a finding keeps the database below. -/
theorem recordLiveRoomFinding_keeps (c : LiveFindingCommand) :
    Txn.Keeps (LiveDb.Over v) (recordLiveRoomFinding d c) := by
  unfold recordLiveRoomFinding
  exact (Txn.Keeps.orRaise _ _).bind fun _ => withLiveOperation_keeps (findingAction_keeps c _)

/-- A command of the rooms writes no table outside them. -/
theorem liveExec_keeps {l : LiveCall} (hl : ∀ c, l ≠ .recovery c) :
    Txn.Keeps (LiveDb.Over v) (liveExec d l) := by
  cases l with
  | recovery c => exact absurd rfl (hl c)
  | start c => exact (startLiveRoom_keeps c).discard
  | get tenant actor room now => exact (getLiveRoom_keeps tenant actor room now).discard
  | invite c => exact (issueLiveRoomInvite_keeps c).discard
  | join c => exact (joinLiveRoom_keeps c).discard
  | leave c => exact (leaveLiveRoom_keeps c).discard
  | finish c => exact (endLiveRoom_keeps c).discard
  | finding c => exact (recordLiveRoomFinding_keeps c).discard

end Ledger

/-! ## Versions -/

/-- The event says that the workspace was handed over, closed or reopened. -/
def AuditEvent.IsChangeOf (e : AuditEvent) (workspace : Uuid) : Prop :=
  e.targetType = "investigation_workspace" ∧ e.targetId = some workspace.text ∧
    e.eventType ∈ [WorkspaceEvent.handedOff.text, WorkspaceEvent.closed.text,
      WorkspaceEvent.reopened.text]

/-- Whether an audit event is of a change of a workspace can be decided. -/
instance AuditEvent.decidableIsChangeOf (e : AuditEvent) (workspace : Uuid) :
    Decidable (e.IsChangeOf workspace) :=
  inferInstanceAs (Decidable (_ ∧ _ ∧ _ ∈ _))

/-- How often a workspace was changed, by the audit trail. -/
def InvestigationDb.changes (s : InvestigationDb) (workspace : Uuid) : ℕ :=
  s.ledger.audit.rows.countP fun e => e.IsChangeOf workspace

/-- Versions count changes, and what is no workspace was never changed. -/
structure InvestigationDb.Counted (s : InvestigationDb) : Prop where
  rows : ∀ id w, s.workspaces.find? id = some w → w.version = 1 + s.changes id
  rest : ∀ id, s.workspaces.find? id = none → s.changes id = 0

section Versions

variable {d : LiveDigest} {c : InvestigationCall} {s s' : InvestigationDb}

/-- The audit event of a command counts as a change exactly for its own workspace, unless it is the
one of the creation. -/
theorem isChangeOf_auditEvent {b : WorkspaceScope} {event : WorkspaceEvent} {w : WorkspaceRow}
    {n : ℕ} {id : Uuid} :
    (b.auditEvent event w n).IsChangeOf id ↔ w.id = id ∧ event ≠ .created := by
  have hevent : event.text ∈ [WorkspaceEvent.handedOff.text, WorkspaceEvent.closed.text,
      WorkspaceEvent.reopened.text] ↔ event ≠ .created := by
    cases event <;> decide
  unfold AuditEvent.IsChangeOf WorkspaceScope.auditEvent
  simp only [true_and, Option.some.injEq, Uuid.text_inj, hevent]

/-- An appended event counts for its workspace. -/
theorem changes_withAudit {t : Table AuditEvent.id} {e : AuditEvent}
    (h : s.ledger.audit.insert? e = some t) (id : Uuid) :
    (s.withAudit t).changes id = s.changes id + if e.IsChangeOf id then 1 else 0 := by
  show t.rows.countP _ = _
  rw [(Table.insert?_eq_some.mp h).2, List.countP_cons]
  simp only [decide_eq_true_eq]
  rfl

/-- A change takes the version one up. -/
theorem apply_version (x : WorkspaceChange) (when' : Instant) (w : WorkspaceRow) :
    (x.apply when' w).version = w.version + 1 := by
  cases x <;> rfl

/-- A change keeps the identifier. -/
theorem apply_id (x : WorkspaceChange) (when' : Instant) (w : WorkspaceRow) :
    (x.apply when' w).id = w.id := by
  cases x <;> rfl

/-- No change is recorded as a creation. -/
theorem event_ne_created (x : WorkspaceChange) : x.event ≠ .created := by
  cases x <;> exact fun h => (nomatch h)

/-- A new workspace at version one, with no event that changes one. -/
theorem InvestigationDb.Counted.insert {t : Table WorkspaceRow.id} {w : WorkspaceRow}
    (hs : s.Counted) (ht : s.workspaces.insert? w = some t) (hversion : w.version = 1)
    (hworkspaces : s'.workspaces = t) (hchanges : ∀ id, s'.changes id = s.changes id) :
    s'.Counted := by
  have hnew : s.workspaces.find? w.id = none := (Table.insert?_eq_some.mp ht).1
  refine ⟨fun id v hv => ?_, fun id hid => ?_⟩
  · rw [hworkspaces, Table.find?_insert? ht] at hv
    rw [hchanges]
    split_ifs at hv with hk
    · obtain rfl := Option.some.inj hv
      rw [hk, hs.rest _ hnew, hversion]
    · exact hs.rows id v hv
  · rw [hworkspaces, Table.find?_insert? ht] at hid
    rw [hchanges]
    split_ifs at hid
    exact hs.rest id hid

/-- A changed workspace at the next version, with one event of the change. -/
theorem InvestigationDb.Counted.replace {w w' : WorkspaceRow} (hs : s.Counted)
    (hw : s.workspaces.find? w.id = some w) (hid : w'.id = w.id)
    (hversion : w'.version = w.version + 1) (hworkspaces : s'.workspaces = s.workspaces.replace w')
    (hchanges : ∀ id, s'.changes id = s.changes id + if w.id = id then 1 else 0) : s'.Counted := by
  refine ⟨fun id v hv => ?_, fun id hnone => ?_⟩
  · rw [hworkspaces, Table.find?_replace, hid] at hv
    rw [hchanges]
    split_ifs at hv with hk
    -- The row that is replaced has one version and one change more.
    · subst hk
      rw [hw] at hv
      obtain rfl := Option.some.inj hv
      rw [hversion, hs.rows _ w hw, if_pos rfl]
      omega
    · rw [if_neg fun h => hk h.symm]
      exact hs.rows id v hv
  · rw [hworkspaces, Table.find?_replace, hid] at hnone
    rw [hchanges]
    split_ifs at hnone with hk
    · subst hk
      rw [hw] at hnone
      cases hnone
    · rw [if_neg fun h => hk h.symm]
      exact hs.rest id hnone

/-- What a command of the rooms leaves of the ledger. -/
theorem changes_of_live {l : LiveCall} {live : LiveDb} (hl : ∀ r, l ≠ .recovery r)
    (h : liveExec d l { s.live with workspaces := s.workspaces.rows.map WorkspaceRow.id } =
      .ok ((), live)) (id : Uuid) {t : Table WorkspaceRow.id}
    {references : List WorkspaceReferenceRow} :
    InvestigationDb.changes { s with live := live, workspaces := t, references := references } id =
      s.changes id := by
  have hrecovery : live.recovery = s.live.recovery :=
    liveExec_keeps (v := s.live.recovery) hl _ _ _ h rfl
  unfold InvestigationDb.changes InvestigationDb.ledger
  rw [hrecovery]

/-- A command keeps the versions in step with the audit events. -/
theorem WorkspaceEffect.counted (h : WorkspaceEffect d c s s')
    (hc : ∀ r, c ≠ .live (.recovery r)) (hs : s.Counted) : s'.Counted := by
  cases h with
  | @created b draft n t audit references call room inserted event frame =>
    -- A creation is no change.
    refine hs.insert inserted rfl (by rw [frame]; rfl) fun id => ?_
    rw [frame, changes_withAudit (s := { s with workspaces := t, references := references }) event,
      if_neg fun h => (isChangeOf_auditEvent.mp h).2 rfl]
    rfl
  | @changed b m x w audit mutation call finds event frame =>
    have hw : s.workspaces.find? w.id = some w := by
      rw [Table.key_of_find? finds.row]
      exact finds.row
    refine hs.replace hw (apply_id x _ w) (apply_version x _ w) (by rw [frame]; rfl) fun id => ?_
    -- A change is counted for its workspace.
    rw [frame, changes_withAudit
      (s := { s with workspaces := s.workspaces.replace (x.apply m.occurredAt w) }) event]
    simp only [isChangeOf_auditEvent, apply_id, ne_eq, event_ne_created, not_false_eq_true, and_true]
    rfl
  | @started b r live reference t references call rooms inserted frame =>
    refine hs.insert inserted rfl (by rw [frame]) fun id => ?_
    rw [frame]
    exact changes_of_live (l := .start b) (fun _ h => (nomatch h)) (Txn.discard_ok.mpr ⟨r, rooms⟩) id
  | @live l live call rooms frame =>
    -- The commands of the rooms record no change of a workspace.
    have hl : ∀ r, l ≠ .recovery r := fun r hr => hc r (by rw [call, hr])
    have hchanges : ∀ id, s'.changes id = s.changes id := fun id => by
      rw [frame]
      exact changes_of_live hl rooms id
    have hworkspaces : s'.workspaces = s.workspaces := by rw [frame]
    refine ⟨fun id w hw => ?_, fun id hnone => ?_⟩
    · rw [hchanges]
      exact hs.rows id w (hworkspaces ▸ hw)
    · rw [hchanges]
      exact hs.rest id (hworkspaces ▸ hnone)

end Versions

/-! ## The quota -/

/-- The owner who gets an open workspace from a command other than `CreateWorkspace` has room for
it. -/
def InvestigationCall.Roomy (s : InvestigationDb) : InvestigationCall → Prop
  | .create _ => True
  | .handoff c target => s.openCount c.tenant target < maxInvestigationWorkspaces
  | .status c target => target = "open" → s.openCount c.tenant c.actor < maxInvestigationWorkspaces
  | .live (.start c) => s.openCount c.tenant c.actor < maxInvestigationWorkspaces
  | .live _ => True

/-- No owner has more open workspaces than the quota. -/
def InvestigationDb.WithinQuota (s : InvestigationDb) : Prop :=
  ∀ tenant owner, s.openCount tenant owner ≤ maxInvestigationWorkspaces

section Quota

variable {d : LiveDigest} {c : InvestigationCall} {s s' : InvestigationDb}

/-- The open workspaces of an owner as a total. -/
theorem openCount_eq_total (s : InvestigationDb) (tenant : Uuid) (owner : String) :
    (s.openCount tenant owner : ℤ) =
      s.workspaces.total fun w => if w.OpenFor tenant owner then 1 else 0 := by
  unfold InvestigationDb.openCount Table.total
  induction s.workspaces.rows with
  | nil => rfl
  | cons w l ih =>
    rw [List.countP_cons, List.map_cons, List.sum_cons, ← ih]
    by_cases h : w.OpenFor tenant owner <;> simp [h, add_comm]

/-- A new workspace adds one to the open ones of its owner when it is open. -/
theorem openCount_insert {t : Table WorkspaceRow.id} {w : WorkspaceRow}
    (ht : s.workspaces.insert? w = some t) (hworkspaces : s'.workspaces = t) (tenant : Uuid)
    (owner : String) :
    s'.openCount tenant owner =
      s.openCount tenant owner + if w.OpenFor tenant owner then 1 else 0 := by
  have htotal := Table.total_insert? ht fun w =>
    if w.OpenFor tenant owner then (1 : ℤ) else 0
  rw [← hworkspaces, ← openCount_eq_total, ← openCount_eq_total] at htotal
  split_ifs at htotal ⊢ <;> omega

/-- A workspace that is replaced leaves the count of its owner by the old row and enters it by the
new one. -/
theorem openCount_replace {w w' : WorkspaceRow} (hw : s.workspaces.find? w.id = some w)
    (hid : w'.id = w.id) (hworkspaces : s'.workspaces = s.workspaces.replace w') (tenant : Uuid)
    (owner : String) :
    s'.openCount tenant owner + (if w.OpenFor tenant owner then 1 else 0) =
      s.openCount tenant owner + if w'.OpenFor tenant owner then 1 else 0 := by
  have htotal := Table.total_replace (r := w') (hid ▸ hw) fun w =>
    if w.OpenFor tenant owner then (1 : ℤ) else 0
  rw [← hworkspaces, ← openCount_eq_total, ← openCount_eq_total] at htotal
  split_ifs at htotal ⊢ <;> omega

/-- A command that gives an open workspace only to an owner with room keeps everyone within the
quota. -/
theorem WithinQuota.step (hs : s.WithinQuota)
    (h : ∀ tenant owner, s'.openCount tenant owner ≤ s.openCount tenant owner ∨
      (s'.openCount tenant owner ≤ s.openCount tenant owner + 1 ∧
        s.openCount tenant owner < maxInvestigationWorkspaces)) : s'.WithinQuota := by
  intro tenant owner
  have hbound := hs tenant owner
  rcases h tenant owner with hle | ⟨hle, hroom⟩ <;> omega

/-- A command that leaves room for what it opens keeps every owner within the quota. -/
theorem WorkspaceEffect.withinQuota (h : WorkspaceEffect d c s s') (hc : c.Roomy s)
    (hs : s.WithinQuota) : s'.WithinQuota := by
  refine WithinQuota.step hs fun tenant owner => ?_
  cases h with
  | @created b draft n t audit references call room inserted event frame =>
    have hworkspaces : s'.workspaces = t := by
      rw [frame]
      rfl
    have hcount := openCount_insert inserted hworkspaces tenant owner
    -- A new workspace that is open was let in by the check of the quota.
    by_cases hopen : (b.row draft).OpenFor tenant owner
    · obtain ⟨rfl, rfl, -⟩ := hopen
      refine .inr ⟨?_, room⟩
      split_ifs at hcount <;> omega
    · rw [if_neg hopen] at hcount
      exact .inl (by omega)
  | @changed b m x w audit mutation call finds event frame =>
    have hw : s.workspaces.find? w.id = some w := by
      rw [Table.key_of_find? finds.row]
      exact finds.row
    have hworkspaces : s'.workspaces = s.workspaces.replace (x.apply m.occurredAt w) := by
      rw [frame]
      rfl
    have hcount := openCount_replace hw (apply_id x m.occurredAt w) hworkspaces tenant owner
    have hscope := mutation?_scope mutation
    -- A changed one that is open afterwards was handed over or reopened, with room for it.
    by_cases hopen : (x.apply m.occurredAt w).OpenFor tenant owner
    · refine .inr ⟨by split_ifs at hcount <;> omega, ?_⟩
      rcases call with ⟨target, rfl, rfl⟩ | ⟨rfl, rfl⟩ | ⟨rfl, rfl⟩
      · obtain ⟨htenant, rfl, -⟩ := hopen
        have hb : b.tenant = tenant := by
          rw [← hscope]
          exact finds.tenant.symm.trans htenant
        rw [← hb]
        exact hc
      · cases hopen.2.2
      · obtain ⟨htenant, howner, -⟩ := hopen
        have hb : b.tenant = tenant ∧ b.actor = owner := by
          rw [← hscope]
          exact ⟨finds.tenant.symm.trans htenant, finds.owner.symm.trans howner⟩
        rw [← hb.1, ← hb.2]
        exact hc rfl
    · rw [if_neg hopen] at hcount
      exact .inl (by omega)
  | @started b r live reference t references call rooms inserted frame =>
    have hworkspaces : s'.workspaces = t := by rw [frame]
    have hcount := openCount_insert inserted hworkspaces tenant owner
    by_cases hopen : (b.workspace reference).OpenFor tenant owner
    · obtain ⟨rfl, rfl, -⟩ := hopen
      refine .inr ⟨?_, ?_⟩
      · split_ifs at hcount <;> omega
      · subst call
        exact hc
    · rw [if_neg hopen] at hcount
      exact .inl (by omega)
  | @live l live call rooms frame =>
    refine .inl (le_of_eq ?_)
    rw [frame]
    rfl

end Quota

/-! ## The list -/

section Listing

variable {s : InvestigationDb}

/-- A listing puts the later update first, and of two at one time the larger identifier. -/
theorem listedBefore_iff {w v : WorkspaceRow} : w.listedBefore v = true ↔
    v.updatedAt < w.updatedAt ∨ (v.updatedAt = w.updatedAt ∧ v.id.toNat < w.id.toNat) :=
  decide_eq_true_iff

/-! The order on times and identifiers. -/

/-- No two rows come before each other. -/
theorem before_asymm {t u : ℤ} {m n : ℕ} (h : u < t ∨ (u = t ∧ n < m)) :
    ¬(t < u ∨ (t = u ∧ m < n)) := by
  omega

/-- Of two rows in order, a third comes after the first or before the second. -/
theorem before_cases {t u v : ℤ} {l m n : ℕ} (h : v < t ∨ (v = t ∧ n < l)) :
    (u < t ∨ (u = t ∧ m < l)) ∨ (v < u ∨ (v = u ∧ n < m)) := by
  omega

/-- Of two rows with different identifiers one comes before the other. -/
theorem before_total {t u : ℤ} {m n : ℕ} (h : m ≠ n) :
    (u < t ∨ (u = t ∧ n < m)) ∨ (t < u ∨ (t = u ∧ m < n)) := by
  omega

/-- Identifiers of the same number are the same. -/
theorem Uuid.eq_of_toNat {u v : Uuid} (h : u.toNat = v.toNat) : u = v := by
  cases u
  cases v
  congr

/-- A workspace that its owner may read is listed exactly when fewer than the bound come before it.
-/
theorem mem_listedRows_iff {tenant : Uuid} {actor : String} {access : SearchAccess}
    {w : WorkspaceRow} (hw : w ∈ s.workspaces) (hreadable : s.Readable tenant actor access w) :
    w ∈ s.listedRows tenant actor access ↔
      (s.workspaces.rows.countP fun v => decide (s.Readable tenant actor access v) &&
        v.listedBefore w) < maxInvestigationWorkspaces := by
  refine Table.mem_batch_iff (fun x y h => ?_) (fun x y z h => ?_) (fun x hx y hy hne => ?_) hw
    (decide_eq_true hreadable)
  · rw [Bool.eq_false_iff, ne_eq, listedBefore_iff]
    rw [listedBefore_iff] at h
    exact before_asymm h
  · rw [listedBefore_iff] at h ⊢
    rw [listedBefore_iff]
    exact before_cases h
  · rw [listedBefore_iff, listedBefore_iff]
    have hid : x.id.toNat ≠ y.id.toNat := fun h => hne (Table.eq_of_key hx hy (Uuid.eq_of_toNat h))
    exact before_total hid

/-- What is listed is stored. -/
theorem mem_of_mem_listedRows {tenant : Uuid} {actor : String} {access : SearchAccess}
    {w : WorkspaceRow} (h : w ∈ s.listedRows tenant actor access) : w ∈ s.workspaces :=
  (Table.mem_of_mem_batch h).1

/-- Fewer pass a stricter test that refuses an element. -/
theorem countP_lt_countP {α : Type} {p q : α → Bool} {l : List α} {a : α}
    (hpq : ∀ x, p x = true → q x = true) (ha : a ∈ l) (hq : q a = true) (hp : p a = false) :
    l.countP p < l.countP q := by
  obtain ⟨pre, post, rfl⟩ := List.append_of_mem ha
  have hpre := List.countP_mono_left (l := pre) fun x _ => hpq x
  have hpost := List.countP_mono_left (l := post) fun x _ => hpq x
  rw [List.countP_append, List.countP_append, List.countP_cons, List.countP_cons, hq, hp]
  simp only [Bool.false_eq_true, if_false, if_true]
  omega

/-- What is on the list. -/
theorem mem_page_iff {tenant : Uuid} {actor : String} {access : SearchAccess}
    {page : List WorkspaceSummary} (h : listWorkspaces s tenant actor access = .ok page)
    {w : WorkspaceRow} (hw : w ∈ s.workspaces) :
    w.id ∈ page.map WorkspaceSummary.id ↔ w ∈ s.listedRows tenant actor access := by
  unfold listWorkspaces at h
  split_ifs at h
  obtain rfl := Except.ok.inj h
  rw [List.map_map]
  constructor
  · intro hid
    obtain ⟨v, hv, hsame⟩ := List.mem_map.mp hid
    have heq : v = w := Table.eq_of_key (mem_of_mem_listedRows hv) hw hsame
    exact heq ▸ hv
  · intro hlisted
    exact List.mem_map.mpr ⟨w, hlisted, rfl⟩

end Listing

/-- **The bounds of investigations.** From a database without workspaces, over every history of the
commands on workspaces and rooms: versions count the changes in the audit trail; no owner has more
open workspaces than the quota when whoever gets one by a handover, a reopening or a room had room
for it; and the list shows an open workspace that its owner may read exactly when fewer than the
bound of those come before it, which is so for all of them when there are no more than the bound. -/
theorem investigations_bounded (d : LiveDigest) (s₀ : InvestigationDb)
    (hempty : s₀.workspaces.rows = []) (hfresh : ∀ id, s₀.changes id = 0)
    (cs : List InvestigationCall) (hcs : ∀ c ∈ cs, ∀ r, c ≠ .live (.recovery r)) :
    (∀ w ∈ (run (investigationExec d) cs s₀).workspaces,
      w.version = 1 + (run (investigationExec d) cs s₀).changes w.id) ∧
    ((∀ pre c post, cs = pre ++ c :: post → c.Roomy (run (investigationExec d) pre s₀)) →
      (run (investigationExec d) cs s₀).WithinQuota) ∧
    ∀ tenant owner page, listWorkspaces (run (investigationExec d) cs s₀) tenant owner .full =
        .ok page →
      (∀ w ∈ (run (investigationExec d) cs s₀).workspaces,
        (run (investigationExec d) cs s₀).Readable tenant owner .full w →
        (w.id ∈ page.map WorkspaceSummary.id ↔
          ((run (investigationExec d) cs s₀).workspaces.rows.countP fun v =>
            decide ((run (investigationExec d) cs s₀).Readable tenant owner .full v) &&
              v.listedBefore w) < maxInvestigationWorkspaces)) ∧
      (((run (investigationExec d) cs s₀).workspaces.rows.countP fun v =>
          decide ((run (investigationExec d) cs s₀).Readable tenant owner .full v)) ≤
          maxInvestigationWorkspaces →
        ∀ w ∈ (run (investigationExec d) cs s₀).workspaces,
          (run (investigationExec d) cs s₀).Readable tenant owner .full w →
          w.id ∈ page.map WorkspaceSummary.id) := by
  have hnone : ∀ id, s₀.workspaces.find? id = none := by
    intro id
    unfold Table.find?
    rw [hempty]
    rfl
  refine ⟨?_, ?_, ?_⟩
  · have hcounted : (run (investigationExec d) cs s₀).Counted := by
      refine run_prefix_invariant (I := InvestigationDb.Counted)
        (fun pre c post hsplit u s' hok hI => ?_)
        ⟨fun id w hw => (by rw [hnone] at hw; cases hw), fun id _ => hfresh id⟩ (List.prefix_refl cs)
      exact (investigationExec_effect hok).counted (hcs c (by rw [hsplit]; simp)) hI
    intro w hw
    exact hcounted.rows w.id w (Table.find?_eq_some.mpr ⟨hw, rfl⟩)
  · intro hroomy
    refine run_prefix_invariant (I := InvestigationDb.WithinQuota)
      (fun pre c post hsplit u s' hok hI =>
        (investigationExec_effect hok).withinQuota (hroomy pre c post hsplit) hI)
      (fun tenant owner => ?_) (List.prefix_refl cs)
    unfold InvestigationDb.openCount
    rw [hempty]
    exact Nat.zero_le _
  · intro tenant owner page hpage
    have hrank : ∀ w ∈ (run (investigationExec d) cs s₀).workspaces,
        (run (investigationExec d) cs s₀).Readable tenant owner .full w → _ := fun w hw hreadable =>
      (mem_page_iff hpage hw).trans (mem_listedRows_iff hw hreadable)
    refine ⟨hrank, fun hfew w hw hreadable => (hrank w hw hreadable).mpr ?_⟩
    -- The workspace does not come before itself.
    refine lt_of_lt_of_le (countP_lt_countP (a := w) (fun v hv => ?_) hw ?_ ?_) hfew
    · exact (Bool.and_eq_true_iff.mp hv).1
    · exact decide_eq_true hreadable
    · have hself : w.listedBefore w = false := by
        rw [Bool.eq_false_iff, ne_eq, listedBefore_iff]
        rintro (h | ⟨-, h⟩)
        · exact lt_irrefl _ h
        · exact lt_irrefl _ h
      rw [hself, Bool.and_false]

namespace Sample

/-- The digests of the sample. -/
def caseDigest : LiveDigest := { digest with rehash := fun b => b }

/-- An identifier by number. -/
def numbered (n : ℕ) : Uuid := ⟨n % 2 ^ 128, Nat.mod_lt _ (Nat.two_pow_pos 128)⟩

/-- The numbered identifiers have their numbers. -/
theorem numbered_toNat {n : ℕ} (h : n < 1000) : (numbered n).toNat = n :=
  Nat.mod_eq_of_lt (h.trans (by norm_num))

/-- The database of the operator, who may read the source account, without workspaces. -/
def caseDb : InvestigationDb := ⟨⟨recoveryDb, .empty, .empty, .empty, []⟩, [], [], .empty, []⟩

/-- The scope of the command with a number, at the time of its number. -/
def caseScope (n : ℕ) : WorkspaceScope := ⟨tenant, alice, tenant, .full, n, numbered n⟩

/-- The operator opens an investigation of the source account. -/
def createCase (n : ℕ) : WorkspaceCreate where
  toWorkspaceScope := caseScope n
  title := "Delayed case"
  taxonomy := "account_state"
  queryKind := "immutable_id"
  queryValue := source.text
  rootRecordType := "account"
  rootRecordId := source.text
  workspaceId := numbered (n + 1)
  related := some []

/-- The draft of every case: an investigation of an account. -/
def caseDraft : WorkspaceDraft := ⟨.account, source, source.text⟩

/-- The row of an investigation. -/
def caseRow (n : ℕ) : WorkspaceRow := (createCase n).row caseDraft

/-- A command on the last of the first fifty investigations. -/
def onLast (n : ℕ) (version : ℤ) : WorkspaceCommand := ⟨caseScope n, (numbered 50).text, version⟩

/-- The operator opens fifty investigations, closes the last, and opens another. -/
def fullCalls : List InvestigationCall :=
  (List.range 50).map (fun n => .create (createCase n)) ++
    [.status (onLast 50 1) "closed", .create (createCase 51)]

/-- Then the closed one is reopened. -/
def reopenCall : InvestigationCall := .status (onLast 52 2) "open"

/-- What some commands have left: so many workspaces of the operator, and so many of them open. -/
structure Cases (calls total opened : ℕ) (s : InvestigationDb) : Prop where
  settings : s.ledger.settings = db.settings
  accounts : s.ledger.accounts = db.accounts
  rooms : s.live.rooms.rows = []
  audit : ∀ e ∈ s.ledger.audit, e.id.toNat < calls
  ids : ∀ w ∈ s.workspaces, w.id.toNat ≤ calls
  mine : ∀ w ∈ s.workspaces, w.tenantId = tenant ∧ w.ownerSubjectId = alice ∧
    w.rootRecordType = .account ∧ w.rootRecordId = source
  first : 0 < calls → s.workspaces.find? (numbered 1) = some (caseRow 0)
  later : ∀ w ∈ s.workspaces, w.id ≠ numbered 1 → 0 < w.updatedAt
  length : s.workspaces.rows.length = total
  opened : s.openCount tenant alice = opened

/-- The commands of the cases normalise to that draft. -/
theorem createCase_draft (n : ℕ) : (createCase n).normalize? = some caseDraft := by
  have hsame : (createCase n).normalize? = (createCase 0).normalize? := rfl
  have hzero : ((createCase 0).normalize?.map fun draft =>
      (draft.rootRecordType, draft.rootRecordId, draft.queryValue)) =
      some (.account, source, source.text) := by
    decide +kernel
  obtain ⟨⟨t, id, v⟩, hdraft, hparts⟩ := Option.map_eq_some_iff.mp hzero
  obtain ⟨rfl, rfl, rfl⟩ : t = .account ∧ id = source ∧ v = source.text := by
    simpa using hparts
  rw [hsame, hdraft]
  rfl

/-- What the operator is and may do. -/
theorem operator_facts : trimSpace alice ≠ "" ∧ IsRoomSubject alice ∧
    Session.Allows ⟨tenant.text, alice, false⟩ tenant ∧
      caseDb.Authorized tenant alice .account source := by
  decide +kernel

/-- The texts of the commands are those that the audit trail takes. -/
theorem case_texts :
    (∀ event ∈ [WorkspaceEvent.created, .handedOff, .closed, .reopened],
      IsAuditName true 128 event.text) ∧
    (∀ key ∈ ["captured_reference_count", "status", "taxonomy", "workspace_version"],
      IsAuditName false 64 key ∧ ∀ w ∈ unsafeWords, ¬w.toList <:+: key.toList) ∧
    (∀ value ∈ ["1", "2", "3", "open", "closed", "account_state"],
      Json.Plain value ∧ value.toList.length ≤ 256) ∧
    IsAuditName false 64 "investigation_workspace" ∧ IsCanonicalId (numbered 50).text ∧
      decimal 1 = "1" ∧ decimal 2 = "2" ∧ decimal 3 = "3" := by
  decide +kernel

/-- The audit events of the commands are acceptable. -/
theorem audit_acceptable (n : ℕ) {event : WorkspaceEvent} {w : WorkspaceRow} {captured : ℕ}
    {entries : List (String × String)}
    (hmetadata : ((caseScope n).auditEvent event w captured).metadata =
      .obj (entries.map fun x => (x.1, .str x.2)))
    (hplain : ∀ x ∈ entries, IsAuditName false 64 x.1 ∧
      (∀ w ∈ unsafeWords, ¬w.toList <:+: x.1.toList) ∧ Json.Plain x.2 ∧ x.2.toList.length ≤ 256)
    (hfew : entries.length ≤ 16) :
    ((caseScope n).auditEvent event w captured).Acceptable ⟨tenant.text, alice, false⟩ entries where
  scope := operator_facts.2.2.1
  actor := rfl
  event := case_texts.1 event (by cases event <;> decide)
  targetType := case_texts.2.2.2.1
  target := ⟨w.id, rfl⟩
  outcome := by
    show "succeeded" ∈ _
    decide
  metadata := hmetadata
  plain x hx := ⟨(hplain x hx).1, (hplain x hx).2.1, (hplain x hx).2.2.1, (hplain x hx).2.2.2⟩
  few := hfew

/-- What the audit trail says of a creation, a closing and a reopening. -/
def caseEntries : WorkspaceEvent → List (String × String)
  | .created => [("captured_reference_count", "1"), ("status", "open"),
      ("taxonomy", "account_state"), ("workspace_version", "1")]
  | .closed => [("status", "closed"), ("taxonomy", "account_state"), ("workspace_version", "2")]
  | _ => [("status", "open"), ("taxonomy", "account_state"), ("workspace_version", "3")]

/-- The details of the audit events are such as the audit accepts. -/
theorem caseEntries_plain (event : WorkspaceEvent) : ∀ x ∈ caseEntries event,
    IsAuditName false 64 x.1 ∧ (∀ w ∈ unsafeWords, ¬w.toList <:+: x.1.toList) ∧ Json.Plain x.2 ∧
      x.2.toList.length ≤ 256 := by
  intro x hx
  have hkey : x.1 ∈ ["captured_reference_count", "status", "taxonomy", "workspace_version"] := by
    revert x
    cases event <;> simp [caseEntries]
  have hvalue : x.2 ∈ ["1", "2", "3", "open", "closed", "account_state"] := by
    revert x
    cases event <;> simp [caseEntries]
  obtain ⟨hname, hsafe⟩ := case_texts.2.1 x.1 hkey
  exact ⟨hname, hsafe, case_texts.2.2.1 x.2 hvalue⟩

/-- The audit event of the next call is not there yet. -/
theorem audit_fresh {calls total opened : ℕ} {s : InvestigationDb} (hs : Cases calls total opened s)
    (hcalls : calls < 1000) : s.ledger.audit.find? (numbered calls) = none := by
  rcases hfind : s.ledger.audit.find? (numbered calls) with _ | e
  · rfl
  · have hbound := hs.audit e (Table.mem_of_find? hfind)
    rw [Table.key_of_find? hfind, numbered_toNat hcalls] at hbound
    exact absurd hbound (lt_irrefl _)

/-- The operator may read the source account. -/
theorem Cases.authorized {calls total opened : ℕ} {s : InvestigationDb}
    (hs : Cases calls total opened s) : s.Authorized tenant alice .account source := by
  have hbase := operator_facts.2.2.2
  unfold InvestigationDb.Authorized at hbase ⊢
  rw [hs.accounts, hs.settings]
  exact hbase

/-- An opened investigation. -/
theorem Cases.create {n total opened : ℕ} {s : InvestigationDb} (hs : Cases n total opened s)
    (hn : n + 1 < 1000) (hroom : opened < maxInvestigationWorkspaces) (d : LiveDigest) :
    Cases (n + 1) (total + 1) (opened + 1)
        (commit (investigationExec d (.create (createCase n))) s) ∧
      (commit (investigationExec d (.create (createCase n))) s).workspaces.find? (numbered (n + 1)) =
        some (caseRow n) ∧
      ∀ id w, s.workspaces.find? id = some w →
        (commit (investigationExec d (.create (createCase n))) s).workspaces.find? id = some w := by
  -- The identifiers so far have lower numbers.
  have hnew : s.workspaces.find? (numbered (n + 1)) = none := by
    rcases hfind : s.workspaces.find? (numbered (n + 1)) with _ | w
    · rfl
    · have hbound := hs.ids w (Table.mem_of_find? hfind)
      rw [Table.key_of_find? hfind, numbered_toNat hn] at hbound
      exact absurd hbound (by omega)
  -- The details of the audit event are such as the audit accepts.
  have haudit : ((createCase n).auditEvent .created ((createCase n).row caseDraft)
      (capturedWorkspaceReferences (createCase n)
        (caseDraft.rootRecordType, caseDraft.rootRecordId) []).length).Acceptable
      ⟨(createCase n).tenant.text, (createCase n).actor, false⟩ (caseEntries .created) :=
    audit_acceptable n (by
      have hversion := case_texts.2.2.2.2.2.1
      show Json.obj [("captured_reference_count", .str (decimal 1)), ("status", .str "open"),
        ("taxonomy", .str "account_state"), ("workspace_version", .str (decimal 1))] = _
      rw [hversion]
      rfl) (caseEntries_plain .created) (by decide)
  obtain ⟨s', hs'⟩ := createWorkspace_of (c := createCase n) (createCase_draft n)
    operator_facts.1 rfl (hs.opened ▸ hroom) operator_facts.2.1
    (by rw [hs.settings]; exact List.mem_cons_self) hnew haudit
    (audit_fresh hs (by omega))
  have hcommit : commit (investigationExec d (.create (createCase n))) s = s' :=
    commit_of_ok (a := ()) (Txn.discard_ok.mpr ⟨_, hs'⟩)
  rw [hcommit]
  obtain ⟨draft, m, t, audit, references, hdraft, -, ht, hevent, rfl⟩ := createWorkspace_ok hs'
  obtain rfl := Option.some.inj ((createCase_draft n).symm.trans hdraft)
  have hcount := openCount_insert ht
    (show ({ s with workspaces := t } : InvestigationDb).workspaces = t from rfl) tenant alice
  have hrows : t.rows = caseRow n :: s.workspaces.rows := (Table.insert?_eq_some.mp ht).2
  have hmem : ∀ w ∈ t, w = caseRow n ∨ w ∈ s.workspaces := fun w => (Table.mem_insert? ht).mp
  refine ⟨?_, Table.find?_insert?_self ht rfl, fun id w hw => Table.find?_insert?_of_some ht hw⟩
  -- Every field of the invariant is looked at for the new row and for the old ones.
  exact {
    settings := hs.settings
    accounts := hs.accounts
    rooms := hs.rooms
    audit := fun e he => by
      rcases (Table.mem_insert? hevent).mp he with rfl | hold
      · exact lt_of_eq_of_lt (numbered_toNat (by omega)) (Nat.lt_succ_self n)
      · exact (hs.audit e hold).trans (Nat.lt_succ_self n)
    ids := fun w hw => by
      rcases hmem w hw with rfl | hold
      · exact le_of_eq (numbered_toNat hn)
      · exact (hs.ids w hold).trans (Nat.le_succ n)
    mine := fun w hw => by
      rcases hmem w hw with rfl | hold
      · exact ⟨rfl, rfl, rfl, rfl⟩
      · exact hs.mine w hold
    first := fun _ => by
      rcases Nat.eq_zero_or_pos n with rfl | hpos
      · exact Table.find?_insert?_self ht rfl
      · exact Table.find?_insert?_of_some ht (hs.first hpos)
    later := fun w hw hne => by
      rcases hmem w hw with rfl | hold
      · have hpos : n ≠ 0 := by
          rintro rfl
          exact hne rfl
        exact Int.natCast_pos.mpr (Nat.pos_of_ne_zero hpos)
      · exact hs.later w hold hne
    length := by
      show t.rows.length = _
      rw [hrows, List.length_cons, hs.length]
    opened := by
      rw [if_pos (show ((createCase n).row caseDraft).OpenFor tenant alice from ⟨rfl, rfl, rfl⟩),
        hs.opened] at hcount
      exact hcount }

/-- The mutation of a command on the last investigation. -/
theorem onLast_mutation (n : ℕ) {version : ℤ} (hversion : 1 ≤ version) :
    (onLast n version).mutation? = some ⟨caseScope n, numbered 50, version⟩ := by
  have hid : IsCanonicalId (numbered 50).text := case_texts.2.2.2.2.1
  have hactor : trimSpace alice ≠ "" := operator_facts.1
  unfold WorkspaceCommand.mutation?
  rw [if_pos ⟨rfl, hid, hversion, hactor⟩, onLast, Uuid.ofText?_text]
  rfl

/-- A change of the last investigation. -/
theorem Cases.change {n total opened : ℕ} {s : InvestigationDb} (hs : Cases n total opened s)
    (hn : n + 1 < 1000) (hpos : 0 < n) {x : WorkspaceChange} {w : WorkspaceRow} {version : ℤ}
    {target : String} (hcall : (target = "closed" ∧ x = .close) ∨ (target = "open" ∧ x = .reopen))
    (hw : s.workspaces.find? (numbered 50) = some w) (hversion : (w.version : ℤ) = version)
    (hlow : 1 ≤ version) (hhigh : w.version < 3) (hstatus : w.status = x.required)
    (hmetadata : ((caseScope n).auditEvent x.event (x.apply n w) 0).metadata =
      .obj ((caseEntries x.event).map fun y => (y.1, .str y.2))) (d : LiveDigest) :
    (∀ opened', opened' + (if w.OpenFor tenant alice then 1 else 0) =
        opened + (if (x.apply n w).OpenFor tenant alice then 1 else 0) →
      Cases (n + 1) total opened'
        (commit (investigationExec d (.status (onLast n version) target)) s)) ∧
    (commit (investigationExec d (.status (onLast n version) target)) s).workspaces.find?
      (numbered 50) = some (x.apply n w) := by
  have hid : w.id = numbered 50 := Table.key_of_find? hw
  obtain ⟨htenant, howner, htype, hroot⟩ := hs.mine w (Table.mem_of_find? hw)
  -- The workspace can be changed: no room is on it.
  have hfinds : WorkspaceMutation.Finds ⟨caseScope n, numbered 50, version⟩ x s w := by
    refine ⟨hw, htenant, howner, hversion, hstatus, ?_⟩
    rintro ⟨r, hr, -⟩
    rw [hs.rooms] at hr
    cases hr
  have hauthorized : s.Authorized tenant alice w.rootRecordType w.rootRecordId := by
    rw [htype, hroot]
    exact hs.authorized
  obtain ⟨r, s', hs'⟩ := mutateWorkspace_of (c := ⟨caseScope n, numbered 50, version⟩) hfinds
    (by rw [htype]; rfl) hauthorized (by omega)
    (audit_acceptable n hmetadata (caseEntries_plain x.event) (by
      generalize x.event = event
      cases event <;> decide))
    (audit_fresh hs (by omega))
  have hcommit : commit (investigationExec d (.status (onLast n version) target)) s = s' := by
    refine commit_of_ok (a := ()) (Txn.discard_ok.mpr ⟨r, ?_⟩)
    simp only [changeWorkspaceStatus, Txn.raiseIf_bind_ok, Txn.orRaise_bind_ok]
    rcases hcall with ⟨rfl, rfl⟩ | ⟨rfl, rfl⟩
    · exact ⟨by decide, _, onLast_mutation n hlow, hs'⟩
    · exact ⟨by decide, _, onLast_mutation n hlow, hs'⟩
  obtain ⟨v, audit, hv, hevent, rfl⟩ := mutateWorkspace_ok hs'
  obtain rfl := Option.some.inj (hw.symm.trans hv.row)
  -- The changed row takes the place of the last one.
  have hkey : (x.apply n w).id = numbered 50 := (apply_id x n w).trans hid
  have hreplaced : (s.workspaces.replace (x.apply n w)).find? (numbered 50) = some (x.apply n w) :=
    Table.find?_replace_self hw hkey
  have hmem : ∀ y ∈ s.workspaces.replace (x.apply n w), y = x.apply n w ∨ y ∈ s.workspaces :=
    fun y hy => (Table.mem_replace hy).imp_right And.left
  have hne : numbered 1 ≠ numbered 50 := by decide
  rw [hcommit]
  refine ⟨fun opened' hopened => ?_, hreplaced⟩
  exact {
    settings := hs.settings
    accounts := hs.accounts
    rooms := hs.rooms
    audit := fun e he => by
      rcases (Table.mem_insert? hevent).mp he with rfl | hold
      · exact lt_of_eq_of_lt (numbered_toNat (by omega)) (Nat.lt_succ_self n)
      · exact (hs.audit e hold).trans (Nat.lt_succ_self n)
    ids := fun y hy => by
      rcases hmem y hy with rfl | hold
      · rw [hkey, ← hid]
        exact (hs.ids w (Table.mem_of_find? hw)).trans (Nat.le_succ n)
      · exact (hs.ids y hold).trans (Nat.le_succ n)
    mine := fun y hy => by
      rcases hmem y hy with rfl | hold
      · rcases hcall with ⟨-, rfl⟩ | ⟨-, rfl⟩ <;> exact ⟨htenant, howner, htype, hroot⟩
      · exact hs.mine y hold
    first := fun _ => (Table.find?_replace_ne (hkey ▸ hne)).trans (hs.first hpos)
    later := fun y hy hother => by
      rcases hmem y hy with rfl | hold
      · rcases hcall with ⟨-, rfl⟩ | ⟨-, rfl⟩ <;> exact Int.natCast_pos.mpr hpos
      · exact hs.later y hold hother
    length := by
      show (s.workspaces.rows.map _).length = _
      rw [List.length_map, hs.length]
    opened := by
      have hcount := openCount_replace (hid ▸ hw) (apply_id x n w)
        (show ({ s with workspaces := s.workspaces.replace (x.apply n w) } :
          InvestigationDb).workspaces = _ from rfl) tenant alice
      rw [hs.opened] at hcount
      exact Nat.add_right_cancel (hcount.trans hopened.symm) }

/-- The database of the operator has no cases. -/
theorem cases_zero : Cases 0 0 0 caseDb where
  settings := rfl
  accounts := rfl
  rooms := rfl
  audit _ he := (nomatch he)
  ids _ hw := (nomatch hw)
  mine _ hw := (nomatch hw)
  first h := absurd h (lt_irrefl 0)
  later _ hw := (nomatch hw)
  length := rfl
  opened := rfl

/-- No call leaves the database as it is. -/
theorem run_nil (d : LiveDigest) (s : InvestigationDb) : run (investigationExec d) [] s = s := rfl

/-- After so many openings there are as many open investigations. -/
theorem cases_opened (d : LiveDigest) {n : ℕ} (hn : n ≤ maxInvestigationWorkspaces) :
    Cases n n n (run (investigationExec d)
      ((List.range n).map fun i => .create (createCase i)) caseDb) ∧
    ∀ k, n = k + 1 → (run (investigationExec d)
      ((List.range n).map fun i => .create (createCase i)) caseDb).workspaces.find? (numbered n) =
        some (caseRow k) := by
  have hmax : maxInvestigationWorkspaces = 50 := rfl
  induction n with
  | zero => exact ⟨cases_zero, fun k hk => (nomatch hk)⟩
  | succ n ih =>
    rw [List.range_succ, List.map_append, run_append, List.map_cons, List.map_nil, run_cons, run_nil]
    obtain ⟨hcases, hnew, -⟩ := (ih (by omega)).1.create (by omega) hn d
    refine ⟨hcases, fun k hk => ?_⟩
    obtain rfl := Nat.succ.inj hk
    exact hnew

/-- After the fifty openings, the closing and the next opening there are fifty-one investigations,
of which the last of the first fifty is closed. -/
theorem cases_full (d : LiveDigest) :
    Cases 52 51 50 (run (investigationExec d) fullCalls caseDb) ∧
    (run (investigationExec d) fullCalls caseDb).workspaces.find? (numbered 50) =
      some (WorkspaceChange.close.apply (50 : ℕ) (caseRow 49)) := by
  obtain ⟨hcases, hlast⟩ := cases_opened d (n := 50) (le_refl maxInvestigationWorkspaces)
  have hversion : decimal 2 = "2" := case_texts.2.2.2.2.2.2.1
  unfold fullCalls
  -- After the creations the last workspace is closed, and another one is opened in its place.
  rw [run_append, run_cons, run_cons, run_nil]
  generalize run (investigationExec d) ((List.range 50).map fun n => .create (createCase n)) caseDb =
    s at hcases hlast ⊢
  obtain ⟨hclosed, hrow⟩ := hcases.change (x := .close) (by norm_num) (by norm_num)
    (.inl ⟨rfl, rfl⟩) (hlast 49 rfl) (show _ = (1 : ℤ) from rfl) le_rfl (by decide) rfl (by
      show Json.obj [("status", .str "closed"), ("taxonomy", .str "account_state"),
        ("workspace_version", .str (decimal 2))] = _
      rw [hversion]
      rfl) d
  -- Closing takes it out of the count.
  have hopen : (caseRow 49).OpenFor tenant alice := ⟨rfl, rfl, rfl⟩
  have hshut : ¬(WorkspaceChange.close.apply (50 : ℕ) (caseRow 49)).OpenFor tenant alice :=
    fun h => (nomatch h.2.2)
  have hopened := hclosed 49 (by rw [if_pos hopen, if_neg hshut])
  obtain ⟨hnext, -, hkept⟩ := hopened.create (by norm_num) (by decide) d
  exact ⟨hnext, hkept _ _ hrow⟩

/-- Everything in the list but one element passes. -/
theorem length_le_countP {α : Type} [DecidableEq α] {p : α → Bool} {l : List α} (hl : l.Nodup)
    {a : α} (h : ∀ x ∈ l, x ≠ a → p x = true) : l.length ≤ l.countP p + 1 := by
  -- At most one element fails, since all that fail are the same.
  have hrest : (l.filter fun x => !p x).length ≤ 1 := by
    have hsub : ∀ x ∈ l.filter fun x => !p x, x = a := by
      intro x hx
      obtain ⟨hmem, hfail⟩ := List.mem_filter.mp hx
      by_contra hne
      rw [h x hmem hne] at hfail
      cases hfail
    have hall := List.eq_replicate_of_mem hsub
    have hcount := List.nodup_iff_count_le_one.mp (hl.filter fun x => !p x) a
    rw [hall, List.count_replicate_self] at hcount
    exact hcount
  have hsplit := List.length_eq_countP_add_countP p (l := l)
  have hsame : (l.countP fun x => decide ¬p x = true) = (l.filter fun x => !p x).length := by
    rw [List.countP_eq_length_filter]
    congr 2
    funext x
    cases p x <;> rfl
  omega

/-- The operator may read all of the investigations. -/
theorem Cases.readable {calls total opened : ℕ} {s : InvestigationDb}
    (hs : Cases calls total opened s) {v : WorkspaceRow} (hv : v ∈ s.workspaces) :
    s.Readable tenant alice .full v := by
  obtain ⟨htenant, howner, htype, hroot⟩ := hs.mine v hv
  exact ⟨htenant, howner, by rw [htype]; rfl, by rw [htype, hroot]; exact hs.authorized⟩

/-- The list of the operator. -/
theorem listWorkspaces_alice (s : InvestigationDb) : listWorkspaces s tenant alice .full =
    .ok ((s.listedRows tenant alice .full).map WorkspaceRow.summary) := by
  unfold listWorkspaces
  exact if_neg (not_or.mpr ⟨operator_facts.1, by decide⟩)

/-- The first of fifty-one investigations is behind the fifty others. -/
theorem Cases.first_hidden {calls opened : ℕ} {s : InvestigationDb}
    (hs : Cases calls 51 opened s) (hcalls : 0 < calls) :
    maxInvestigationWorkspaces ≤ s.workspaces.rows.countP fun v =>
      decide (s.Readable tenant alice .full v) && v.listedBefore (caseRow 0) := by
  have hfirst := Table.find?_eq_some.mp (hs.first hcalls)
  have hcount := length_le_countP (a := caseRow 0) (Table.nodup_rows s.workspaces)
    (p := fun v => decide (s.Readable tenant alice .full v) && v.listedBefore (caseRow 0))
    fun v hv hne => by
      have hother : v.id ≠ numbered 1 := fun h => hne (Table.eq_of_key hv hfirst.1 h)
      exact Bool.and_eq_true_iff.mpr
        ⟨decide_eq_true (hs.readable hv), listedBefore_iff.mpr (.inl (hs.later v hv hother))⟩
  rw [hs.length] at hcount
  exact Nat.le_of_succ_le_succ hcount

/-- At first no workspace has a change. -/
theorem caseDb_changes (id : Uuid) : caseDb.changes id = 0 := rfl

/-- The operator opens fifty investigations. -/
def openings : List InvestigationCall := (List.range 50).map fun n => .create (createCase n)

/-- The calls are openings and one closing. -/
theorem mem_fullCalls {c : InvestigationCall} (hc : c ∈ fullCalls) :
    (∃ n, c = .create (createCase n)) ∨ c = .status (onLast 50 1) "closed" := by
  unfold fullCalls at hc
  rcases List.mem_append.mp hc with hopen | hrest
  · obtain ⟨n, -, rfl⟩ := List.mem_map.mp hopen
    exact .inl ⟨n, rfl⟩
  · rcases List.mem_cons.mp hrest with rfl | hlast
    · exact .inr rfl
    · exact .inl ⟨51, List.mem_singleton.mp hlast⟩

/-- None of them is a transfer. -/
theorem fullCalls_workspaces : ∀ c ∈ fullCalls, ∀ r, c ≠ .live (.recovery r) := by
  intro c hc r
  rcases mem_fullCalls hc with ⟨n, rfl⟩ | rfl
  · exact fun h => (nomatch h)
  · exact fun h => (nomatch h)

/-- None of them gives anyone an open investigation but by `CreateWorkspace`. -/
theorem fullCalls_roomy (s : InvestigationDb) {c : InvestigationCall} (hc : c ∈ fullCalls) :
    c.Roomy s := by
  rcases mem_fullCalls hc with ⟨n, rfl⟩ | rfl
  · trivial
  · exact fun h => absurd h (by decide)

/-- The openings come first. -/
theorem openings_prefix : ∀ c ∈ openings, c ∈ fullCalls := fun _ hc => List.mem_append_left _ hc

end Sample

/-- Fifty openings, a closing and another opening leave the operator within the quota, and versions
that count the changes. An investigation is on the list exactly when fewer than fifty come before
it. After the fifty openings all of them are on the list. -/
theorem investigations_bounded_sample :
    (∀ w ∈ (run (investigationExec Sample.caseDigest) Sample.fullCalls Sample.caseDb).workspaces,
      w.version = 1 + (run (investigationExec Sample.caseDigest) Sample.fullCalls
        Sample.caseDb).changes w.id) ∧
    (run (investigationExec Sample.caseDigest) Sample.fullCalls Sample.caseDb).WithinQuota ∧
    (∃ page, listWorkspaces (run (investigationExec Sample.caseDigest) Sample.fullCalls
        Sample.caseDb) Sample.tenant Sample.alice .full = .ok page ∧
      ∀ w ∈ (run (investigationExec Sample.caseDigest) Sample.fullCalls Sample.caseDb).workspaces,
        (w.id ∈ page.map WorkspaceSummary.id ↔
          ((run (investigationExec Sample.caseDigest) Sample.fullCalls
            Sample.caseDb).workspaces.rows.countP fun v =>
              decide ((run (investigationExec Sample.caseDigest) Sample.fullCalls
                Sample.caseDb).Readable Sample.tenant Sample.alice .full v) &&
                v.listedBefore w) < 50)) ∧
    ∃ page, listWorkspaces (run (investigationExec Sample.caseDigest) Sample.openings
        Sample.caseDb) Sample.tenant Sample.alice .full = .ok page ∧
      ∀ w ∈ (run (investigationExec Sample.caseDigest) Sample.openings Sample.caseDb).workspaces,
        w.id ∈ page.map WorkspaceSummary.id := by
  obtain ⟨hversions, hquota, hlist⟩ := investigations_bounded Sample.caseDigest Sample.caseDb rfl
    Sample.caseDb_changes Sample.fullCalls Sample.fullCalls_workspaces
  obtain ⟨-, -, hlistOpened⟩ := investigations_bounded Sample.caseDigest Sample.caseDb rfl
    Sample.caseDb_changes Sample.openings
    fun c hc => Sample.fullCalls_workspaces c (Sample.openings_prefix c hc)
  obtain ⟨hcases, -⟩ := Sample.cases_full Sample.caseDigest
  obtain ⟨hopened, -⟩ := Sample.cases_opened Sample.caseDigest (le_refl maxInvestigationWorkspaces)
  have hroomy : ∀ pre c post, Sample.fullCalls = pre ++ c :: post →
      c.Roomy (run (investigationExec Sample.caseDigest) pre Sample.caseDb) := by
    intro pre c post hcalls
    refine Sample.fullCalls_roomy _ ?_
    rw [hcalls]
    exact List.mem_append_right _ List.mem_cons_self
  refine ⟨hversions, hquota hroomy, ?_, ?_⟩
  · generalize run (investigationExec Sample.caseDigest) Sample.fullCalls Sample.caseDb = s
      at hcases hlist ⊢
    refine ⟨_, Sample.listWorkspaces_alice s, fun w hw => ?_⟩
    exact (hlist _ _ _ (Sample.listWorkspaces_alice s)).1 w hw (hcases.readable hw)
  · rw [show (List.range maxInvestigationWorkspaces).map (fun i =>
      .create (Sample.createCase i)) = Sample.openings from rfl] at hopened
    generalize run (investigationExec Sample.caseDigest) Sample.openings Sample.caseDb = s
      at hopened hlistOpened ⊢
    refine ⟨_, Sample.listWorkspaces_alice s, fun w hw => ?_⟩
    -- No more than fifty investigations are there to be read.
    refine (hlistOpened _ _ _ (Sample.listWorkspaces_alice s)).2 ?_ w hw (hopened.readable hw)
    exact List.countP_le_length.trans_eq hopened.length

/-- **An open investigation can be missing from its owner's list, and the quota can be passed.**
After fifty openings, a closing and another opening, the first investigation is open and readable
and on no list of its owner; when the closed one is reopened, fifty-one are open. -/
theorem open_investigation_hidden :
    (∃ w ∈ (run (investigationExec Sample.caseDigest) Sample.fullCalls Sample.caseDb).workspaces,
      w.OpenFor Sample.tenant Sample.alice ∧
      (run (investigationExec Sample.caseDigest) Sample.fullCalls Sample.caseDb).Readable Sample.tenant
        Sample.alice .full w ∧
      ∃ page, listWorkspaces (run (investigationExec Sample.caseDigest) Sample.fullCalls
          Sample.caseDb) Sample.tenant Sample.alice .full = .ok page ∧
        w.id ∉ page.map WorkspaceSummary.id) ∧
    maxInvestigationWorkspaces < (run (investigationExec Sample.caseDigest)
      (Sample.fullCalls ++ [Sample.reopenCall]) Sample.caseDb).openCount Sample.tenant
        Sample.alice := by
  obtain ⟨hcases, hlast⟩ := Sample.cases_full Sample.caseDigest
  rw [run_append]
  generalize run (investigationExec Sample.caseDigest) Sample.fullCalls Sample.caseDb = s
    at hcases hlast ⊢
  -- The first workspace is open, but all others were changed after it.
  obtain ⟨hmem, -⟩ := Table.find?_eq_some.mp (hcases.first (by norm_num))
  have hreadable := hcases.readable hmem
  have hpage := Sample.listWorkspaces_alice s
  refine ⟨⟨Sample.caseRow 0, hmem, ⟨rfl, rfl, rfl⟩, hreadable, _, hpage, ?_⟩, ?_⟩
  · rw [mem_page_iff hpage hmem, mem_listedRows_iff hmem hreadable]
    exact Nat.not_lt_of_le (hcases.first_hidden (by norm_num))
  -- Reopening the closed one does not look at the quota.
  · have hversion : decimal 3 = "3" := Sample.case_texts.2.2.2.2.2.2.2
    obtain ⟨hreopened, -⟩ := hcases.change (x := .reopen) (by norm_num) (by norm_num)
      (.inr ⟨rfl, rfl⟩) hlast (show _ = (2 : ℤ) from rfl) (by norm_num) (by decide) rfl (by
        show Json.obj [("status", .str "open"), ("taxonomy", .str "account_state"),
          ("workspace_version", .str (decimal 3))] = _
        rw [hversion]
        rfl) Sample.caseDigest
    have hshut : ¬(WorkspaceChange.close.apply (50 : ℕ) (Sample.caseRow 49)).OpenFor Sample.tenant
        Sample.alice := fun h => (nomatch h.2.2)
    have hopen : (WorkspaceChange.reopen.apply (52 : ℕ) (WorkspaceChange.close.apply (50 : ℕ)
        (Sample.caseRow 49))).OpenFor Sample.tenant Sample.alice := ⟨rfl, rfl, rfl⟩
    have hopened := (hreopened 51 (by rw [if_neg hshut, if_pos hopen])).opened
    rw [run_cons, Sample.run_nil, Sample.reopenCall, hopened]
    decide

end LedgerSync
