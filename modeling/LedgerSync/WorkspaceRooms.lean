import LedgerSync.LiveRoomLifecycle
import LedgerSync.WorkspaceLifecycle

/-!
# Rooms and their workspaces

A live room belongs to a workspace and has the owner that the workspace had. A workspace is not
handed over, closed or reopened while a room of it is active, but it may be while the room is still
waiting, and the peer who joins then makes the room active on a workspace that is closed or
somebody else's. Over any history this is the only way in which it happens
(`active_room_on_own_workspace`).
-/

namespace LedgerSync

open Lib

/-! ## Times -/

/-- When a command of the rooms is given. -/
def LiveCall.time? : LiveCall → Option Instant
  | .recovery _ => none
  | .start c => some c.occurredAt
  | .get _ _ _ now => some now
  | .invite c => some c.occurredAt
  | .join c => some c.occurredAt
  | .leave c => some c.occurredAt
  | .finish c => some c.occurredAt
  | .finding c => some c.occurredAt

/-- When a command is given. -/
def InvestigationCall.time? : InvestigationCall → Option Instant
  | .create c => some c.occurredAt
  | .handoff c _ => some c.occurredAt
  | .status c _ => some c.occurredAt
  | .live l => l.time?

/-! ## The workspace of a room -/

/-- The database as the commands of the rooms see it. -/
def InvestigationDb.seen (s : InvestigationDb) : LiveDb :=
  { s.live with workspaces := s.workspaces.rows.map WorkspaceRow.id }

/-- The workspace of the room is open, and its owner is the room's. -/
def InvestigationDb.Grounded (s : InvestigationDb) (r : LiveRoomRow) : Prop :=
  ∃ w, s.workspaces.find? r.investigationId = some w ∧ w.tenantId = r.tenantId ∧
    w.status = .opened ∧ w.ownerSubjectId = r.ownerSubjectId

/-- While the room is active and its time is not over, it runs on an open workspace of its owner. -/
def InvestigationDb.RunsOn (s : InvestigationDb) (room : Uuid) (now : Instant) : Prop :=
  ∀ r, s.live.rooms.find? room = some r → r.status = .active → now < r.expiresAt → s.Grounded r

section Grounded

variable {d : LiveDigest} {s s' : InvestigationDb} {r r' : LiveRoomRow}

/-- What identifies the workspace of a room. -/
structure LiveRoomRow.SameWorkspace (r r' : LiveRoomRow) : Prop where
  investigation : r'.investigationId = r.investigationId
  tenant : r'.tenantId = r.tenantId
  owner : r'.ownerSubjectId = r.ownerSubjectId
  expires : r'.expiresAt = r.expiresAt

/-- A step of a room keeps its workspace. -/
theorem LiveRoomRow.Step.sameWorkspace {c : LiveCall} (h : r.Step d c r') : r.SameWorkspace r' := by
  cases h <;> exact ⟨rfl, rfl, rfl, rfl⟩

/-- A room stays grounded while the workspaces stay. -/
theorem InvestigationDb.Grounded.of_same (h : s.Grounded r) (hr : r.SameWorkspace r')
    (hs : s'.workspaces = s.workspaces) : s'.Grounded r' := by
  obtain ⟨w, hw, htenant, hopen, howner⟩ := h
  refine ⟨w, ?_, htenant.trans hr.tenant.symm, hopen, howner.trans hr.owner.symm⟩
  rw [hs, hr.investigation]
  exact hw

/-- A new workspace is not that of a room. -/
theorem InvestigationDb.Grounded.of_insert {t : Table WorkspaceRow.id} {v : WorkspaceRow}
    (h : s.Grounded r) (ht : s.workspaces.insert? v = some t) (hs : s'.workspaces = t) :
    s'.Grounded r := by
  obtain ⟨w, hw, hrest⟩ := h
  exact ⟨w, by rw [hs]; exact Table.find?_insert?_of_some ht hw, hrest⟩

/-- A workspace is not changed while a room of it is active. -/
theorem InvestigationDb.Grounded.of_change {m : WorkspaceMutation} {x : WorkspaceChange}
    {w : WorkspaceRow} (h : s.Grounded r) (hr : r ∈ s.live.rooms) (hactive : r.status = .active)
    (hrunning : m.occurredAt < r.expiresAt) (hfinds : m.Finds x s w)
    (hs : s'.workspaces = s.workspaces.replace (x.apply m.occurredAt w)) : s'.Grounded r := by
  obtain ⟨v, hv, htenant, hopen, howner⟩ := h
  have hkey : (x.apply m.occurredAt w).id = m.investigationId :=
    (apply_id x _ w).trans (Table.key_of_find? hfinds.row)
  have hother : r.investigationId ≠ m.investigationId := by
    intro hsame
    have hvw : v = w := by
      rw [hsame, hfinds.row] at hv
      exact (Option.some.inj hv).symm
    refine hfinds.quiet ⟨r, hr, ?_, hsame, hactive, hrunning⟩
    rw [← htenant, hvw]
    exact hfinds.tenant
  refine ⟨v, ?_, htenant, hopen, howner⟩
  rw [hs, Table.find?_replace_ne (hkey ▸ hother)]
  exact hv

end Grounded

/-! ## One command -/

/-- The room is there, and it is grounded while it is active if no command so far came after its
end. -/
def GroundedUntil (s : InvestigationDb) (room : Uuid) (times : List Instant) : Prop :=
  ∃ r, s.live.rooms.find? room = some r ∧
    (r.status = .active → (∀ t ∈ times, t < r.expiresAt) → s.Grounded r)

/-- A peer who joins a waiting room finds its workspace open and its owner's. -/
def InvestigationCall.JoinsGrounded (d : LiveDigest) (room : Uuid) (s : InvestigationDb)
    (c : InvestigationCall) : Prop :=
  ∀ j r, c = .live (.join j) → j.admitted? d s.seen = some r → r.id = room →
    r.status = .waiting → s.Grounded r

section Steps

variable {d : LiveDigest} {s s' : InvestigationDb} {room : Uuid} {times times' : List Instant}

/-- What a joining that returned did to the rooms. -/
theorem joinLiveRoom_cases {j : LiveRoomJoin} {v : LiveRoom} {t t' : LiveDb}
    (h : joinLiveRoom d j t = .ok (v, t')) :
    t'.rooms = t.rooms ∨ ∃ r, j.admitted? d t = some r ∧ t.rooms.find? r.id = some r ∧
      j.Invited d r ∧ t'.rooms = t.rooms.replace (r.join j.actor) := by
  have hjoin := h
  simp only [joinLiveRoom, Txn.raiseIf_bind_ok] at h
  rcases withLiveOperation_ok h.2 with ⟨-, rfl⟩ | ⟨hfresh, s₁, haction, hframe⟩
  · exact .inl rfl
  · obtain ⟨r, hfound, hinvited, hfind, -, rfl⟩ := joinAction_ok haction
    refine .inr ⟨r, ?_, hfind, hinvited, by rw [hframe]⟩
    unfold LiveRoomJoin.admitted?
    rw [if_pos hfresh, hjoin]
    exact hfound

/-- A peer who is admitted joins the room. -/
theorem joinLiveRoom_of_admitted {j : LiveRoomJoin} {t : LiveDb} {r : LiveRoomRow}
    (h : j.admitted? d t = some r) :
    ∃ v t', joinLiveRoom d j t = .ok (v, t') ∧ t'.rooms = t.rooms.replace (r.join j.actor) := by
  unfold LiveRoomJoin.admitted? at h
  split_ifs at h with hfresh
  rcases hjoin : joinLiveRoom d j t with e | ⟨v, t'⟩
  · rw [hjoin] at h
    cases h
  rw [hjoin] at h
  refine ⟨v, t', rfl, ?_⟩
  unfold joinLiveRoom at hjoin
  rw [Txn.raiseIf_bind_ok] at hjoin
  rcases withLiveOperation_ok hjoin.2 with ⟨hstored, -⟩ | ⟨-, s₁, haction, hframe⟩
  · exact absurd hfresh hstored
  · obtain ⟨x, hx, -, -, -, rfl⟩ := joinAction_ok haction
    obtain rfl := Option.some.inj (h.symm.trans hx)
    rw [hframe]

/-- A command of the rooms other than a joining makes no room active. -/
theorem LiveRoomRow.Step.active {l : LiveCall} {r r' : LiveRoomRow} (h : r.Step d l r')
    (hl : ∀ j, l ≠ .join j) (hactive : r'.status = .active) : r.status = .active := by
  cases h with
  | invited => exact hactive
  | joined call => exact absurd call (hl _)
  | ended => exact (nomatch hactive)
  | expired => exact (nomatch hactive)
  | found => exact hactive

/-- The rooms after a command of the rooms other than a joining. -/
theorem GroundedUntil.of_rooms {l : LiveCall} {t : LiveDb} (hs : GroundedUntil s room times)
    (h : liveExec d l s.seen = .ok ((), t)) (hl : ∀ j, l ≠ .join j)
    (hsub : ∀ x ∈ times, x ∈ times') (hlive : s'.live.rooms = t.rooms)
    (hkeep : ∀ r, s.Grounded r → s'.Grounded r) : GroundedUntil s' room times' := by
  obtain ⟨r, hr, hground⟩ := hs
  obtain ⟨r', hr', hcase⟩ := (liveExec_step h).rooms.step room r hr
  refine ⟨r', hlive ▸ hr', fun hactive hbefore => ?_⟩
  rcases hcase with rfl | hmove
  · exact hkeep _ (hground hactive fun x hx => hbefore x (hsub x hx))
  · have hsame := hmove.sameWorkspace
    have hold := hground (hmove.active hl hactive) fun x hx => hsame.expires ▸ hbefore x (hsub x hx)
    exact (hkeep r hold).of_same hsame rfl

/-- The rooms after a joining. -/
theorem GroundedUntil.of_join {j : LiveRoomJoin} {v : LiveRoom} {t : LiveDb}
    (hs : GroundedUntil s room times) (h : joinLiveRoom d j s.seen = .ok (v, t))
    (hjoins : InvestigationCall.JoinsGrounded d room s (.live (.join j)))
    (hsub : ∀ x ∈ times, x ∈ times') : GroundedUntil { s with live := t } room times' := by
  obtain ⟨r, hr, hground⟩ := hs
  -- The join changed nothing here, or it replaced one room.
  rcases joinLiveRoom_cases h with hsame | ⟨x, hadmitted, hx, hinvited, hrooms⟩
  · refine ⟨r, ?_, fun hactive hbefore => ?_⟩
    · show t.rooms.find? room = some r
      rw [hsame]
      exact hr
    · exact hground hactive fun y hy => hbefore y (hsub y hy)
  · by_cases hroom : room = x.id
    · -- The peer joined this room.
      obtain rfl : r = x := by
        rw [hroom] at hr
        exact Option.some.inj (hr.symm.trans hx)
      have hfind : t.rooms.find? room = some (r.join j.actor) := by
        rw [hrooms, hroom]
        exact Table.find?_replace_self hx rfl
      refine ⟨r.join j.actor, hfind, fun _ hbefore => ?_⟩
      -- A waiting room was grounded by the condition on the join, an active one by the invariant.
      have hold : s.Grounded r := by
        rcases hinvited.2.2.2.1.1 with hwaiting | hactive
        · exact hjoins j r rfl hadmitted hroom.symm hwaiting
        · exact hground hactive fun y hy => hbefore y (hsub y hy)
      exact hold.of_same ⟨rfl, rfl, rfl, rfl⟩ rfl
    -- Another room was joined.
    · have hfind : t.rooms.find? room = some r := by
        rw [hrooms]
        exact (Table.find?_replace_ne (r := x.join j.actor) hroom).trans hr
      refine ⟨r, hfind, fun hactive hbefore => ?_⟩
      exact hground hactive fun y hy => hbefore y (hsub y hy)

/-- The rooms after a command on the workspaces, which may be given while the room is active. -/
theorem GroundedUntil.of_workspaces (hs : GroundedUntil s room times)
    (hrooms : s'.live.rooms = s.live.rooms) (hsub : ∀ x ∈ times, x ∈ times')
    (hkeep : ∀ r, r ∈ s.live.rooms → r.status = .active → (∀ x ∈ times', x < r.expiresAt) →
      s.Grounded r → s'.Grounded r) : GroundedUntil s' room times' := by
  obtain ⟨r, hr, hground⟩ := hs
  refine ⟨r, hrooms ▸ hr, fun hactive hbefore => ?_⟩
  exact hkeep r (Table.mem_of_find? hr) hactive hbefore
    (hground hactive fun x hx => hbefore x (hsub x hx))

/-- What one command keeps. -/
theorem GroundedUntil.step {c : InvestigationCall} {u : Unit} (hs : GroundedUntil s room times)
    (h : investigationExec d c s = .ok (u, s')) (hjoins : c.JoinsGrounded d room s)
    (hsub : ∀ x ∈ times, x ∈ times') (htime : ∀ x, c.time? = some x → x ∈ times') :
    GroundedUntil s' room times' := by
  -- Each call changes the workspaces or the rooms.
  cases investigationExec_effect h with
  | @created b draft n t audit references call room inserted event frame =>
    refine hs.of_workspaces (by rw [frame]; rfl) hsub fun r _ _ _ hground => ?_
    exact hground.of_insert inserted (by rw [frame]; rfl)
  | @changed b m x w audit mutation call finds event frame =>
    -- A change of the workspace happens at a time of the history.
    have hgiven : c.time? = some m.occurredAt := by
      rw [mutation?_scope mutation]
      rcases call with ⟨target, rfl, -⟩ | ⟨rfl, -⟩ | ⟨rfl, -⟩ <;> rfl
    refine hs.of_workspaces (by rw [frame]; rfl) hsub fun r hr hactive hbefore hground => ?_
    exact hground.of_change hr hactive (hbefore _ (htime _ hgiven)) finds (by rw [frame]; rfl)
  | @started b v live reference t references call rooms inserted frame =>
    refine hs.of_rooms (l := .start b) (Txn.discard_ok.mpr ⟨v, rooms⟩) (fun j hj => (nomatch hj)) hsub
      (by rw [frame]) fun r hground => ?_
    exact hground.of_insert inserted (by rw [frame])
  | @live l live call rooms frame =>
    -- Only a join makes a room active.
    by_cases hjoin : ∃ j, l = .join j
    · obtain ⟨j, rfl⟩ := hjoin
      obtain ⟨v, hv⟩ := Txn.discard_ok.mp rooms
      rw [frame]
      exact hs.of_join hv (call ▸ hjoins) hsub
    · refine hs.of_rooms rooms (fun j hj => hjoin ⟨j, hj⟩) hsub (by rw [frame]) fun r hground => ?_
      exact hground.of_same ⟨rfl, rfl, rfl, rfl⟩ (by rw [frame])

end Steps

/-! ## Every history -/

section Histories

variable {d : LiveDigest} {s₀ : InvestigationDb} {room : LiveRoomRow}

/-- A history in which every peer who joins the waiting room finds it grounded. -/
theorem groundedUntil_run {cs : List InvestigationCall}
    (hroom : s₀.live.rooms.find? room.id = some room) (hwaiting : room.status = .waiting)
    (hjoins : ∀ pre c post, cs = pre ++ c :: post →
      c.JoinsGrounded d room.id (run (investigationExec d) pre s₀)) :
    GroundedUntil (run (investigationExec d) cs s₀) room.id
      (cs.filterMap InvestigationCall.time?) := by
  -- The induction is on the history; at the start the room is waiting.
  induction cs using List.reverseRecOn with
  | nil =>
    refine ⟨room, hroom, fun hactive => ?_⟩
    rw [hwaiting] at hactive
    cases hactive
  | append_singleton cs c ih =>
    have hold := ih fun pre x post hcs => hjoins pre x (post ++ [c]) (by rw [hcs]; simp)
    have hsub : ∀ x ∈ cs.filterMap InvestigationCall.time?,
        x ∈ (cs ++ [c]).filterMap InvestigationCall.time? := fun x hx => by
      rw [List.filterMap_append]
      exact List.mem_append_left _ hx
    have htime : ∀ x, c.time? = some x → x ∈ (cs ++ [c]).filterMap InvestigationCall.time? :=
      fun x hx => List.mem_filterMap.mpr ⟨c, by simp, hx⟩
    rw [run_append, run_cons]
    show GroundedUntil (commit (investigationExec d c) (run (investigationExec d) cs s₀)) _ _
    -- A call that raises changes nothing.
    rcases commit_cases (investigationExec d c) (run (investigationExec d) cs s₀) with hsame | ⟨u, hok⟩
    · rw [hsame]
      obtain ⟨r, hr, hground⟩ := hold
      exact ⟨r, hr, fun hactive hbefore => hground hactive fun x hx => hbefore x (hsub x hx)⟩
    · exact hold.step hok (hjoins cs c [] rfl) hsub htime

/-- A peer who joins makes the room active, and leaves its workspace as it is. -/
theorem commit_join {s : InvestigationDb} {j : LiveRoomJoin} {r : LiveRoomRow}
    (h : j.admitted? d s.seen = some r) :
    j.occurredAt < r.expiresAt ∧
    (commit (investigationExec d (.live (.join j))) s).live.rooms.find? r.id =
      some (r.join j.actor) ∧
    (commit (investigationExec d (.live (.join j))) s).workspaces = s.workspaces := by
  obtain ⟨hinvited, hfind, -⟩ := LiveRoomJoin.admitted?_eq_some h
  obtain ⟨v, t, hjoin, hrooms⟩ := joinLiveRoom_of_admitted h
  have hexec : liveExec d (.join j) s.seen = .ok ((), t) := Txn.discard_ok.mpr ⟨v, hjoin⟩
  have hok : investigationExec d (.live (.join j)) s = .ok ((), { s with live := t }) :=
    onLive_ok.mpr ⟨t, hexec, rfl⟩
  rw [commit_of_ok hok]
  refine ⟨hinvited.2.2.2.1.2, ?_, rfl⟩
  show t.rooms.find? r.id = some (r.join j.actor)
  rw [hrooms]
  exact Table.find?_replace_self hfind rfl

end Histories

/-- **Active rooms on their own workspaces.** A waiting room with an open workspace of its owner is
given. Over every history of commands at times that do not decrease, the room runs on an open
workspace of its owner whenever it is active and its time is not over, exactly when every peer who
joins the waiting room finds it so. -/
theorem active_room_on_own_workspace (d : LiveDigest) (s₀ : InvestigationDb) (room : LiveRoomRow)
    (hroom : s₀.live.rooms.find? room.id = some room) (hwaiting : room.status = .waiting)
    (cs : List InvestigationCall)
    (htimes : (cs.filterMap InvestigationCall.time?).Pairwise (· ≤ ·)) :
    (∀ pre, pre <+: cs → ∀ now, (∀ t ∈ pre.filterMap InvestigationCall.time?, t ≤ now) →
      (run (investigationExec d) pre s₀).RunsOn room.id now) ↔
    ∀ pre c post, cs = pre ++ c :: post →
      c.JoinsGrounded d room.id (run (investigationExec d) pre s₀) := by
  constructor
  -- A join that activates the room is looked at right after it, when the room has not expired.
  · rintro hruns pre c post rfl j r rfl hadmitted hid -
    obtain ⟨hbefore, hfind, hworkspaces⟩ := commit_join hadmitted
    have hpast : ∀ t ∈ (pre ++ [InvestigationCall.live (.join j)]).filterMap
        InvestigationCall.time?, t ≤ j.occurredAt := by
      intro t ht
      rw [List.filterMap_append, List.mem_append] at ht
      rw [List.filterMap_append, List.filterMap_cons] at htimes
      rcases ht with hpre | hlast
      · exact (List.pairwise_append.mp htimes).2.2 t hpre _ List.mem_cons_self
      · exact le_of_eq (List.mem_singleton.mp hlast)
    have hrun := hruns (pre ++ [.live (.join j)]) ⟨post, by simp⟩ j.occurredAt hpast
    rw [run_append, run_cons, run_nil, ← hid] at hrun
    have hground := hrun (r.join j.actor) hfind rfl hbefore
    exact hground.of_same ⟨rfl, rfl, rfl, rfl⟩ hworkspaces.symm
  -- Conversely the condition on the joins is what keeps the invariant.
  · rintro hjoins pre ⟨post, rfl⟩ now hnow r hr hactive hbefore
    have hearlier : ∀ p c q, pre = p ++ c :: q →
        c.JoinsGrounded d room.id (run (investigationExec d) p s₀) := fun p c q hsplit =>
      hjoins p c (q ++ post) (by rw [hsplit]; simp)
    obtain ⟨x, hx, hground⟩ := groundedUntil_run hroom hwaiting hearlier
    obtain rfl := Option.some.inj (hx.symm.trans hr)
    exact hground hactive fun t ht => lt_of_le_of_lt (hnow t ht) hbefore

namespace Sample

/-- The tables with a room that has just been started, and its workspace. -/
def roomDb : InvestigationDb where
  live := { freshRoomDb with recovery := { recoveryDb with
    references := ⟨[⟨(tenant, alice, transfersCreateV1, "sample-transfer-01"), recoveryReference⟩],
      by decide⟩ } }
  reconciliationRuns := []
  reconciliationMismatches := []
  workspaces := ⟨[startIntended.workspace recoveryReference], by decide⟩
  references := []

/-- The owner invites a peer, who joins. -/
def meeting : List InvestigationCall := [.live (.invite inviteBob), .live (.join joinBob)]

/-- The owner invites a peer and closes the workspace, and the peer joins. -/
def lateMeeting : List InvestigationCall :=
  [.live (.invite inviteBob),
    .status ⟨⟨tenant, alice, tenant, .full, 2, tenant⟩, freshRoom.investigationId.text, 1⟩ "closed",
    .live (.join joinBob)]

end Sample

/-- A peer who is invited and joins finds an open workspace of the owner. -/
theorem active_room_on_own_workspace_sample :
    (run (investigationExec Sample.liveDigest) Sample.meeting Sample.roomDb).RunsOn
      Sample.freshRoom.id 2 := by
  have hfacts : ((run (investigationExec Sample.liveDigest) [.live (.invite Sample.inviteBob)]
        Sample.roomDb).live.rooms.find? Sample.freshRoom.id).map
          (fun r => (r.investigationId, r.tenantId, r.ownerSubjectId)) =
        some (Sample.freshRoom.investigationId, Sample.tenant, Sample.alice) ∧
      (run (investigationExec Sample.liveDigest) [.live (.invite Sample.inviteBob)]
        Sample.roomDb).workspaces.find? Sample.freshRoom.investigationId =
        some (Sample.startIntended.workspace Sample.recoveryReference) := by
    decide +kernel
  refine (active_room_on_own_workspace Sample.liveDigest Sample.roomDb Sample.freshRoom
    (Table.find?_eq_some.mpr ⟨List.mem_singleton_self _, rfl⟩) rfl Sample.meeting
    (by decide)).mpr ?_ Sample.meeting (List.prefix_refl _) 2 (by decide)
  rintro pre c post hcs j r rfl hadmitted hid -
  obtain ⟨-, hfind, -⟩ := LiveRoomJoin.admitted?_eq_some hadmitted
  -- The joining is the second command.
  obtain rfl : pre = [.live (.invite Sample.inviteBob)] := by
    rcases pre with _ | ⟨c₁, _ | ⟨c₂, pre⟩⟩
    · cases (List.cons.inj hcs).1
    · rw [(List.cons.inj hcs).1]
    · exact absurd (congrArg List.length hcs) (by simp [Sample.meeting])
  generalize run (investigationExec Sample.liveDigest) [.live (.invite Sample.inviteBob)]
    Sample.roomDb = s at hfacts hfind
  obtain ⟨hroom, hworkspace⟩ := hfacts
  rw [hid] at hfind
  obtain ⟨x, hx, hcolumns⟩ := Option.map_eq_some_iff.mp hroom
  obtain rfl := Option.some.inj (hfind.symm.trans hx)
  obtain ⟨hinvestigation, hscope⟩ := Prod.mk.inj hcolumns
  obtain ⟨htenant, howner⟩ := Prod.mk.inj hscope
  exact ⟨_, hinvestigation ▸ hworkspace, htenant.symm, rfl, howner.symm⟩

/-- **A room can become active on a closed workspace.** The owner closes the workspace while the
room is waiting, and then the peer joins. -/
theorem active_room_on_closed_workspace :
    (Sample.lateMeeting.filterMap InvestigationCall.time?).Pairwise (· ≤ ·) ∧
    Sample.roomDb.Grounded Sample.freshRoom ∧ Sample.freshRoom.status = .waiting ∧
    ¬(run (investigationExec Sample.liveDigest) Sample.lateMeeting Sample.roomDb).RunsOn
      Sample.freshRoom.id 2 := by
  -- The room is active while its workspace is closed, at a time before it expires.
  have hfacts : ((run (investigationExec Sample.liveDigest) Sample.lateMeeting
        Sample.roomDb).live.rooms.find? Sample.freshRoom.id).map
          (fun r => (r.status, r.expiresAt, r.investigationId)) =
        some (.active, Sample.freshRoom.expiresAt, Sample.freshRoom.investigationId) ∧
      ((run (investigationExec Sample.liveDigest) Sample.lateMeeting
        Sample.roomDb).workspaces.find? Sample.freshRoom.investigationId).map
          WorkspaceRow.status = some .closed := by
    decide +kernel
  refine ⟨by decide, ⟨_, Table.find?_eq_some.mpr ⟨List.mem_singleton_self _, rfl⟩, rfl, rfl, rfl⟩,
    rfl, ?_⟩
  intro hruns
  generalize run (investigationExec Sample.liveDigest) Sample.lateMeeting Sample.roomDb = s
    at hfacts hruns
  obtain ⟨hroom, hworkspace⟩ := hfacts
  obtain ⟨r, hr, hcolumns⟩ := Option.map_eq_some_iff.mp hroom
  obtain ⟨hactive, hrest⟩ := Prod.mk.inj hcolumns
  obtain ⟨hexpires, hinvestigation⟩ := Prod.mk.inj hrest
  have hbefore : (2 : Instant) < r.expiresAt := by
    rw [hexpires]
    decide
  -- Running on a workspace needs it open.
  obtain ⟨w, hw, -, hopen, -⟩ := hruns r hr hactive hbefore
  rw [hinvestigation] at hw
  rw [hw] at hworkspace
  exact absurd ((Option.some.inj hworkspace).symm.trans hopen) (by decide)

end LedgerSync
