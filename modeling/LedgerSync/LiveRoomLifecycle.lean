import LedgerSync.LiveRooms

/-!
# The lifecycle of a live room

What a command can do to a room is said once (`LiveRoomRow.Step`): while the room is live, its owner
may invite, end it and record the finding, an operator with the token of the last invitation may
join, and the room may expire. Each of these raises the version by one, and none is possible on a
room that is over.

A token is known by its digest. A room carries the digest of its last invitation until it is used,
replaced, or the room is over, and a digest that a room has given up never comes back, because every
invitation has a token of its own (`Carries.of_step`). From there `live_room_lifecycle` follows.
-/

namespace LedgerSync

open Lib

/-! ## One command -/

/-- What a command does to a room that it changes. -/
inductive LiveRoomRow.Step (d : LiveDigest) (c : LiveCall) (r : LiveRoomRow) : LiveRoomRow → Prop
  | invited {i : LiveRoomInvite} (call : c = .invite i) (live : r.Open i.occurredAt) :
      Step d c r (r.invite (d.sha256 i.token) (i.occurredAt + liveInviteLifetime))
  | joined {j : LiveRoomJoin} (call : c = .join j) (invited : j.Invited d r)
      (bound : r.peerSubjectId = none ∨ r.peerSubjectId = some j.actor) : Step d c r (r.join j.actor)
  | ended {when' : Instant} (live : r.status.Live) : Step d c r (r.close .ended when')
  | expired {when' : Instant} (live : r.status.Live) : Step d c r (r.close .expired when')
  | found (live : r.status.Live) : Step d c r r.found

/-- Every room stays as it is or takes a step, and a new room is waiting. -/
structure RoomsStep (d : LiveDigest) (c : LiveCall) (t t' : Table LiveRoomRow.id) : Prop where
  step : ∀ i r, t.find? i = some r → ∃ r', t'.find? i = some r' ∧ (r' = r ∨ r.Step d c r')
  new : ∀ i r', t.find? i = none → t'.find? i = some r' → r'.inviteTokenHash = none

/-- A command records no finding, or one of the owner on a live room, which the status of the
request allows. -/
def FindingsStep (s s' : LiveDb) : Prop :=
  s'.findings = s.findings ∨ ∃ r f st, s.rooms.find? f.roomId = some r ∧ r.Open f.recordedAt ∧
    f.actorSubjectId = r.ownerSubjectId ∧
    transferRequestStatusWithQuerier s.recovery r.tenantId r.ownerSubjectId
      r.transferRequestReference f.recordedAt = some st ∧
    f.findingCode.Allowed st.status st.transferId ∧
    f.canonicalTransferId = canonicalTransfer? st.transferId ∧
    s.findings.insert? f = some s'.findings

/-- What a command does. -/
structure LiveStep (d : LiveDigest) (c : LiveCall) (s s' : LiveDb) : Prop where
  recovery : RecoveryStep s.recovery s'.recovery
  rooms : RoomsStep d c s.rooms s'.rooms
  findings : FindingsStep s s'

section Steps

variable {d : LiveDigest} {c : LiveCall} {s s' : LiveDb}

/-- Doing nothing is a step of the recovery. -/
theorem RecoveryStep.refl (s : RecoveryDb) : RecoveryStep s s := ⟨fun _ _ h => h, .inl rfl⟩

/-- Doing nothing is a step of the rooms. -/
theorem RoomsStep.refl (t : Table LiveRoomRow.id) : RoomsStep d c t t where
  step i r hr := ⟨r, hr, .inl rfl⟩
  new i r' hnone hr' := by
    rw [hnone] at hr'
    cases hr'

/-- One room takes a step. -/
theorem RoomsStep.replace {t : Table LiveRoomRow.id} {i : Uuid} {r r' : LiveRoomRow}
    (hfind : t.find? i = some r) (hid : r'.id = r.id) (hstep : r' = r ∨ r.Step d c r') :
    RoomsStep d c t (t.replace r') where
  step j x hx := by
    have hkey : r.id = i := Table.key_of_find? hfind
    rw [Table.find?_replace]
    split_ifs with hj
    · rw [hj, hid, hkey, hfind] at hx
      cases hx
      exact ⟨r', by rw [hj, hid, hkey, hfind]; rfl, hstep⟩
    · exact ⟨x, hx, .inl rfl⟩
  new j x hnone hx := by
    rw [Table.find?_replace] at hx
    split_ifs at hx with hj
    · rw [hnone] at hx
      cases hx
    · rw [hnone] at hx
      cases hx

/-- A repeated command changes nothing, and another one stores its answer after its action. -/
theorem withLiveOperation_ok {α : Type} {k : LiveKey} {operation : LiveOperationName}
    {fingerprint : Bytes} {encode : α → LiveResponse} {decode : LiveResponse → Option α}
    {action : LiveProc α} {a : α}
    (h : withLiveOperation d k operation fingerprint encode decode action s = .ok (a, s')) :
    (s.operations.find? (k.tenant, k.actor, operation, d.sha256 (trimSpace k.key)) ≠ none ∧
      s' = s) ∨
    (s.operations.find? (k.tenant, k.actor, operation, d.sha256 (trimSpace k.key)) = none ∧
      ∃ s₁, action s = .ok (a, s₁) ∧ s' = { s₁ with operations := s'.operations }) := by
  simp only [withLiveOperation, Txn.raiseIf_bind_ok, Txn.get_bind_ok] at h
  obtain ⟨-, h⟩ := h
  rcases hfind : s.operations.find? (k.tenant, k.actor, operation, d.sha256 (trimSpace k.key)) with
    _ | stored
  · rw [hfind] at h
    obtain ⟨b, s₁, haction, h⟩ := Txn.bind_ok.mp h
    simp only [Txn.get_bind_ok, Txn.orRaise_bind_ok, Txn.set_bind_ok, Txn.pure_ok] at h
    obtain ⟨t, -, rfl, rfl⟩ := h
    exact .inr ⟨rfl, s₁, haction, rfl⟩
  · rw [hfind] at h
    obtain ⟨-, h⟩ := Txn.raiseIf_bind_ok.mp h
    exact .inl ⟨by simp, (Txn.orRaise_ok.mp h).2.symm⟩

/-- A reading leaves the rooms, or the room that it reads expires. -/
theorem readLiveRoom_ok {tenant : Uuid} {actor : String} {room : Uuid} {when' : Instant}
    {v : LiveRoom} (h : readLiveRoom tenant actor room when' s = .ok (v, s')) :
    ∃ r, s.rooms.find? room = some r ∧
      (s' = s ∨ (r.status.Live ∧ r.expiresAt < when' ∧
        s' = { s with rooms := s.rooms.replace (r.close .expired when') })) := by
  simp only [readLiveRoom, Txn.get_bind_ok, Txn.orRaise_bind_ok, Option.filter_eq_some_iff] at h
  obtain ⟨r, ⟨hfind, -⟩, h⟩ := h
  refine ⟨r, hfind, ?_⟩
  split_ifs at h with hover
  · simp only [Txn.set_bind_ok, Txn.pure_ok] at h
    exact .inr ⟨hover.2, hover.1, h.2.symm⟩
  · exact .inl (Txn.pure_ok.mp h).2.symm

/-- A command that writes rooms only. -/
theorem LiveStep.of_rooms (hrooms : RoomsStep d c s.rooms s'.rooms)
    (hframe : s' = { s with
      rooms := s'.rooms
      operations := s'.operations
      workspaces := s'.workspaces }) : LiveStep d c s s' where
  recovery := by
    rw [hframe]
    exact .refl _
  rooms := hrooms
  findings := .inl (by rw [hframe])

/-- A command that answers from what is stored. -/
theorem LiveStep.refl (s : LiveDb) : LiveStep d c s s := .of_rooms (.refl _) rfl

/-- A stored answer changes nothing. -/
theorem LiveStep.of_operation {α : Type} {k : LiveKey} {operation : LiveOperationName}
    {fingerprint : Bytes} {encode : α → LiveResponse} {decode : LiveResponse → Option α}
    {action : LiveProc α} {a : α}
    (h : withLiveOperation d k operation fingerprint encode decode action s = .ok (a, s'))
    (haction : ∀ s₁, action s = .ok (a, s₁) → LiveStep d c s s₁) : LiveStep d c s s' := by
  rcases withLiveOperation_ok h with ⟨-, rfl⟩ | ⟨-, s₁, hs₁, hframe⟩
  · exact .refl _
  · have hstep := haction s₁ hs₁
    rw [hframe]
    exact ⟨hstep.recovery, hstep.rooms, hstep.findings⟩

/-- Reading a room is a step. -/
theorem readLiveRoom_step {tenant : Uuid} {actor : String} {room : Uuid} {when' : Instant}
    {v : LiveRoom} (h : readLiveRoom tenant actor room when' s = .ok (v, s')) : LiveStep d c s s' := by
  obtain ⟨r, hfind, rfl | ⟨hlive, -, rfl⟩⟩ := readLiveRoom_ok h
  · exact .refl _
  · exact .of_rooms (.replace hfind rfl (.inr (.expired hlive))) rfl

/-- A room that was just written and is not over is read as it is. -/
theorem readLiveRoom_of_open {tenant : Uuid} {actor : String} {room : Uuid} {when' : Instant}
    {v : LiveRoom} {r : LiveRoomRow} (h : readLiveRoom tenant actor room when' s = .ok (v, s'))
    (hr : s.rooms.find? room = some r) (hopen : when' < r.expiresAt) : s' = s := by
  obtain ⟨x, hx, rfl | ⟨-, hover, -⟩⟩ := readLiveRoom_ok h
  · rfl
  · obtain rfl := Option.some.inj (hr.symm.trans hx)
    exact absurd hover (not_lt.mpr hopen.le)

/-- What an invitation did. -/
theorem issueLiveRoomInvite_ok {i : LiveRoomInvite} {t : Instant}
    (h : issueLiveRoomInvite d i s = .ok (t, s')) :
    ∃ room r, normalizeRequestReference i.roomId = some room ∧ s.rooms.find? room = some r ∧
      r.Open i.occurredAt ∧ t = min (i.occurredAt + liveInviteLifetime) r.expiresAt ∧
      s'.rooms = s.rooms.replace
        (r.invite (d.sha256 i.token) (i.occurredAt + liveInviteLifetime)) ∧
      s' = { s with rooms := s'.rooms } := by
  simp only [issueLiveRoomInvite, Txn.orRaise_bind_ok, Txn.get_bind_ok, Txn.set_bind_ok,
    Txn.pure_ok, Option.filter_eq_some_iff, decide_eq_true_eq] at h
  obtain ⟨room, hroom, r, ⟨hfind, -, -, hopen⟩, rfl, rfl⟩ := h
  exact ⟨room, r, hroom, hfind, hopen, rfl, rfl, rfl⟩

/-- An invitation that is issued is what the command leaves. -/
theorem commit_issued {i : LiveRoomInvite} {t : Instant}
    (h : issueLiveRoomInvite d i s = .ok (t, s')) : commit (liveExec d (.invite i)) s = s' :=
  commit_of_ok (a := ()) (Txn.discard_ok.mpr ⟨t, h⟩)

/-- What a joining did. -/
theorem joinAction_ok {j : LiveRoomJoin} {v : LiveRoom} (h : joinAction d j s = .ok (v, s')) :
    ∃ r, s.rooms.rows.find? (j.Invited d ·) = some r ∧ j.Invited d r ∧
      s.rooms.find? r.id = some r ∧
      (r.peerSubjectId = none ∨ r.peerSubjectId = some j.actor) ∧
      s' = { s with rooms := s.rooms.replace (r.join j.actor) } := by
  simp only [joinAction, Txn.get_bind_ok, Txn.orRaise_bind_ok, Txn.raiseIf_bind_ok,
    Txn.set_bind_ok] at h
  obtain ⟨r, hfind, hbound, -, hread⟩ := h
  have hinvited := List.find?_some hfind
  rw [decide_eq_true_eq] at hinvited
  have hmem : s.rooms.find? r.id = some r :=
    Table.find?_eq_some.mpr ⟨List.mem_of_find?_eq_some hfind, rfl⟩
  refine ⟨r, hfind, hinvited, hmem, ?_, ?_⟩
  · by_contra hother
    push Not at hother
    exact hbound hother
  · exact readLiveRoom_of_open hread (Table.find?_replace_self hmem rfl) hinvited.2.2.2.1.2

/-- The room of a command is found, and nothing changes. -/
theorem LiveRoomMutation.row_ok {m : LiveRoomMutation} {room : Uuid} {t : LiveDb} {r : LiveRoomRow}
    (h : m.row room t s = .ok (r, s')) : t.rooms.find? room = some r ∧ s' = s := by
  simp only [LiveRoomMutation.row, Txn.orRaise_bind_ok, Txn.raiseIf_bind_ok, Txn.pure_ok,
    Option.filter_eq_some_iff] at h
  obtain ⟨x, ⟨hfind, -⟩, -, rfl, rfl⟩ := h
  exact ⟨hfind, rfl⟩

/-- Ending a room is a step. -/
theorem endAction_step {m : LiveRoomMutation} {room : Uuid} {v : LiveRoomReceipt}
    (h : endAction m room s = .ok (v, s')) : LiveStep d c s s' := by
  unfold endAction at h
  rw [Txn.get_bind_ok] at h
  obtain ⟨r, s₁, hrow, h⟩ := Txn.bind_ok.mp h
  obtain ⟨hfind, rfl⟩ := LiveRoomMutation.row_ok hrow
  simp only [Txn.raiseIf_bind_ok, Txn.set_bind_ok, Txn.pure_ok] at h
  obtain ⟨-, -, -, rfl⟩ := h
  refine .of_rooms (.replace hfind ?_ ?_) rfl
  · split_ifs <;> rfl
  · split_ifs with hlive
    · refine .inr (.ended ?_)
      unfold RoomStatus.Live
      cases hstatus : r.status <;> simp_all
    · exact .inl rfl

/-- What a finding did. -/
theorem findingAction_step {f : LiveFindingCommand} {room : Uuid} {v : LiveRoom}
    (h : findingAction f room s = .ok (v, s')) : LiveStep d c s s' := by
  simp only [findingAction, Txn.get_bind_ok, Txn.orRaise_bind_ok, Txn.raiseIf_bind_ok,
    Txn.set_bind_ok, Option.filter_eq_some_iff, decide_eq_true_eq] at h
  obtain ⟨r, ⟨hfind, htenant, hopen, howner⟩, -, st, hst, code, ⟨-, hallowed⟩, -, t, hinsert,
    hread⟩ := h
  have hkey : r.id = room := Table.key_of_find? hfind
  obtain rfl := readLiveRoom_of_open hread
    (Table.find?_replace_self (r := r.found) hfind hkey) hopen.2
  refine ⟨.refl _, .replace hfind rfl (.inr (.found hopen.1)), .inr ⟨r, _, st, hfind, hopen,
    howner.symm, ?_, hallowed, rfl, hinsert⟩⟩
  rw [htenant]
  exact hst

/-- Starting a room is a step. -/
theorem startAction_step {b : LiveRoomStart} {reference : Uuid} {v : LiveRoom}
    (h : startAction b reference s = .ok (v, s')) : LiveStep d c s s' := by
  simp only [startAction, Txn.get_bind_ok, Txn.orRaise_bind_ok, Txn.raiseIf_bind_ok,
    Txn.set_bind_ok] at h
  obtain ⟨st, -, -, h⟩ := h
  set expire : LiveRoomRow → LiveRoomRow := fun r =>
    if b.Lapsed reference r then r.close .expired b.occurredAt else r with hexpire
  have hid : ∀ r, (expire r).id = r.id := by
    intro r
    rw [hexpire]
    dsimp only
    split_ifs <;> rfl
  -- First the rooms whose time is over expire.
  have hstep : RoomsStep d c s.rooms (s.rooms.mapRows expire hid) := by
    refine ⟨fun i r hr => ⟨expire r, by rw [Table.find?_mapRows, hr]; rfl, ?_⟩, fun i r hnone hr => ?_⟩
    · by_cases hlapsed : b.Lapsed reference r
      · exact .inr (by rw [hexpire]; dsimp only; rw [if_pos hlapsed]; exact .expired hlapsed.2.2.2.1)
      · exact .inl (by rw [hexpire]; dsimp only; rw [if_neg hlapsed])
    · rw [Table.find?_mapRows, hnone] at hr
      cases hr
  rcases hexisting : (s.rooms.mapRows expire hid).rows.find? (b.Existing reference ·) with _ | r
  · rw [hexisting] at h
    simp only [Txn.raiseIf_bind_ok, Txn.orRaise_bind_ok, Txn.set_bind_ok, Txn.pure_ok] at h
    obtain ⟨-, -, -, t, hinsert, -, rfl⟩ := h
    refine .of_rooms ⟨fun i r hr => ?_, fun i r hnone hr => ?_⟩ rfl
    · obtain ⟨r', hr', hcase⟩ := hstep.step i r hr
      exact ⟨r', Table.find?_insert?_of_some hinsert hr', hcase⟩
    · have hnone' : (s.rooms.mapRows expire hid).find? i = none := by
        rw [Table.find?_mapRows, hnone]
        rfl
      change t.find? i = some r at hr
      rw [Table.find?_insert? hinsert] at hr
      split_ifs at hr
      · cases hr
        rfl
      · rw [hnone'] at hr
        cases hr
  · rw [hexisting] at h
    have hopen := List.find?_some hexisting
    rw [decide_eq_true_eq] at hopen
    have hfind : (s.rooms.mapRows expire hid).find? r.id = some r :=
      Table.find?_eq_some.mpr ⟨List.mem_of_find?_eq_some hexisting, rfl⟩
    obtain rfl := readLiveRoom_of_open h hfind hopen.2.2.2.2
    exact .of_rooms hstep rfl

/-- A command of the transfers returns on the whole when it returns on them. -/
theorem onRecovery_ok {α : Type} {x : RecoveryProc α} {a : α} :
    onRecovery x s = .ok (a, s') ↔
      ∃ t, x s.recovery = .ok (a, t) ∧ s' = { s with recovery := t } :=
  Txn.within_ok

/-- What a returning command did. -/
theorem liveExec_step {u : Unit} (h : liveExec d c s = .ok (u, s')) : LiveStep d c s s' := by
  -- Each call changes the room by one of the named steps or leaves it.
  cases c with
  | recovery c =>
    obtain ⟨t, ht, rfl⟩ := onRecovery_ok.mp h
    exact ⟨recoveryExec_step ht, .refl _, .inl rfl⟩
  | start b =>
    obtain ⟨v, hv⟩ := Txn.discard_ok.mp h
    simp only [startLiveRoom, Txn.orRaise_bind_ok] at hv
    obtain ⟨reference, -, hv⟩ := hv
    exact .of_operation hv fun _ => startAction_step
  | get tenant actor room now =>
    obtain ⟨v, hv⟩ := Txn.discard_ok.mp h
    simp only [getLiveRoom, Txn.orRaise_bind_ok] at hv
    obtain ⟨room, -, hv⟩ := hv
    exact readLiveRoom_step hv
  | invite i =>
    obtain ⟨t, ht⟩ := Txn.discard_ok.mp h
    obtain ⟨room, r, -, hfind, hopen, -, hrooms, hframe⟩ := issueLiveRoomInvite_ok ht
    refine .of_rooms ?_ (by rw [hframe])
    rw [hrooms]
    exact .replace hfind rfl (.inr (.invited rfl hopen))
  | join j =>
    obtain ⟨v, hv⟩ := Txn.discard_ok.mp h
    simp only [joinLiveRoom, Txn.raiseIf_bind_ok] at hv
    refine .of_operation hv.2 fun s₁ hs₁ => ?_
    obtain ⟨r, -, hinvited, hfind, hbound, rfl⟩ := joinAction_ok hs₁
    exact .of_rooms (.replace hfind rfl (.inr (.joined rfl hinvited hbound))) rfl
  | leave m =>
    obtain ⟨v, hv⟩ := Txn.discard_ok.mp h
    simp only [leaveLiveRoom, Txn.orRaise_bind_ok, Txn.get_bind_ok] at hv
    obtain ⟨room, -, hv⟩ := hv
    obtain ⟨r, s₁, hrow, hrest⟩ := Txn.bind_ok.mp hv
    obtain ⟨-, rfl⟩ := LiveRoomMutation.row_ok hrow
    simp only [Txn.raiseIf_bind_ok, Txn.pure_ok] at hrest
    obtain ⟨-, -, rfl⟩ := hrest
    exact .refl _
  | finish m =>
    obtain ⟨v, hv⟩ := Txn.discard_ok.mp h
    simp only [endLiveRoom, Txn.orRaise_bind_ok] at hv
    obtain ⟨room, -, hv⟩ := hv
    exact .of_operation hv fun _ => endAction_step
  | finding f =>
    obtain ⟨v, hv⟩ := Txn.discard_ok.mp h
    simp only [recordLiveRoomFinding, Txn.orRaise_bind_ok] at hv
    obtain ⟨room, -, hv⟩ := hv
    exact .of_operation hv fun _ => findingAction_step

end Steps

/-! ## What a step leaves -/

section Rows

variable {d : LiveDigest} {c : LiveCall} {r r' : LiveRoomRow}

/-- The moves of a status. -/
def RoomStatus.Moves (a b : RoomStatus) : Prop :=
  (a = .waiting ∧ b = .active) ∨ (a.Live ∧ (b = .ended ∨ b = .expired))

/-- What a command leaves of a room. -/
structure LiveRoomRow.Follows (r r' : LiveRoomRow) : Prop where
  version : r' = r ∨ r'.version = r.version + 1
  status : r'.status = r.status ∨ r.status.Moves r'.status
  terminal : ¬r.status.Live → r' = r
  owner : r'.ownerSubjectId = r.ownerSubjectId ∧ r'.tenantId = r.tenantId ∧
    r'.transferRequestReference = r.transferRequestReference ∧ r'.expiresAt = r.expiresAt
  peer : ∀ p, r.peerSubjectId = some p → r'.peerSubjectId = some p
  independent : r.peerSubjectId ≠ some r.ownerSubjectId → r'.peerSubjectId ≠ some r'.ownerSubjectId

/-- A room follows itself. -/
theorem LiveRoomRow.Follows.refl (r : LiveRoomRow) : r.Follows r where
  version := .inl rfl
  status := .inl rfl
  terminal _ := rfl
  owner := ⟨rfl, rfl, rfl, rfl⟩
  peer _ h := h
  independent h := h

/-- Every step is taken on a live room. -/
theorem LiveRoomRow.Step.live (h : r.Step d c r') : r.status.Live := by
  cases h with
  | invited _ live => exact live.1
  | joined _ invited => exact invited.2.2.2.1.1
  | ended live => exact live
  | expired live => exact live
  | found live => exact live

/-- A step of a room is followed by the room. -/
theorem LiveRoomRow.Step.follows (h : r.Step d c r') : r.Follows r' := by
  have hlive := h.live
  -- The steps differ in what they do to the status and to the peer.
  cases h with
  | invited => exact ⟨.inr rfl, .inl rfl, absurd hlive, ⟨rfl, rfl, rfl, rfl⟩, fun _ h => h, fun h => h⟩
  | @joined j _ invited bound =>
    -- Joining makes a waiting room active and leaves an active one active.
    refine ⟨.inr rfl, ?_, absurd hlive, ⟨rfl, rfl, rfl, rfl⟩, fun p hp => ?_, fun hother => ?_⟩
    · rcases hlive with hwaiting | hactive
      · exact .inr (.inl ⟨hwaiting, rfl⟩)
      · exact .inl hactive.symm
    · simp [LiveRoomRow.join, hp]
    · -- The peer is the one that was bound, or the operator who joins, and the owner cannot.
      rcases bound with hnone | hsome
      · intro hsame
        simp only [LiveRoomRow.join, hnone, Option.getD_none, Option.some.injEq] at hsame
        exact invited.2.2.2.2 hsame.symm
      · simp only [LiveRoomRow.join, hsome, Option.getD_some]
        exact hsome ▸ hother
  | ended => exact ⟨.inr rfl, .inr (.inr ⟨hlive, .inl rfl⟩), absurd hlive, ⟨rfl, rfl, rfl, rfl⟩,
      fun _ h => h, fun h => h⟩
  | expired => exact ⟨.inr rfl, .inr (.inr ⟨hlive, .inr rfl⟩), absurd hlive, ⟨rfl, rfl, rfl, rfl⟩,
      fun _ h => h, fun h => h⟩
  | found => exact ⟨.inr rfl, .inl rfl, absurd hlive, ⟨rfl, rfl, rfl, rfl⟩, fun _ h => h, fun h => h⟩

end Rows

/-! ## Tokens -/

/-- The digest of the token that a command issues. -/
def LiveCall.digest? (d : LiveDigest) : LiveCall → Option Bytes
  | .invite i => some (d.sha256 i.token)
  | _ => none

/-- A room carries the digest of an invitation, with its end. -/
def Carries (s : LiveDb) (hash : Bytes) (i : Uuid) (ends : Option Instant) : Prop :=
  ∃ r, s.rooms.find? i = some r ∧ r.inviteTokenHash = some hash ∧ r.inviteExpiresAt = ends

section Tokens

variable {d : LiveDigest} {c : LiveCall} {s s' : LiveDb} {hash : Bytes} {i : Uuid}
  {ends : Option Instant}

/-- Only an invitation gives a room a digest. -/
theorem Carries.of_step (h : RoomsStep d c s.rooms s'.rooms) (hother : c.digest? d ≠ some hash)
    (hc : Carries s' hash i ends) : Carries s hash i ends := by
  obtain ⟨r', hr', hhash, hends⟩ := hc
  rcases hold : s.rooms.find? i with _ | r
  · rw [h.new i r' hold hr'] at hhash
    cases hhash
  · obtain ⟨x, hx, hcase⟩ := h.step i r hold
    obtain rfl := Option.some.inj (hx.symm.trans hr')
    rcases hcase with rfl | hstep
    · exact ⟨x, hold, hhash, hends⟩
    · cases hstep with
      | invited call =>
        refine absurd ?_ hother
        rw [call]
        exact hhash
      | joined => cases hhash
      | ended => cases hhash
      | expired => cases hhash
      | found => exact ⟨r, hold, hhash, hends⟩

/-- Over commands that do not issue the token, a room that carries its digest did so before. -/
theorem Carries.of_run {cs : List LiveCall} (hother : hash ∉ cs.filterMap (LiveCall.digest? d))
    (hc : Carries (run (liveExec d) cs s) hash i ends) : Carries s hash i ends := by
  induction cs generalizing s with
  | nil => exact hc
  | cons c cs ih =>
    have hhead : c.digest? d ≠ some hash := by
      intro hsame
      exact hother (by simp [hsame])
    have htail : hash ∉ cs.filterMap (LiveCall.digest? d) := by
      intro hmem
      obtain ⟨x, hx, hxd⟩ := List.mem_filterMap.mp hmem
      exact hother (List.mem_filterMap.mpr ⟨x, List.mem_cons_of_mem _ hx, hxd⟩)
    rw [run_cons] at hc
    have hmid := ih htail hc
    rcases commit_cases (liveExec d c) s with hsame | ⟨u, hok⟩
    · rw [hsame] at hmid
      exact hmid
    · exact Carries.of_step (liveExec_step hok).rooms hhead hmid

/-- The room that a joining admits its operator to, unless it is answered from what is stored. -/
def LiveRoomJoin.admitted? (d : LiveDigest) (j : LiveRoomJoin) (s : LiveDb) : Option LiveRoomRow :=
  if s.operations.find? (j.tenant, j.actor, .join, d.sha256 (trimSpace j.key)) = none then
    match joinLiveRoom d j s with
    | .ok _ => s.rooms.rows.find? (j.Invited d ·)
    | .error _ => none
  else none

/-- An operator is admitted with the digest that the room carries, which the room gives up. -/
theorem LiveRoomJoin.admitted?_eq_some {j : LiveRoomJoin} {r : LiveRoomRow}
    (h : j.admitted? d s = some r) :
    j.Invited d r ∧ s.rooms.find? r.id = some r ∧
      ∃ r', (commit (liveExec d (.join j)) s).rooms.find? r.id = some r' ∧
        r'.inviteTokenHash = none := by
  unfold LiveRoomJoin.admitted? at h
  split_ifs at h with hfresh
  rcases hjoin : joinLiveRoom d j s with e | ⟨v, s'⟩
  · rw [hjoin] at h
    cases h
  rw [hjoin] at h
  dsimp only at h
  have hcommit : commit (liveExec d (.join j)) s = s' :=
    commit_of_ok (a := ()) (Txn.discard_ok.mpr ⟨v, hjoin⟩)
  simp only [joinLiveRoom, Txn.raiseIf_bind_ok] at hjoin
  rcases withLiveOperation_ok hjoin.2 with ⟨hstored, -⟩ | ⟨-, s₁, hs₁, hframe⟩
  · exact absurd hfresh hstored
  · obtain ⟨x, hx, hinvited, hfind, -, rfl⟩ := joinAction_ok hs₁
    obtain rfl := Option.some.inj (h.symm.trans hx)
    refine ⟨hinvited, hfind, r.join j.actor, ?_, rfl⟩
    rw [hcommit, hframe]
    exact Table.find?_replace_self hfind rfl

/-- A room that an operator joined carries no digest. -/
theorem not_carries_of_admitted {j : LiveRoomJoin} {r : LiveRoomRow}
    (h : j.admitted? d s = some r) : ¬Carries (commit (liveExec d (.join j)) s) hash r.id ends := by
  rintro ⟨x, hx, hhash, -⟩
  obtain ⟨-, -, r', hr', hgone⟩ := LiveRoomJoin.admitted?_eq_some h
  obtain rfl := Option.some.inj (hr'.symm.trans hx)
  rw [hgone] at hhash
  cases hhash

/-- A room with a newer invitation does not carry the digest of the older one. -/
theorem not_carries_of_issued {v : LiveRoomInvite} {until' : Instant}
    (h : issueLiveRoomInvite d v s = .ok (until', s'))
    (hroom : normalizeRequestReference v.roomId = some i) (hother : d.sha256 v.token ≠ hash) :
    ¬Carries (commit (liveExec d (.invite v)) s) hash i ends := by
  rintro ⟨x, hx, hhash, -⟩
  obtain ⟨room, r, hroom', hfind, -, -, hrooms, -⟩ := issueLiveRoomInvite_ok h
  obtain rfl := Option.some.inj (hroom.symm.trans hroom')
  have hkey : r.id = i := Table.key_of_find? hfind
  have hwritten := Table.find?_replace_self
    (r := r.invite (d.sha256 v.token) (v.occurredAt + liveInviteLifetime)) hfind hkey
  rw [commit_issued h, hrooms, hwritten] at hx
  obtain rfl := Option.some.inj hx
  exact hother (Option.some.inj hhash)

variable {s₀ : LiveDb} {pre : List LiveCall} {v : LiveRoomInvite} {t : LiveDb}

/-- After an invitation, the room that it is for, and no other, carries its digest. -/
theorem carries_of_issued {until' : Instant}
    (hissued : issueLiveRoomInvite d v (run (liveExec d) pre s₀) = .ok (until', t))
    (hpre : d.sha256 v.token ∉ pre.filterMap (LiveCall.digest? d))
    (hstart : ∀ i ends, ¬Carries s₀ (d.sha256 v.token) i ends)
    (hc : Carries t (d.sha256 v.token) i ends) :
    normalizeRequestReference v.roomId = some i ∧ ends = some until' := by
  obtain ⟨room, r, hroom, hfind, -, rfl, hrooms, -⟩ := issueLiveRoomInvite_ok hissued
  obtain ⟨x, hx, hhash, hends⟩ := hc
  have hkey : r.id = room := Table.key_of_find? hfind
  rw [hrooms, Table.find?_replace] at hx
  split_ifs at hx with hi
  · have hsame : i = room := hi.trans hkey
    rw [hsame, hfind] at hx
    obtain rfl := Option.some.inj hx
    exact ⟨hsame ▸ hroom, hends.symm⟩
  · exact absurd (Carries.of_run hpre ⟨x, hx, hhash, hends⟩) (hstart i ends)

end Tokens

/-! ## Outcomes -/

section Outcomes

variable {d : LiveDigest} {s : LiveDb} {tenant reference : Uuid} {actor : String}

/-- A request keeps the outcome that a status was read from. -/
theorem run_status {cs : List LiveCall} {when₁ when₂ : Instant} {st : TransferRequestStatus}
    (h : transferRequestStatusWithQuerier s.recovery tenant actor reference when₁ = some st)
    (hfinal : st.status = .completed ∨ st.status = .rejected) :
    ∃ st', transferRequestStatusWithQuerier (run (liveExec d) cs s).recovery tenant actor reference
      when₂ = some st' ∧ st'.status = st.status ∧ st'.transferId = st.transferId := by
  obtain ⟨r, hr, rfl⟩ := Option.map_eq_some_iff.mp h
  have hkept : (run (liveExec d) cs s).recovery.requestBy? tenant actor reference = some r :=
    run_invariant (I := fun t : LiveDb => t.recovery.requestBy? tenant actor reference = some r)
      (fun _ _ _ _ hstep hI => (liveExec_step hstep).recovery.requestBy? hI) cs hr
  -- The outcome of a request that is not in progress does not depend on the time.
  have hsame : r.authoritative when₂ = r.authoritative when₁ := by
    have hstate : r.state ≠ .inProgress := by
      intro hprogress
      dsimp only [IdempotencyRequest.authoritative] at hfinal
      rw [if_pos hprogress] at hfinal
      split_ifs at hfinal <;> simp at hfinal
    unfold IdempotencyRequest.authoritative
    rw [if_neg hstate, if_neg hstate]
  refine ⟨_, Option.map_eq_some_iff.mpr ⟨r, hkept, rfl⟩, ?_, ?_⟩
  · exact congrArg Prod.fst hsame
  · exact congrArg Prod.snd hsame

end Outcomes

/-! ## Every history -/

section Histories

variable {d : LiveDigest} {s₀ : LiveDb} {room : LiveRoomRow}

/-- What a command leaves of a room. -/
theorem commit_follows (c : LiveCall) {s : LiveDb} {i : Uuid} {r : LiveRoomRow}
    (hr : s.rooms.find? i = some r) :
    ∃ r', (commit (liveExec d c) s).rooms.find? i = some r' ∧ r.Follows r' := by
  rcases commit_cases (liveExec d c) s with hsame | ⟨u, hok⟩
  · exact ⟨r, by rw [hsame]; exact hr, .refl r⟩
  · obtain ⟨r', hr', rfl | hstep⟩ := (liveExec_step hok).rooms.step i r hr
    · exact ⟨r', hr', .refl r'⟩
    · exact ⟨r', hr', hstep.follows⟩

/-- A room stays with its owner, and its peer is not the owner. -/
theorem run_room (cs : List LiveCall) (hroom : s₀.rooms.find? room.id = some room)
    (hpeer : room.peerSubjectId = none) :
    ∃ r, (run (liveExec d) cs s₀).rooms.find? room.id = some r ∧
      (r.ownerSubjectId = room.ownerSubjectId ∧ r.tenantId = room.tenantId ∧
        r.transferRequestReference = room.transferRequestReference ∧
        r.expiresAt = room.expiresAt) ∧ r.peerSubjectId ≠ some r.ownerSubjectId := by
  refine run_invariant (I := fun t : LiveDb => ∃ r, t.rooms.find? room.id = some r ∧
      (r.ownerSubjectId = room.ownerSubjectId ∧ r.tenantId = room.tenantId ∧
        r.transferRequestReference = room.transferRequestReference ∧
        r.expiresAt = room.expiresAt) ∧ r.peerSubjectId ≠ some r.ownerSubjectId)
    (fun c t u t' h hI => ?_) cs ⟨room, hroom, ⟨rfl, rfl, rfl, rfl⟩, by simp [hpeer]⟩
  obtain ⟨r, hr, ⟨h₁, h₂, h₃, h₄⟩, hother⟩ := hI
  obtain ⟨r', hr', hfollows⟩ := commit_follows (d := d) c hr
  rw [commit_of_ok h] at hr'
  obtain ⟨g₁, g₂, g₃, g₄⟩ := hfollows.owner
  exact ⟨r', hr', ⟨g₁.trans h₁, g₂.trans h₂, g₃.trans h₃, g₄.trans h₄⟩, hfollows.independent hother⟩

/-- A finding stays as it was recorded. -/
theorem run_finding (cs : List LiveCall) {s : LiveDb} {i : Uuid} {f : LiveFindingRow}
    (hf : s.findings.find? i = some f) : (run (liveExec d) cs s).findings.find? i = some f := by
  refine run_invariant (I := fun t : LiveDb => t.findings.find? i = some f)
    (fun c t u t' h hI => ?_) cs hf
  rcases (liveExec_step h).findings with hsame | ⟨r, g, st, -, -, -, -, -, -, hinsert⟩
  · rw [hsame]
    exact hI
  · exact Table.find?_insert?_of_some hinsert hI

/-- A finding of a room that had none was recorded by a command. -/
theorem recorded_of_finding {cs : List LiveCall} {i : Uuid} {f : LiveFindingRow}
    (hstart : s₀.findings.find? i = none)
    (hf : (run (liveExec d) cs s₀).findings.find? i = some f) :
    ∃ pre c post r st, cs = pre ++ c :: post ∧ (run (liveExec d) pre s₀).rooms.find? i = some r ∧
      r.Open f.recordedAt ∧ f.actorSubjectId = r.ownerSubjectId ∧
      transferRequestStatusWithQuerier (run (liveExec d) pre s₀).recovery r.tenantId
        r.ownerSubjectId r.transferRequestReference f.recordedAt = some st ∧
      f.findingCode.Allowed st.status st.transferId ∧
      f.canonicalTransferId = canonicalTransfer? st.transferId := by
  obtain ⟨pre, c, post, rfl, hbefore, hafter⟩ := run_crossing
    (Q := fun t : LiveDb => t.findings.find? i = some f) (by simp [hstart]) hf
  have hnot := hbefore pre (List.prefix_refl pre)
  rcases commit_cases (liveExec d c) (run (liveExec d) pre s₀) with hsame | ⟨u, hok⟩
  · rw [hsame] at hafter
    exact absurd hafter hnot
  rcases (liveExec_step hok).findings with hsame | ⟨r, g, st, hr, hopen, hactor, hst, hallowed,
    htransfer, hinsert⟩
  · rw [hsame] at hafter
    exact absurd hafter hnot
  · rw [Table.find?_insert? hinsert] at hafter
    split_ifs at hafter with hi
    · obtain rfl := Option.some.inj hafter
      exact ⟨pre, c, post, r, st, rfl, hi ▸ hr, hopen, hactor, hst, hallowed, htransfer⟩
    · exact absurd hafter hnot

/-- What is said of a token: it is for one room, works while the room is live and the invitation is
not over, not after a newer invitation, and once. -/
theorem token_admits_once {cs pre mid post : List LiveCall} {v : LiveRoomInvite} {j : LiveRoomJoin}
    {until' : Instant} {t : LiveDb} {r : LiveRoomRow}
    (htokens : (cs.filterMap (LiveCall.digest? d)).Nodup)
    (hstart : ∀ hash ∈ cs.filterMap (LiveCall.digest? d), ∀ i ends, ¬Carries s₀ hash i ends)
    (hcs : cs = pre ++ .invite v :: (mid ++ .join j :: post))
    (hissued : issueLiveRoomInvite d v (run (liveExec d) pre s₀) = .ok (until', t))
    (htoken : j.hash d = d.sha256 v.token)
    (hadmitted : j.admitted? d (run (liveExec d) (pre ++ .invite v :: mid) s₀) = some r) :
    normalizeRequestReference v.roomId = some r.id ∧ r.Open j.occurredAt ∧ j.occurredAt < until' ∧
    (∀ (m₁ : List LiveCall) (v' : LiveRoomInvite) (m₂ : List LiveCall) (until₂ : Instant)
        (t₂ : LiveDb), mid = m₁ ++ .invite v' :: m₂ →
      normalizeRequestReference v'.roomId = some r.id →
      issueLiveRoomInvite d v' (run (liveExec d) (pre ++ .invite v :: m₁) s₀) ≠ .ok (until₂, t₂)) ∧
    ∀ (m₁ : List LiveCall) (j' : LiveRoomJoin) (m₂ : List LiveCall),
      mid = m₁ ++ .join j' :: m₂ → j'.hash d = d.sha256 v.token →
      j'.admitted? d (run (liveExec d) (pre ++ .invite v :: m₁) s₀) = none := by
  -- The digest is issued at one place.
  subst hcs
  have hdigests := htokens
  simp only [List.filterMap_append, List.filterMap_cons, LiveCall.digest?] at hdigests hstart
  rw [List.nodup_append] at hdigests
  obtain ⟨-, hlater, hapart⟩ := hdigests
  have hpre : d.sha256 v.token ∉ pre.filterMap (LiveCall.digest? d) := fun hmem =>
    hapart _ hmem _ List.mem_cons_self rfl
  have hmid : d.sha256 v.token ∉ mid.filterMap (LiveCall.digest? d) := fun hmem =>
    (List.nodup_cons.mp hlater).1 (List.mem_append_left _ hmem)
  have hnone : ∀ i ends, ¬Carries s₀ (d.sha256 v.token) i ends := fun i ends =>
    hstart _ (List.mem_append_right _ List.mem_cons_self) i ends
  have hrun : ∀ l, run (liveExec d) (pre ++ .invite v :: l) s₀ = run (liveExec d) l t := by
    intro l
    rw [run_append, run_cons, commit_issued hissued]
  have hissued_for : ∀ {i ends}, Carries t (d.sha256 v.token) i ends →
      normalizeRequestReference v.roomId = some i ∧ ends = some until' := fun hc =>
    carries_of_issued hissued hpre hnone hc
  rw [hrun] at hadmitted
  obtain ⟨hinvited, hfind, -⟩ := LiveRoomJoin.admitted?_eq_some hadmitted
  have hcarries : Carries (run (liveExec d) mid t) (d.sha256 v.token) r.id r.inviteExpiresAt :=
    ⟨r, hfind, htoken ▸ hinvited.2.1, rfl⟩
  obtain ⟨hroom, hends⟩ := hissued_for (Carries.of_run hmid hcarries)
  obtain ⟨e, he, hbefore⟩ := hinvited.2.2.1
  have hsplit : ∀ {m₁ c m₂}, mid = m₁ ++ c :: m₂ →
      Carries (commit (liveExec d c) (run (liveExec d) m₁ t)) (d.sha256 v.token) r.id
        r.inviteExpiresAt := by
    intro m₁ c m₂ hm
    have hm₂ : d.sha256 v.token ∉ m₂.filterMap (LiveCall.digest? d) := by
      intro hmem
      obtain ⟨x, hx, hxd⟩ := List.mem_filterMap.mp hmem
      refine hmid (List.mem_filterMap.mpr ⟨x, ?_, hxd⟩)
      rw [hm]
      exact List.mem_append_right _ (List.mem_cons_of_mem _ hx)
    refine Carries.of_run hm₂ ?_
    rw [hm, run_append, run_cons] at hcarries
    exact hcarries
  refine ⟨hroom, hinvited.2.2.2.1, ?_, ?_, ?_⟩
  · rw [he] at hends
    exact Option.some.inj hends ▸ hbefore
  · intro m₁ v' m₂ until₂ t₂ hm hsame hnewer
    rw [hrun] at hnewer
    have hother : d.sha256 v'.token ≠ d.sha256 v.token := by
      intro heq
      refine hmid (List.mem_filterMap.mpr ⟨.invite v', ?_, congrArg some heq⟩)
      rw [hm]
      exact List.mem_append_right _ List.mem_cons_self
    exact not_carries_of_issued hnewer hsame hother (hsplit hm)
  · intro m₁ j' m₂ hm hsame
    by_contra hsome
    obtain ⟨r', hr'⟩ := Option.ne_none_iff_exists'.mp hsome
    rw [hrun] at hr'
    obtain ⟨hinvited', hfind', -⟩ := LiveRoomJoin.admitted?_eq_some hr'
    have hm₁ : d.sha256 v.token ∉ m₁.filterMap (LiveCall.digest? d) := by
      intro hmem
      obtain ⟨y, hy, hyd⟩ := List.mem_filterMap.mp hmem
      refine hmid (List.mem_filterMap.mpr ⟨y, ?_, hyd⟩)
      rw [hm]
      exact List.mem_append_left _ hy
    -- The other operator joined the same room.
    have hcarries' : Carries (run (liveExec d) m₁ t) (d.sha256 v.token) r'.id r'.inviteExpiresAt :=
      ⟨r', hfind', hsame ▸ hinvited'.2.1, rfl⟩
    obtain ⟨hroom', -⟩ := hissued_for (Carries.of_run hm₁ hcarries')
    have hid : r'.id = r.id := Option.some.inj (hroom'.symm.trans hroom)
    exact not_carries_of_admitted hr' (hid ▸ hsplit hm)

end Histories

/-- **The lifecycle of a room**, from its insertion, over every history of commands on rooms and
transfers, with any operators, keys and times. A command leaves the room or raises its version by
one; the status moves from waiting to active and from there to its end, and a room that is over
never changes; the peer stays, and is not the owner. A token admits to the room that it was issued
for, while the room is live and the invitation is not over, not after a newer invitation, and one
operator only, as long as tokens are told apart by their digests. The room has at most one finding,
which its owner recorded while it was live, and a finding that confirms an outcome agrees with the
outcome of the request ever after. -/
theorem live_room_lifecycle (d : LiveDigest) (s₀ : LiveDb) (room : LiveRoomRow)
    (hroom : s₀.rooms.find? room.id = some room)
    (hnew : room.status = .waiting ∧ room.version = 1 ∧ room.peerSubjectId = none)
    (hfinding : s₀.findings.find? room.id = none) (cs : List LiveCall)
    (htokens : (cs.filterMap (LiveCall.digest? d)).Nodup)
    (hdigests : ∀ hash ∈ cs.filterMap (LiveCall.digest? d), ∀ i ends, ¬Carries s₀ hash i ends) :
    (∀ pre c post, cs = pre ++ c :: post →
      ∃ r r', (run (liveExec d) pre s₀).rooms.find? room.id = some r ∧
        (run (liveExec d) (pre ++ [c]) s₀).rooms.find? room.id = some r' ∧ r.Follows r' ∧
        r'.ownerSubjectId = room.ownerSubjectId ∧ r'.peerSubjectId ≠ some room.ownerSubjectId) ∧
    (∀ (pre : List LiveCall) (v : LiveRoomInvite) (mid : List LiveCall) (j : LiveRoomJoin)
        (post : List LiveCall) (until' : Instant) (t : LiveDb),
      cs = pre ++ .invite v :: (mid ++ .join j :: post) →
      issueLiveRoomInvite d v (run (liveExec d) pre s₀) = .ok (until', t) →
      j.hash d = d.sha256 v.token →
      ∀ r, j.admitted? d (run (liveExec d) (pre ++ .invite v :: mid) s₀) = some r →
        normalizeRequestReference v.roomId = some r.id ∧ r.Open j.occurredAt ∧
        j.occurredAt < until' ∧
        (∀ (m₁ : List LiveCall) (v' : LiveRoomInvite) (m₂ : List LiveCall) (until₂ : Instant)
            (t₂ : LiveDb), mid = m₁ ++ .invite v' :: m₂ →
          normalizeRequestReference v'.roomId = some r.id →
          issueLiveRoomInvite d v' (run (liveExec d) (pre ++ .invite v :: m₁) s₀) ≠
            .ok (until₂, t₂)) ∧
        ∀ (m₁ : List LiveCall) (j' : LiveRoomJoin) (m₂ : List LiveCall),
          mid = m₁ ++ .join j' :: m₂ → j'.hash d = d.sha256 v.token →
          j'.admitted? d (run (liveExec d) (pre ++ .invite v :: m₁) s₀) = none) ∧
    (∀ pre post f, cs = pre ++ post →
      (run (liveExec d) pre s₀).findings.find? room.id = some f →
      (∃ p₁ c p₂ r, pre = p₁ ++ c :: p₂ ∧
        (run (liveExec d) p₁ s₀).rooms.find? room.id = some r ∧ r.Open f.recordedAt ∧
        f.actorSubjectId = room.ownerSubjectId) ∧
      (run (liveExec d) cs s₀).findings.find? room.id = some f ∧
      (f.findingCode = .confirmedCompleted ∨ f.findingCode = .confirmedRejected → ∀ when',
        ∃ st, transferRequestStatusWithQuerier (run (liveExec d) cs s₀).recovery room.tenantId
            room.ownerSubjectId room.transferRequestReference when' = some st ∧
          (f.findingCode = .confirmedCompleted → st.status = .completed) ∧
          (f.findingCode = .confirmedRejected → st.status = .rejected) ∧
          f.canonicalTransferId = canonicalTransfer? st.transferId)) := by
  refine ⟨?_, ?_, ?_⟩
  · intro pre c post _
    -- Before the call the room still has the owner it was made with.
    obtain ⟨r, hr, ⟨howner, -⟩, hother⟩ := run_room (d := d) pre hroom hnew.2.2
    obtain ⟨r', hr', hfollows⟩ := commit_follows (d := d) c hr
    have howner' : r'.ownerSubjectId = room.ownerSubjectId := hfollows.owner.1.trans howner
    refine ⟨r, r', hr, ?_, hfollows, howner', ?_⟩
    · rw [run_append]
      exact hr'
    · rw [← howner']
      exact hfollows.independent hother
  -- The token part is about the digests, which are distinct by assumption.
  · intro pre v mid j post until' t hcs hissued htoken r hadmitted
    exact token_admits_once htokens hdigests hcs hissued htoken hadmitted
  -- The finding was recorded by an earlier call, when the room was open.
  · intro pre post f hcs hf
    obtain ⟨p₁, c, p₂, r, st, hpre, hr, hopen, hactor, hst, hallowed, htransfer⟩ :=
      recorded_of_finding hfinding hf
    obtain ⟨x, hx, ⟨howner, htenant, hreference, -⟩, -⟩ := run_room (d := d) p₁ hroom hnew.2.2
    obtain rfl := Option.some.inj (hr.symm.trans hx)
    refine ⟨⟨p₁, c, p₂, r, hpre, hr, hopen, hactor.trans howner⟩, ?_, fun hcode when' => ?_⟩
    · rw [hcs, run_append]
      exact run_finding post hf
    -- Both codes require a final status.
    · have hfinal : st.status = .completed ∨ st.status = .rejected := by
        rcases hcode with hcode | hcode
        · rw [hcode] at hallowed
          exact .inl hallowed.1
        · rw [hcode] at hallowed
          exact .inr hallowed.1
      rw [howner, htenant, hreference] at hst
      -- A final status of the transfer does not change any more.
      have hlater : ∃ st', transferRequestStatusWithQuerier
          (run (liveExec d) (c :: (p₂ ++ post)) (run (liveExec d) p₁ s₀)).recovery room.tenantId
          room.ownerSubjectId room.transferRequestReference when' = some st' ∧
          st'.status = st.status ∧ st'.transferId = st.transferId := run_status hst hfinal
      obtain ⟨st', hst', hstatus, hid⟩ := hlater
      have hrun : run (liveExec d) (c :: (p₂ ++ post)) (run (liveExec d) p₁ s₀) =
          run (liveExec d) cs s₀ := by
        rw [← run_append, hcs, hpre, List.append_assoc, List.cons_append]
      rw [hrun] at hst'
      refine ⟨st', hst', fun hcompleted => ?_, fun hrejected => ?_, by rw [hid]; exact htransfer⟩
      · rw [hcompleted] at hallowed
        exact hstatus.trans hallowed.1
      · rw [hrejected] at hallowed
        exact hstatus.trans hallowed.1

namespace Sample

/-- An invite token. -/
def token : String := "q83vEjRWeJCrze8SNFZ4kKvN7xI0VniQq83vEjRWeJA"

/-- The SHA-256 digest of the key of a start. -/
def startKeyDigest : Bytes :=
  [186, 124, 79, 40, 64, 121, 21, 240, 55, 28, 22, 175, 191, 91, 184, 216, 92, 148, 203,
    224, 104, 86, 71, 104, 69, 241, 46, 208, 97, 212, 241, 66]

/-- The SHA-256 digest of the reference of the saved intent. -/
def referenceDigest : Bytes :=
  [17, 229, 148, 244, 129, 149, 140, 16, 227, 1, 93, 11, 240, 68, 122, 34, 240, 104, 168,
    166, 71, 244, 117, 223, 21, 206, 44, 122, 180, 184, 243, 241]

/-- The SHA-256 digest of an invite token. -/
def tokenDigest : Bytes :=
  [83, 201, 14, 216, 60, 2, 174, 137, 213, 170, 116, 137, 117, 237, 59, 100, 175, 94, 103,
    121, 47, 130, 165, 169, 121, 38, 89, 190, 33, 90, 82, 85]

/-- The SHA-256 digest of the key of a joining. -/
def joinKeyDigest : Bytes :=
  [25, 175, 163, 173, 238, 57, 112, 124, 146, 41, 183, 193, 206, 62, 32, 141, 95, 98, 211,
    152, 188, 48, 28, 169, 136, 31, 252, 31, 122, 107, 152, 164]

/-- The SHA-256 digest of the digest of the token. -/
def tokenFingerprint : Bytes :=
  [126, 44, 51, 238, 234, 156, 37, 169, 83, 204, 214, 104, 254, 212, 194, 141, 28, 226, 195,
    177, 9, 36, 96, 0, 38, 30, 206, 212, 170, 225, 129, 192]

/-- SHA-256 of the texts that the cases use. -/
def liveDigests : List (String × Bytes) :=
  [("sample-live-start-01", startKeyDigest), (recoveryReference.text, referenceDigest),
    (token, tokenDigest), ("sample-live-join-001", joinKeyDigest)]

/-- The digests of the sample. -/
def liveDigest : LiveDigest where
  toDigest := digestOf (liveDigests ++ digests)
  rehash b := if b = tokenDigest then tokenFingerprint else List.replicate 32 0

/-- The tables without rooms. -/
def liveDb : LiveDb := ⟨recoveryDb, .empty, .empty, .empty, []⟩

/-- The owner of the saved intent starts an investigation. -/
def startIntended : LiveRoomStart where
  tenant := tenant
  actor := alice
  key := "sample-live-start-01"
  requestReference := recoveryReference.text
  occurredAt := 1
  roomId := uuid 0x00000000000040008000000000000011
  workspaceId := uuid 0x00000000000040008000000000000012

/-- A room that has just been started for the saved intent. -/
def freshRoom : LiveRoomRow :=
  .new (uuid 0x00000000000040008000000000000011) tenant (uuid 0x00000000000040008000000000000012)
    recoveryReference alice 0

/-- The tables with that room. -/
def freshRoomDb : LiveDb := { liveDb with rooms := ⟨[freshRoom], by decide⟩ }

/-- The owner invites a peer. -/
def inviteBob : LiveRoomInvite := ⟨tenant, alice, freshRoom.id.text, 1, token⟩

/-- The peer joins with the token. -/
def joinBob : LiveRoomJoin := ⟨⟨tenant, "bob", "sample-live-join-001"⟩, token, 2⟩

end Sample

/-- An owner invites a peer, who joins with the token before the invitation is over. -/
theorem live_room_lifecycle_sample :
    ∃ r, Sample.joinBob.admitted? Sample.liveDigest (run (liveExec Sample.liveDigest)
        [.invite Sample.inviteBob] Sample.freshRoomDb) = some r ∧
      r.id = Sample.freshRoom.id ∧ r.Open Sample.joinBob.occurredAt := by
  -- The sample room is joined with the token of its one invitation.
  have hfacts : (Sample.joinBob.admitted? Sample.liveDigest (run (liveExec Sample.liveDigest)
        [.invite Sample.inviteBob] Sample.freshRoomDb)).map LiveRoomRow.id =
          some Sample.freshRoom.id ∧
      (match issueLiveRoomInvite Sample.liveDigest Sample.inviteBob Sample.freshRoomDb with
        | .ok (until', _) => some until'
        | .error _ => none) = some (1 + liveInviteLifetime) ∧
      Sample.joinBob.hash Sample.liveDigest = Sample.liveDigest.sha256 Sample.inviteBob.token := by
    decide +kernel
  obtain ⟨hadmitted, hissued, htoken⟩ := hfacts
  obtain ⟨r, hr, hid⟩ := Option.map_eq_some_iff.mp hadmitted
  rcases hissue : issueLiveRoomInvite Sample.liveDigest Sample.inviteBob Sample.freshRoomDb with
    e | ⟨until', t⟩
  · rw [hissue] at hissued
    cases hissued
  -- No token is stored at the start.
  have hstart : ∀ hash ∈ [LiveCall.invite Sample.inviteBob, .join Sample.joinBob].filterMap
      (LiveCall.digest? Sample.liveDigest), ∀ i ends, ¬Carries Sample.freshRoomDb hash i ends := by
    rintro hash - i ends ⟨x, hx, hhash, -⟩
    have hmem : x ∈ [Sample.freshRoom] := Table.mem_of_find? hx
    rw [List.mem_singleton.mp hmem] at hhash
    cases hhash
  obtain ⟨-, hadmits, -⟩ := live_room_lifecycle Sample.liveDigest Sample.freshRoomDb
    Sample.freshRoom (Table.find?_eq_some.mpr ⟨List.mem_singleton_self _, rfl⟩) ⟨rfl, rfl, rfl⟩ rfl
    [.invite Sample.inviteBob, .join Sample.joinBob] (List.nodup_singleton _) hstart
  obtain ⟨-, hopen, -⟩ := hadmits [] Sample.inviteBob [] Sample.joinBob [] until' t rfl hissue
    htoken r hr
  exact ⟨r, hr, hid, hopen⟩

/-! ## No room is started -/

/-- After every history that starts without references, a start under a new key finds no request in
progress: a reference is only ever attached to a request that has its outcome. -/
theorem no_room_started (d : LiveDigest) (s₀ : LiveDb)
    (hreferences : s₀.recovery.references = .empty) (cs : List LiveCall) (c : LiveRoomStart)
    (hkey : IsKey (trimSpace c.key)) {reference : Uuid}
    (hreference : normalizeRequestReference c.requestReference = some reference)
    (hfresh : (run (liveExec d) cs s₀).operations.find?
      (c.tenant, c.actor, .start, d.sha256 (trimSpace c.key)) = none) :
    startLiveRoom d c (run (liveExec d) cs s₀) = .error .liveRoomNotFound := by
  -- Without stored references every request reference is settled in each later state.
  have hsettled : (run (liveExec d) cs s₀).recovery.Settled := by
    refine run_invariant (I := fun t : LiveDb => t.recovery.Settled)
      (fun _ _ _ _ h hI => (liveExec_step h).recovery.settled hI) cs ?_
    intro x hx
    rw [hreferences] at hx
    cases hx
  set s := run (liveExec d) cs s₀
  -- A settled reference is no longer unresolved, which the action requires.
  have haction : startAction c reference s = .error .liveRoomNotFound := by
    unfold startAction
    rw [Txn.get_bind]
    rcases hst : transferRequestStatusWithQuerier s.recovery c.tenant c.actor reference
      c.occurredAt with _ | st
    · exact Txn.bind_of_error rfl
    · rw [Txn.bind_of_ok (Txn.orRaise_ok.mpr ⟨rfl, rfl⟩)]
      exact Txn.raiseIf_bind_of_pos (hsettled.status hst)
  unfold startLiveRoom withLiveOperation
  rw [Txn.bind_of_ok (Txn.orRaise_ok.mpr ⟨hreference, rfl⟩),
    Txn.raiseIf_bind_of_neg (not_not.mpr hkey), Txn.get_bind, hfresh]
  exact Txn.bind_of_error haction

/-- The tables after the intent of a transfer has been saved. -/
def Sample.intended : LiveDb :=
  run (liveExec liveDigest) [.recovery prepareTransfer] liveDb

/-- The intent of a transfer is saved and is shown as unresolved, and no investigation can be
started for it. -/
theorem unresolved_not_investigated :
    (∃ i ∈ Sample.intended.recovery.visible Sample.tenant Sample.alice,
      i.requestReference.text = Sample.startIntended.requestReference ∧
      (i.view (Sample.intended.recovery.outcome? i)).state = "unresolved") ∧
    Sample.intended.operations.rows = [] ∧
    startLiveRoom Sample.liveDigest Sample.startIntended Sample.intended =
      .error .liveRoomNotFound := by
  have hfacts : (Sample.intended.recovery.visible Sample.tenant Sample.alice).any (fun i =>
        i.requestReference.text = Sample.startIntended.requestReference ∧
        (i.view (Sample.intended.recovery.outcome? i)).state = "unresolved") = true ∧
      Sample.intended.operations.rows = [] ∧
      (match startLiveRoom Sample.liveDigest Sample.startIntended Sample.intended with
        | .ok _ => none
        | .error e => some e) = some .liveRoomNotFound := by
    decide +kernel
  obtain ⟨hshown, hoperations, hstart⟩ := hfacts
  obtain ⟨i, hi, hstate⟩ := List.any_eq_true.mp hshown
  refine ⟨⟨i, hi, of_decide_eq_true hstate⟩, hoperations, ?_⟩
  rcases hresult : startLiveRoom Sample.liveDigest Sample.startIntended Sample.intended with e | r
  · rw [hresult] at hstart
    rw [Option.some.inj hstart]
  · rw [hresult] at hstart
    cases hstart

/-- The investigation of the saved intent is among those that cannot be started. -/
theorem no_room_started_sample :
    startLiveRoom Sample.liveDigest Sample.startIntended
      (run (liveExec Sample.liveDigest) [.recovery Sample.prepareTransfer] Sample.liveDb) =
        .error .liveRoomNotFound := by
  have hfacts : IsKey (trimSpace Sample.startIntended.key) ∧
      normalizeRequestReference Sample.startIntended.requestReference =
        some Sample.recoveryReference ∧
      (run (liveExec Sample.liveDigest) [.recovery Sample.prepareTransfer]
        Sample.liveDb).operations.rows = [] := by
    decide +kernel
  obtain ⟨hkey, hreference, hoperations⟩ := hfacts
  refine no_room_started Sample.liveDigest Sample.liveDb rfl [.recovery Sample.prepareTransfer]
    Sample.startIntended hkey hreference (Table.find?_eq_none.mpr fun o ho => ?_)
  rw [Table.mem_def, hoperations] at ho
  cases ho

end LedgerSync
