import LedgerSync.ReconciliationCommands

/-!
# Reconciliation commands run once

What is stored for the commands of a tenant, over every interleaving of sessions: the marker belongs
to the only key that is in progress, an outcome that is stored stays, and a run was written by a
command that is stored as completed with it. Each commit keeps this by what it checks itself. Only
two facts are needed of the session that commits: a marker that was read once belongs to a key whose
row exists, and an execution has seen its own marker in its snapshot.
-/

namespace LedgerSync

open Lib

variable {R : Type} {t t' : RunTables R} {w w' : RunWorld R}

/-! ## What the tables say -/

/-- The marker is that of the only row in progress, and every run of a command is its outcome. -/
structure RunTables.Sound (t : RunTables R) : Prop where
  marked : ∀ row ∈ t.requests, row.outcome = none → ∃ m, t.marker = some m ∧ m.key = row.key
  pending : ∀ m, t.marker = some m →
    ∃ row, t.requests.find? m.key = some row ∧ row.outcome = none
  produced : ∀ x ∈ t.runs, ∀ k, x.command = some k →
    ∃ row, t.requests.find? k = some row ∧ row.outcome = some (.completed x.id x.result)

/-- Every row stays, and those with an outcome stay as they are. -/
def RunTables.Kept (t t' : RunTables R) : Prop :=
  ∀ k row, t.requests.find? k = some row →
    ∃ row', t'.requests.find? k = some row' ∧ (row.outcome ≠ none → row' = row)

/-- Everything is kept when nothing happens. -/
theorem RunTables.Kept.refl (t : RunTables R) : t.Kept t := fun _ row h => ⟨row, h, fun _ => rfl⟩

/-- The runs of commands are still their outcomes. -/
theorem RunTables.Kept.produced (h : t.Kept t') (ht : t.Sound) {x : RunRow R} (hx : x ∈ t.runs)
    {k : RunKey} (hk : x.command = some k) :
    ∃ row, t'.requests.find? k = some row ∧ row.outcome = some (.completed x.id x.result) := by
  obtain ⟨row, hrow, houtcome⟩ := ht.produced x hx k hk
  obtain ⟨row', hrow', hsame⟩ := h k row hrow
  have hne : row.outcome ≠ none := by
    rw [houtcome]
    exact Option.some_ne_none _
  rw [hsame hne] at hrow'
  exact ⟨row, hrow', houtcome⟩

/-- A row in progress belongs to the marker. -/
theorem RunTables.Sound.key_of_inProgress (ht : t.Sound) {m : RunMarker} (hm : t.marker = some m)
    {row : RunRequest R} (hrow : row ∈ t.requests) (hnone : row.outcome = none) :
    row.key = m.key := by
  obtain ⟨m', hm', hkey⟩ := ht.marked row hrow hnone
  rw [hm] at hm'
  rw [Option.some.inj hm', hkey]

/-! ## What a commit does -/

/-- An update of a request finds it and replaces its answer. -/
theorem updateReconciliationIdempotency_eq_some
    {requests requests' : Table (RunRequest.key (R := R))} {k : RunKey} {o : RunOutcome R} :
    updateReconciliationIdempotency requests k o = some requests' ↔
      ∃ row, requests.find? k = some row ∧ row.outcome = none ∧
        requests' = requests.replace { row with outcome := some o } := by
  unfold updateReconciliationIdempotency
  rw [Option.map_eq_some_iff]
  constructor
  · rintro ⟨row, hrow, rfl⟩
    obtain ⟨hfound, hnone⟩ := Option.filter_eq_some_iff.mp hrow
    exact ⟨row, hfound, of_decide_eq_true hnone, rfl⟩
  · rintro ⟨row, hfound, hnone, rfl⟩
    exact ⟨row, Option.filter_eq_some_iff.mpr ⟨hfound, decide_eq_true hnone⟩, rfl⟩

/-- A row that is reserved and then finished. -/
theorem find?_store {requests requests' : Table (RunRequest.key (R := R))} {k : RunKey}
    {o : RunOutcome R} (h : updateReconciliationIdempotency requests k o = some requests')
    (j : RunKey) : requests'.find? j =
      if j = k then (requests.find? k).map fun row => { row with outcome := some o }
      else requests.find? j := by
  obtain ⟨row, hrow, -, rfl⟩ := updateReconciliationIdempotency_eq_some.mp h
  have hkey : row.key = k := Table.key_of_find? hrow
  by_cases hj : j = k
  · rw [if_pos hj, hrow, hj]
    exact Table.find?_replace_self hrow hkey
  · rw [if_neg hj]
    exact Table.find?_replace_ne (by rw [hkey]; exact hj)

/-- Committing a request keeps the tables sound. -/
theorem commitRequest_sound {c : RunCommand} {f : Bytes} {runId : Uuid}
    (h : commitRequest t c f runId = some t') (ht : t.Sound) : t'.Sound ∧ t.Kept t' := by
  obtain ⟨requests, hinsert, hrest⟩ := Option.bind_eq_some_iff.mp h
  split_ifs at hrest with hmarker
  obtain rfl := Option.some.inj hrest
  have hkept : t.Kept { t with requests := requests, marker := some (c.marker runId) } :=
    fun k row hrow => ⟨row, Table.find?_insert?_of_some hinsert hrow, fun _ => rfl⟩
  refine ⟨⟨?_, ?_, fun x hx k hk => hkept.produced ht hx hk⟩, hkept⟩
  · intro row hrow hnone
    rcases (Table.mem_insert? hinsert).mp hrow with rfl | hold
    · exact ⟨_, rfl, rfl⟩
    · obtain ⟨m, hm, -⟩ := ht.marked row hold hnone
      rw [hmarker] at hm
      cases hm
  · intro m hm
    obtain rfl := Option.some.inj hm
    exact ⟨c.request f, Table.find?_insert?_self hinsert rfl, rfl⟩

/-- Committing a denial keeps the tables sound. -/
theorem commitDenial_sound {c : RunCommand} {f : Bytes} {active : Uuid}
    (h : commitDenial t c f active = some t') (ht : t.Sound) : t'.Sound ∧ t.Kept t' := by
  obtain ⟨requests, hinsert, hrest⟩ := Option.bind_eq_some_iff.mp h
  obtain ⟨requests', hstore, hlast⟩ := Option.bind_eq_some_iff.mp hrest
  obtain rfl := Option.some.inj hlast
  have hfree : t.requests.find? c.key = none := (Table.insert?_eq_some.mp hinsert).1
  have hnew : requests.find? c.key = some (c.request f) := Table.find?_insert?_self hinsert rfl
  -- Only the row of the key is new.
  have hfind : ∀ j, j ≠ c.key → requests'.find? j = t.requests.find? j := by
    intro j hj
    rw [find?_store hstore, if_neg hj, Table.find?_insert?_ne hinsert hj]
  have hown : requests'.find? c.key =
      some ⟨c.key, f, some (.failed .alreadyRunning active)⟩ := by
    rw [find?_store hstore, if_pos rfl, hnew]
    rfl
  have hkept : t.Kept { t with requests := requests' } := by
    intro k row hrow
    have hk : k ≠ c.key := by
      rintro rfl
      rw [hfree] at hrow
      cases hrow
    exact ⟨row, by rw [hfind k hk, hrow], fun _ => rfl⟩
  refine ⟨⟨?_, ?_, fun x hx k hk => hkept.produced ht hx hk⟩, hkept⟩
  · intro row hrow hnone
    have hfound : requests'.find? row.key = some row := Table.find?_eq_some.mpr ⟨hrow, rfl⟩
    by_cases hk : row.key = c.key
    · rw [hk, hown] at hfound
      rw [← Option.some.inj hfound] at hnone
      cases hnone
    · rw [hfind _ hk] at hfound
      exact ht.marked row (Table.mem_of_find? hfound) hnone
  · intro m hm
    obtain ⟨row, hrow, hnone⟩ := ht.pending m hm
    have hk : m.key ≠ c.key := by
      intro hk
      rw [hk, hfree] at hrow
      cases hrow
    exact ⟨row, by rw [hfind _ hk, hrow], hnone⟩

/-- A takeover needs the row of the stale command, which is then not that of the new one. -/
theorem commitTakeover_sound {c : RunCommand} {f : Bytes} {runId : Uuid} {stale : RunMarker}
    (h : commitTakeover t c f runId stale = some t') (ht : t.Sound)
    (hstale : t.requests.find? stale.key ≠ none) : t'.Sound ∧ t.Kept t' := by
  obtain ⟨requests, hinsert, hrest⟩ := Option.bind_eq_some_iff.mp h
  obtain ⟨requests', hstore, hlast⟩ := Option.bind_eq_some_iff.mp hrest
  split_ifs at hlast with hcheck
  obtain rfl := Option.some.inj hlast
  -- The key of the new command was free, and the stale one is another key.
  have hfree : t.requests.find? c.key = none := (Table.insert?_eq_some.mp hinsert).1
  have hnew : requests.find? c.key = some (c.request f) := Table.find?_insert?_self hinsert rfl
  have hne : stale.key ≠ c.key := by
    intro hkey
    rw [hkey] at hstale
    exact hstale hfree
  obtain ⟨old, hold, hpending, -⟩ := updateReconciliationIdempotency_eq_some.mp hstore
  rw [Table.find?_insert?_ne hinsert hne] at hold
  have hown : requests'.find? c.key = some (c.request f) := by
    rw [find?_store hstore, if_neg hne.symm, hnew]
  have hfind : ∀ j, j ≠ c.key → j ≠ stale.key → requests'.find? j = t.requests.find? j := by
    intro j hj hjs
    rw [find?_store hstore, if_neg hjs, Table.find?_insert?_ne hinsert hj]
  have hfailed : requests'.find? stale.key =
      some { old with outcome := some (.failed .responseUnknown stale.runId) } := by
    rw [find?_store hstore, if_pos rfl, Table.find?_insert?_ne hinsert hne, hold]
    rfl
  -- Every finished row stays; the stale one was not finished.
  have hkept : t.Kept { t with requests := requests', marker := some (c.marker runId) } := by
    intro k row hrow
    have hk : k ≠ c.key := by
      rintro rfl
      rw [hfree] at hrow
      cases hrow
    by_cases hks : k = stale.key
    · subst hks
      rw [hold] at hrow
      obtain rfl := Option.some.inj hrow
      exact ⟨_, hfailed, fun hdone => absurd hpending hdone⟩
    · exact ⟨row, by rw [hfind k hk hks, hrow], fun _ => rfl⟩
  refine ⟨⟨?_, ?_, fun x hx k hk => hkept.produced ht hx hk⟩, hkept⟩
  · -- The stale row was the only one in progress.
    intro row hrow hnone
    refine ⟨c.marker runId, rfl, ?_⟩
    have hfound : requests'.find? row.key = some row := Table.find?_eq_some.mpr ⟨hrow, rfl⟩
    by_contra hk
    by_cases hks : row.key = stale.key
    · rw [hks, hfailed] at hfound
      rw [← Option.some.inj hfound] at hnone
      cases hnone
    · rw [hfind _ (Ne.symm hk) hks] at hfound
      obtain ⟨m, hm, hmkey⟩ := ht.marked old (Table.mem_of_find? hold) hpending
      have hsame := ht.key_of_inProgress hm (Table.mem_of_find? hfound) hnone
      rw [hsame, hmkey, Table.key_of_find? hold] at hks
      exact hks rfl
  -- The new marker belongs to the new command.
  · intro m hm
    obtain rfl := Option.some.inj hm
    exact ⟨c.request f, hown, rfl⟩

/-- An execution that has seen its marker deletes it with the only row in progress. -/
theorem commitRun_sound [DecidableEq R] {snapshot : RunTables R} {c : RunCommand} {runId : Uuid}
    {result : R}
    (h : commitRun t snapshot c runId result = some t') (ht : t.Sound)
    (howns : snapshot.Owns c runId) : t'.Sound ∧ t.Kept t' := by
  obtain ⟨runs, hinsert, hrest⟩ := Option.bind_eq_some_iff.mp h
  obtain ⟨requests, hstore, hlast⟩ := Option.bind_eq_some_iff.mp hrest
  split_ifs at hlast with hsame
  obtain rfl := Option.some.inj hlast
  obtain ⟨m, hm, hrun, hkey⟩ := howns
  rw [← hsame.2] at hm
  have hnone : (t.marker.filter fun x => x.runId ≠ runId) = none := by
    rw [hm, Option.filter_some, if_neg (by simp [hrun])]
  obtain ⟨old, hold, hpending, -⟩ := updateReconciliationIdempotency_eq_some.mp hstore
  have hfind : ∀ j, j ≠ c.key → requests.find? j = t.requests.find? j := by
    intro j hj
    rw [find?_store hstore, if_neg hj]
  have hdone : requests.find? c.key =
      some { old with outcome := some (.completed runId result) } := by
    rw [find?_store hstore, if_pos rfl, hold]
    rfl
  -- Only the row of this command has changed, and it was not finished.
  have hkept : t.Kept ⟨requests, t.marker.filter fun x => x.runId ≠ runId, runs⟩ := by
    intro k row hrow
    by_cases hk : k = c.key
    · subst hk
      rw [hold] at hrow
      obtain rfl := Option.some.inj hrow
      exact ⟨_, hdone, fun hne => absurd hpending hne⟩
    · exact ⟨row, by rw [hfind k hk, hrow], fun _ => rfl⟩
  refine ⟨⟨?_, ?_, ?_⟩, hkept⟩
  -- The row completed here is no longer in progress, and no other one was.
  · intro row hrow hopen
    have hfound : requests.find? row.key = some row := Table.find?_eq_some.mpr ⟨hrow, rfl⟩
    by_cases hk : row.key = c.key
    · rw [hk, hdone] at hfound
      rw [← Option.some.inj hfound] at hopen
      cases hopen
    · rw [hfind _ hk] at hfound
      have hone := ht.key_of_inProgress hm (Table.mem_of_find? hfound) hopen
      exact absurd (hone.trans hkey) hk
  · intro m' hm'
    rw [hnone] at hm'
    cases hm'
  -- The new run is the one that its row names.
  · intro x hx k hk
    rcases (Table.mem_insert? hinsert).mp hx with rfl | hx
    · obtain rfl : c.key = k := Option.some.inj hk
      exact ⟨_, hdone, rfl⟩
    · exact hkept.produced ht hx hk

/-- Committing the result of a run keeps the tables sound. -/
theorem commitScheduledRun_sound {runId : Uuid} {result : R}
    (h : commitScheduledRun t runId result = some t') (ht : t.Sound) :
    t'.Sound ∧ t.Kept t' := by
  obtain ⟨runs, hinsert, hrest⟩ := Option.bind_eq_some_iff.mp h
  obtain rfl := Option.some.inj hrest
  refine ⟨⟨ht.marked, ht.pending, ?_⟩, .refl t⟩
  intro x hx k hk
  rcases (Table.mem_insert? hinsert).mp hx with rfl | hx
  · cases hk
  · exact ht.produced x hx k hk

/-! ## What a step does -/

/-- What is known of the tables in a phase. -/
def RunPhase.Knows (t : RunTables R) : RunPhase R → Prop
  | observed _ _ _ m | takingOver _ _ _ m => t.requests.find? m.key ≠ none
  | executing c runId snapshot => snapshot.Owns c runId
  | _ => True

/-- It stays known. -/
theorem RunTables.Kept.knows (h : t.Kept t') {p : RunPhase R} (hp : p.Knows t) : p.Knows t' := by
  have hrow : ∀ k, t.requests.find? k ≠ none → t'.requests.find? k ≠ none := by
    intro k hk
    obtain ⟨row, hrow⟩ := Option.ne_none_iff_exists'.mp hk
    obtain ⟨row', hrow', -⟩ := h k row hrow
    rw [hrow']
    exact Option.some_ne_none _
  cases p with
  | observed c f runId m => exact hrow m.key hp
  | takingOver c f runId m => exact hrow m.key hp
  | executing c runId snapshot => exact hp
  | _ => trivial

/-- A move is sound: its commit keeps what the tables say, its phase knows what it has to know, and
the lock is taken where it is free. -/
def RunMove.Sound (w : RunWorld R) : RunMove R → Prop
  | .stay p => p.Knows w.tables ∧ ¬p.HoldsLock
  | .acquire p => p.Knows w.tables ∧ w.lock = none
  | .commit t p => (t.Sound ∧ w.tables.Kept t) ∧ p.Knows t ∧ ¬p.HoldsLock
  | .finish t _ => t.Sound ∧ w.tables.Kept t
  | .abort _ => True

/-- A move to what was committed is sound when the commit is. -/
theorem RunMove.ofCommit_sound {o : Option (RunTables R)} {f : RunTables R → RunMove R}
    (h : ∀ t, o = some t → (f t).Sound w) : (RunMove.ofCommit o f).Sound w := by
  cases o with
  | none => trivial
  | some t => exact h t rfl

/-- Every step of a command is a sound move. -/
theorem RunWorld.step_sound [DecidableEq R] {p : RunPhase R} {a : RunAction R}
    {move : RunMove R} (h : w.step p a = some move) (hw : w.tables.Sound) (hp : p.Knows w.tables) :
    move.Sound w := by
  unfold RunWorld.step at h
  split at h
  -- A crash.
  · obtain rfl := Option.some.inj h
    trivial
  -- The marker is inserted, or there is one.
  · split_ifs at h
    · obtain rfl := Option.some.inj h
      exact ⟨trivial, id⟩
    · obtain rfl := Option.some.inj h
      exact ⟨trivial, id⟩
  · obtain rfl := Option.some.inj h
    exact RunMove.ofCommit_sound fun t ht => ⟨commitRequest_sound ht hw, trivial, id⟩
  -- The marker that is read belongs to a row.
  · split at h
    · obtain rfl := Option.some.inj h
      trivial
    · rename_i m hm
      obtain rfl := Option.some.inj h
      obtain ⟨row, hrow, -⟩ := hw.pending m hm
      exact ⟨by rw [RunPhase.Knows, hrow]; exact Option.some_ne_none _, id⟩
  · split_ifs at h with hfree
    · obtain rfl := Option.some.inj h
      exact ⟨hp, hfree.2⟩
    · obtain rfl := Option.some.inj h
      exact ⟨trivial, id⟩
  · obtain rfl := Option.some.inj h
    exact RunMove.ofCommit_sound fun t ht => ⟨commitTakeover_sound ht hw hp, trivial, id⟩
  · obtain rfl := Option.some.inj h
    exact RunMove.ofCommit_sound fun t ht => commitDenial_sound ht hw
  -- The call goes on with the run of the marker.
  · split at h
    · obtain rfl := Option.some.inj h
      trivial
    · obtain rfl := Option.some.inj h
      exact ⟨trivial, id⟩
  · obtain rfl := Option.some.inj h
    exact ⟨trivial, id⟩
  · split_ifs at h with hfree
    · obtain rfl := Option.some.inj h
      exact ⟨hfree.2, hfree.1⟩
    · obtain rfl := Option.some.inj h
      trivial
  · obtain rfl := Option.some.inj h
    refine RunMove.ofCommit_sound fun t ht => ?_
    obtain ⟨r, -, hrun⟩ := Option.bind_eq_some_iff.mp ht
    exact commitRun_sound hrun hw hp
  · obtain rfl := Option.some.inj h
    refine RunMove.ofCommit_sound fun t ht => ?_
    obtain ⟨r, -, hrun⟩ := Option.bind_eq_some_iff.mp ht
    exact commitScheduledRun_sound hrun hw
  · cases h

/-! ## Sessions -/

/-- What holds of the world. -/
structure RunWorld.Sound (w : RunWorld R) : Prop where
  tables : w.tables.Sound
  knows : ∀ s ∈ w.sessions, s.phase.Knows w.tables
  lock : ∀ s ∈ w.sessions, s.phase.HoldsLock → w.lock = some s.id

/-- A session of the world after another one went on. -/
theorem mem_enter {i : ℕ} {p : RunPhase R} {s : RunSession R} (h : s ∈ (w.enter i p).sessions) :
    s = ⟨i, p⟩ ∨ s ∈ w.sessions ∧ s.id ≠ i := Table.mem_replace h

/-- The sessions after one has left are the others. -/
theorem mem_leave {i : ℕ} {s : RunSession R} (h : s ∈ (w.leave i).sessions) :
    s ∈ w.sessions ∧ s.id ≠ i := by
  obtain ⟨hmem, hne⟩ := Table.mem_delete.mp h
  exact ⟨hmem, by simpa using hne⟩

/-- The lock of another session is not released. -/
theorem released_of_ne {i j : ℕ} (h : w.lock = some j) (hne : j ≠ i) : w.released i = some j := by
  unfold RunWorld.released
  rw [h, Option.filter_some, if_pos (decide_eq_true hne)]

/-- A sound move keeps the world sound. -/
theorem RunWorld.apply_sound {i : ℕ} {move : RunMove R} (hw : w.Sound) (hmove : move.Sound w) :
    (w.apply i move).Sound ∧ w.tables.Kept (w.apply i move).tables := by
  -- The moves differ in what they do to the lock and to the tables.
  cases move with
  | stay p =>
    refine ⟨⟨hw.tables, fun s hs => ?_, fun s hs hlock => ?_⟩, .refl _⟩
    · rcases mem_enter hs with rfl | ⟨hold, -⟩
      · exact hmove.1
      · exact hw.knows s hold
    · rcases mem_enter hs with rfl | ⟨hold, -⟩
      · exact absurd hlock hmove.2
      · exact hw.lock s hold hlock
  | acquire p =>
    refine ⟨⟨hw.tables, fun s hs => ?_, fun s hs hlock => ?_⟩, .refl _⟩
    · rcases mem_enter hs with rfl | ⟨hold, -⟩
      · exact hmove.1
      · exact hw.knows s hold
    · rcases mem_enter hs with rfl | ⟨hold, -⟩
      · rfl
      · -- No other session holds a lock that was free.
        have hheld := hw.lock s hold hlock
        rw [hmove.2] at hheld
        cases hheld
  -- A commit gives the lock back, so that no other session can hold it.
  | commit t p =>
    obtain ⟨⟨ht, hkept⟩, hknows, hfree⟩ := hmove
    refine ⟨⟨ht, fun s hs => ?_, fun s hs hlock => ?_⟩, hkept⟩
    · rcases mem_enter hs with rfl | ⟨hold, -⟩
      · exact hknows
      · exact hkept.knows (hw.knows s hold)
    · rcases mem_enter hs with rfl | ⟨hold, hne⟩
      · exact absurd hlock hfree
      · exact released_of_ne (hw.lock s hold hlock) hne
  | finish t a =>
    obtain ⟨ht, hkept⟩ := hmove
    refine ⟨⟨ht, fun s hs => ?_, fun s hs hlock => ?_⟩, hkept⟩
    · exact hkept.knows (hw.knows s (mem_leave hs).1)
    · obtain ⟨hold, hne⟩ := mem_leave hs
      exact released_of_ne (hw.lock s hold hlock) hne
  | abort a =>
    refine ⟨⟨hw.tables, fun s hs => hw.knows s (mem_leave hs).1, fun s hs hlock => ?_⟩, .refl _⟩
    obtain ⟨hold, hne⟩ := mem_leave hs
    exact released_of_ne (hw.lock s hold hlock) hne

/-- A new session that knows what it has to know. -/
theorem openSession_sound {i : ℕ} {p : RunPhase R} {lock : Option ℕ} {a : Option (RunAnswer R)}
    (h : openSession i p lock w = .ok (a, w')) (hw : w.Sound) (hp : p.Knows w.tables)
    (hlock : p.HoldsLock → lock = some i) (hsame : lock = w.lock ∨ w.lock = none) :
    w'.Sound ∧ w.tables.Kept w'.tables := by
  simp only [openSession, Txn.get_bind_ok, Txn.orRaise_bind_ok, Txn.set_bind_ok, Txn.pure_ok] at h
  obtain ⟨sessions, hinsert, -, rfl⟩ := h
  refine ⟨⟨hw.tables, fun s hs => ?_, fun s hs hheld => ?_⟩, .refl _⟩
  · rcases (Table.mem_insert? hinsert).mp hs with rfl | hold
    · exact hp
    · exact hw.knows s hold
  · rcases (Table.mem_insert? hinsert).mp hs with rfl | hold
    · exact hlock hheld
    · have hbefore := hw.lock s hold hheld
      rcases hsame with rfl | hfree
      · exact hbefore
      · rw [hfree] at hbefore
        cases hbefore

/-- Every event keeps the world sound. -/
theorem RunEvent.exec_sound [DecidableEq R] {e : RunEvent R} {a : Option (RunAnswer R)}
    (h : e.exec w = .ok (a, w')) (hw : w.Sound) : w'.Sound ∧ w.tables.Kept w'.tables := by
  cases e with
  | submit i c f =>
    simp only [RunEvent.exec, submitCommand, Txn.get_bind_ok, Txn.raiseIf_bind_ok] at h
    obtain ⟨-, hsubmit⟩ := h
    rcases hreserve : reserveReconciliationCommand w.tables c f with answer | p
    · rw [hreserve] at hsubmit
      obtain ⟨-, rfl⟩ := Txn.pure_ok.mp hsubmit
      exact ⟨hw, .refl _⟩
    · rw [hreserve] at hsubmit
      -- A new call has read nothing that it relies on, and holds no lock.
      have hp : p = .reserved c f ∨ p = .resuming c := by
        unfold reserveReconciliationCommand at hreserve
        split at hreserve
        · exact .inl (Except.ok.inj hreserve).symm
        · split at hreserve
          · cases hreserve
          · exact .inr (Except.ok.inj hreserve).symm
      refine openSession_sound hsubmit hw ?_ ?_ (.inl rfl)
      · rcases hp with rfl | rfl <;> trivial
      · rcases hp with rfl | rfl <;> exact False.elim
  | schedule i =>
    simp only [RunEvent.exec, reconcile, Txn.get_bind_ok, Txn.raiseIf_bind_ok, not_not] at h
    obtain ⟨hfree, hopen⟩ := h
    exact openSession_sound hopen hw trivial (fun _ => rfl) (.inr hfree)
  | advance i action =>
    simp only [RunEvent.exec, advanceSession, Txn.get_bind_ok, Txn.orRaise_bind_ok,
      Txn.set_bind_ok, Txn.pure_ok] at h
    obtain ⟨s, hs, move, hmove, -, rfl⟩ := h
    have hknows := hw.knows s (Table.mem_of_find? hs)
    exact RunWorld.apply_sound hw (RunWorld.step_sound hmove hw.tables hknows)

/-! ## Histories -/

/-- The first world is sound. -/
theorem RunWorld.start_sound : (RunWorld.start : RunWorld R).Sound where
  tables := ⟨fun _ h => (nomatch h), fun _ h => (nomatch h), fun _ h => (nomatch h)⟩
  knows := fun _ h => (nomatch h)
  lock := fun _ h => (nomatch h)

/-- Every interleaving of the commands leaves a sound world. -/
theorem run_commands_sound [DecidableEq R] (es : List (RunEvent R)) :
    (run RunEvent.exec es .start).Sound :=
  run_invariant (fun _ _ _ _ h hw => (RunEvent.exec_sound h hw).1) es RunWorld.start_sound

/-- A stored outcome stays. -/
theorem outcome_stays [DecidableEq R] {es : List (RunEvent R)} {row : RunRequest R} {o : RunOutcome R}
    (hw : w.Sound) (hrow : row ∈ w.tables.requests) (ho : row.outcome = some o) :
    row ∈ (run RunEvent.exec es w).tables.requests := by
  have hkept : (run RunEvent.exec es w).Sound ∧
      row ∈ (run RunEvent.exec es w).tables.requests := by
    refine run_invariant (I := fun w : RunWorld R => w.Sound ∧ row ∈ w.tables.requests) ?_ es
      ⟨hw, hrow⟩
    rintro e w a w' h ⟨hw, hrow⟩
    obtain ⟨hw', hkept⟩ := RunEvent.exec_sound h hw
    obtain ⟨row', hrow', hsame⟩ := hkept row.key row (Table.find?_eq_some.mpr ⟨hrow, rfl⟩)
    have hne : row.outcome ≠ none := by
      rw [ho]
      exact Option.some_ne_none _
    rw [hsame hne] at hrow'
    exact ⟨hw', Table.mem_of_find? hrow'⟩
  exact hkept.2

/-- A session that executes holds the lock. -/
theorem RunPhase.Executes.holdsLock {p : RunPhase R} (h : p.Executes) : p.HoldsLock := by
  cases p with
  | executing c runId snapshot => trivial
  | reconciling => trivial
  | _ => exact h.elim

/-- Over every interleaving of the calls for one tenant, with crashes at any step:
* there is a marker exactly when exactly one row is in progress, and then the row has the key of the
  marker; without a marker no row is in progress;
* a stored outcome is never changed, and a key has one row;
* a key produces at most one run, and its stored outcome is the result of that run;
* a command that is stored as failed has produced no run, and produces none later;
* at most one session executes at a time. -/
theorem reconciliation_commands_run_once [DecidableEq R] (es : List (RunEvent R)) :
    ((run RunEvent.exec es .start).tables.marker ≠ none ↔
      ∃! row, row ∈ (run RunEvent.exec es .start).tables.requests ∧ row.outcome = none) ∧
    (∀ row ∈ (run RunEvent.exec es .start).tables.requests, row.outcome = none →
      ∃ m, (run RunEvent.exec es .start).tables.marker = some m ∧ m.key = row.key) ∧
    (∀ (es' : List (RunEvent R)), ∀ row ∈ (run RunEvent.exec es .start).tables.requests,
      row.outcome ≠ none →
        ∀ row' ∈ (run RunEvent.exec (es ++ es') .start).tables.requests,
          row'.key = row.key → row' = row) ∧
    (∀ x ∈ (run RunEvent.exec es .start).tables.runs, ∀ k, x.command = some k →
      (∃ row ∈ (run RunEvent.exec es .start).tables.requests, row.key = k ∧
        row.outcome = some (.completed x.id x.result)) ∧
      ∀ y ∈ (run RunEvent.exec es .start).tables.runs, y.command = some k → y = x) ∧
    (∀ (es' : List (RunEvent R)), ∀ row ∈ (run RunEvent.exec es .start).tables.requests,
      ∀ code active, row.outcome = some (.failed code active) →
        ∀ x ∈ (run RunEvent.exec (es ++ es') .start).tables.runs, x.command ≠ some row.key) ∧
    ∀ s ∈ (run RunEvent.exec es .start).sessions, ∀ s' ∈ (run RunEvent.exec es .start).sessions,
      s.phase.Executes → s'.phase.Executes → s = s' := by
  have hw := run_commands_sound es
  -- A finished row never changes any more.
  have hstays : ∀ (es' : List (RunEvent R)),
      ∀ row ∈ (run RunEvent.exec es .start).tables.requests, row.outcome ≠ none →
        row ∈ (run RunEvent.exec (es ++ es') .start).tables.requests := by
    intro es' row hrow hdone
    obtain ⟨o, ho⟩ := Option.ne_none_iff_exists'.mp hdone
    rw [run_append]
    exact outcome_stays hw hrow ho
  refine ⟨⟨?_, ?_⟩, hw.tables.marked, ?_, ?_, ?_, ?_⟩
  -- The marker names one row in progress, and there is no second one.
  · intro hne
    obtain ⟨m, hm⟩ := Option.ne_none_iff_exists'.mp hne
    obtain ⟨row, hrow, hnone⟩ := hw.tables.pending m hm
    refine ⟨row, ⟨Table.mem_of_find? hrow, hnone⟩, ?_⟩
    rintro row' ⟨hmem, hnone'⟩
    refine Table.eq_of_key hmem (Table.mem_of_find? hrow) ?_
    rw [hw.tables.key_of_inProgress hm hmem hnone', Table.key_of_find? hrow]
  · rintro ⟨row, ⟨hrow, hnone⟩, -⟩
    obtain ⟨m, hm, -⟩ := hw.tables.marked row hrow hnone
    rw [hm]
    exact Option.some_ne_none _
  · intro es' row hrow hdone row' hrow' hkey
    exact Table.eq_of_key hrow' (hstays es' row hrow hdone) hkey
  -- Two runs of one command have the same id, as the row holds one id.
  · intro x hx k hk
    obtain ⟨row, hrow, houtcome⟩ := hw.tables.produced x hx k hk
    refine ⟨⟨row, Table.mem_of_find? hrow, Table.key_of_find? hrow, houtcome⟩, ?_⟩
    intro y hy hyk
    obtain ⟨row', hrow', houtcome'⟩ := hw.tables.produced y hy k hyk
    rw [hrow] at hrow'
    rw [← Option.some.inj hrow', houtcome] at houtcome'
    have hid := (RunOutcome.completed.inj (Option.some.inj houtcome')).1
    exact Table.eq_of_key hy hx hid.symm
  -- A failed row stays failed, and a run would have completed it.
  · intro es' row hrow code active hfailed x hx hcommand
    have hne : row.outcome ≠ none := by
      rw [hfailed]
      exact Option.some_ne_none _
    obtain ⟨row', hrow', hcompleted⟩ :=
      (run_commands_sound (es ++ es')).tables.produced x hx row.key hcommand
    have hsame : row' = row :=
      Table.eq_of_key (Table.mem_of_find? hrow') (hstays es' row hrow hne)
        (Table.key_of_find? hrow')
    rw [hsame, hfailed] at hcompleted
    cases hcompleted
  -- The lock has one holder.
  · intro s hs s' hs' hexecutes hexecutes'
    have hheld := hw.lock s hs hexecutes.holdsLock
    rw [hw.lock s' hs' hexecutes'.holdsLock] at hheld
    exact Table.eq_of_key hs hs' (Option.some.inj hheld).symm

/-- A command of one actor under a key. -/
def Sample.runCommand (key : String) : RunCommand :=
  ⟨⟨"operator-a", key⟩, Sample.uuid 7, 0⟩

/-- A request whose session ends before its run, and a command that takes over after the lease. -/
def Sample.takeover : List (RunEvent Unit) :=
  [.submit 0 (Sample.runCommand "first") [], .advance 0 (.mark (Sample.uuid 1)), .advance 0 .proceed,
    .advance 0 .crash, .submit 1 (Sample.runCommand "second") [],
    .advance 1 (.mark (Sample.uuid 2)), .advance 1 .proceed, .advance 1 (.decide runLease),
    .advance 1 .proceed, .advance 1 .proceed, .advance 1 .proceed,
    .advance 1 (.reconciled (some ()))]

example : (run RunEvent.exec Sample.takeover .start).tables.requests.rows.map RunRequest.outcome =
    [some (.completed ⟨2, by decide⟩ ()), some (.failed .responseUnknown ⟨1, by decide⟩)] := by
  decide +kernel

end LedgerSync
