import LedgerSync.BalanceProjection
import LedgerSync.ConsistencyTokens

/-!
# Reads after writes

The answer to a transfer carries a requirement for each balance that it moved, and a reader who
shows one is promised a balance at least as new. The reader goes to the primary, so the promise
rests on balances whose versions never go back: whatever else was committed before the answer was
written and after it, and whatever the cache holds, the read gives the balance of the ledger, and it
is no older than the requirement (`read_your_writes`). Whether a requirement can be met is told only
to those who may read the account.
-/

namespace LedgerSync

open Lib

/-! ## Versions never go back -/

/-- Rewritten balances are still there, and no older. -/
def VersionsGrow (t t' : Table Balance.accountId) : Prop :=
  ∀ x b, t.find? x = some b → ∃ b', t'.find? x = some b' ∧ (b.version : ℤ) ≤ b'.version

/-- The versions grow when nothing happens. -/
theorem VersionsGrow.refl (t : Table Balance.accountId) : VersionsGrow t t :=
  fun _ b hb => ⟨b, hb, le_rfl⟩

/-- Growing versions compose. -/
theorem VersionsGrow.trans {t t₁ t' : Table Balance.accountId} (h : VersionsGrow t t₁)
    (h' : VersionsGrow t₁ t') : VersionsGrow t t' := by
  intro x b hb
  obtain ⟨b₁, hb₁, hle₁⟩ := h x b hb
  obtain ⟨b', hb', hle⟩ := h' x b₁ hb₁
  exact ⟨b', hb', hle₁.trans hle⟩

/-- A balance that is written with a later version grows. -/
theorem Balance.Written.versionsGrow {t : Table Balance.accountId} {account : Uuid} {b b' : Balance}
    {available ledger version : ℤ} {now : Instant} (hb : t.find? account = some b)
    (hw : b.Written b' available ledger version now) (hle : (b.version : ℤ) ≤ version) :
    VersionsGrow t (t.replace b') := by
  intro x c hc
  by_cases hx : x = account
  · subst hx
    obtain rfl := Option.some.inj (hb.symm.trans hc)
    exact ⟨b', hw.find?_replace hb, hle.trans_eq hw.version.symm⟩
  · exact ⟨c, by rw [hw.find?_replace_ne hb hx, hc], le_rfl⟩

/-- A move between two balances lets the versions grow. -/
theorem Balance.Move.versionsGrow {t t' : Table Balance.accountId}
    {debitAccount creditAccount : Uuid} {amount : ℤ} {now : Instant}
    {source source' destination destination' : Balance}
    (h : Balance.Move t t' debitAccount creditAccount amount now source source' destination
      destination') : VersionsGrow t t' := by
  rw [h.result]
  exact (h.source_written.versionsGrow h.source_find (by omega)).trans
    (h.destination_written.versionsGrow h.destination_find (by omega))

/-- A move of what is available lets the versions grow. -/
theorem AvailableMoved.versionsGrow {account : Uuid} {delta : ℤ} {now : Instant}
    {t t' : Table Balance.accountId} {b b' : Balance}
    (h : AvailableMoved account delta now t t' b b') : VersionsGrow t t' := by
  rw [h.result]
  exact h.written.versionsGrow h.find (by omega)

section Growth

variable {d : Digest} {s s' : Db}

/-- A returning call lets the versions grow. -/
theorem Change.versionsGrow (h : Change d s s') : VersionsGrow s.balances s'.balances := by
  have hsame : s'.balances = s.balances → VersionsGrow s.balances s'.balances := fun heq => by
    rw [heq]
    exact .refl _
  -- Every change writes the balances through a move, an import or a new account.
  cases h with
  | quiet frame => exact hsame (by rw [frame])
  | status => exact hsame rfl
  | claimed _ frame => exact hsame (by rw [frame])
  | cleared h frame =>
    have heq : s'.balances = _ := congrArg Db.balances frame
    rw [heq]
    exact fun x b hb => ⟨b, Table.find?_insert?_of_some h.balances hb, le_rfl⟩
  | rejected h => exact hsame (by rw [h.frame]; rfl)
  | posted h => exact h.move.versionsGrow
  | corrected h => exact h.move.versionsGrow
  | funded h => exact h.move.versionsGrow
  | reserved h => exact h.moved.versionsGrow
  | returned _ h => exact h.moved.versionsGrow
  | captured h =>
    -- The hold is freed first, and then its transfer is posted.
    have heq : s'.balances = h.mid.balances := (congrArg Db.balances h.frame :)
    rw [heq]
    exact (h.freed_written.versionsGrow h.balance_find le_rfl).trans h.posted.move.versionsGrow
  | imported h =>
    intro x b hb
    -- An account of the import gets its new version, and the others stay.
    rcases hrow : rowFor (s.manifest _) x with _ | r
    · exact ⟨b, by rw [h.find?_balances_of_not_mem (rowFor_eq_none.mp hrow), hb], le_rfl⟩
    · obtain ⟨hr, rfl⟩ := (rowFor_eq_some (nodup_manifest s _)).mp hrow
      obtain ⟨b', hb', hw⟩ := h.find?_balances hr hb
      exact ⟨b', hb', by rw [hw.version]; omega⟩

/-- Every balance stays over a history, and its version does not go back. -/
theorem run_versionsGrow (d : Digest) (cs : List Call) (s : Db) :
    VersionsGrow s.balances (run (exec d) cs s).balances :=
  run_invariant (I := fun t : Db => VersionsGrow s.balances t.balances)
    (fun _ _ _ _ h hgrow => hgrow.trans (exec_change h).versionsGrow) cs (.refl _)

end Growth

/-! ## The read -/

/-- The errors of `Read`. -/
inductive BalanceReadError where
  /-- "balance account not found or not authorized": no account, or one that the actor may not
  read. -/
  | notAuthorized
  /-- "tenant, actor, and account are required". -/
  | incomplete
  /-- "consistency requirement is not configured". -/
  | notConfigured
  /-- The verification of the requirement fails. -/
  | requirement (e : RequirementError)
  /-- "consistency requirement does not match account". -/
  | mismatch
  /-- `ErrCurrentBalanceUnavailable`: the balance is older than the requirement. -/
  | unavailable
deriving DecidableEq

/-- `minimumVersion`. -/
def minimumVersionOf (hmac : Hmac) (verifier : Option Issuer) (now : ℤ) (tenant account : Uuid)
    (raw : List Char) : Except BalanceReadError ℤ :=
  if raw = [] then .ok 0
  else match verifier with
    | none => .error .notConfigured
    | some v => match v.verify hmac now raw with
      | .error e => .error (.requirement e)
      | .ok r =>
        if r.tenantId ≠ tenant.text ∨ r.accountId ≠ account.text then .error .mismatch
        else .ok r.minimumVersion

/-- `Read`: the answer, and the cache after it. The put of the balance may fail. -/
def readBalance (hmac : Hmac) (verifier : Option Issuer) (now : ℤ) (c : BalanceCache)
    (tenant : Uuid) (actor : String) (account : Uuid) (raw : List Char) (s : Db) (r : Redis) :
    Except BalanceReadError CachedBalance × Redis :=
  if actor = "" then (.error .incomplete, r)
  else match s.readCurrent tenant actor account with
    | none => (.error .notAuthorized, r)
    | some balance => match minimumVersionOf hmac verifier now tenant account raw with
      | .error e => (.error e, r)
      | .ok minimum =>
        if balance.version < minimum then (.error .unavailable, r)
        else match c.putIfNewer balance r with
          | .ok (_, r') => (.ok balance, r')
          | .error _ => (.ok balance, r)

/-! ## The requirements in an answer -/

/-- What a transfer answers besides its result: whether this is complete, warnings, and the
requirement of each account in the header. -/
structure ConsistencyMetadata where
  status : String
  warnings : List String
  requirements : Option (SortedMap String (List Char))

/-- The text of the header. -/
def requirementsHeader (requirements : SortedMap String (List Char)) : List Char :=
  objectText (requirements.entries.map fun x => (x.1, .string x.2))

/-- `encodeConsistencyRequirements`. -/
def encodeConsistencyRequirements (requirements : SortedMap String (List Char)) :
    Except String (List Char) :=
  let encoded := requirementsHeader requirements
  if 16 * 1024 < (encodeRunes encoded).length ∨ '\r' ∈ encoded ∨ '\n' ∈ encoded then
    .error "consistency requirements exceed the private header boundary"
  else .ok encoded

/-- The versions that an answer requires: those of the result, and that of the destination when the
actor can read it. -/
def requiredVersions (result : TransferResult) (destination : Option CachedBalance) :
    SortedMap String ℤ :=
  let versions := result.minimumBalanceVersions.mapValues Bigint.val
  match destination with
  | some b => versions.insert b.accountId b.version
  | none => versions

/-- The metadata that `ServeHTTP` writes for a submission. The destination is read when a reader is
configured, and every requirement is issued at its own reading of the clock. -/
def consistencyMetadata (hmac : Hmac) (issuer : Option Issuer) (clock : String → ℤ) (tenant : Uuid)
    (reader : Option (Option CachedBalance)) (result : TransferResult) : ConsistencyMetadata :=
  match issuer with
  | none => ⟨"complete", [], none⟩
  | some i =>
    if result.status ≠ "posted" then ⟨"complete", [], none⟩
    else
      let read := reader ≠ some none
      let versions := requiredVersions result (reader.bind id)
      match versions.traverse fun account version => (Bigint.ofInt? version).bind fun v =>
          (i.issue hmac (clock account) tenant.text account v).toOption with
      | none => ⟨"unavailable", ["consistency_requirement_unavailable"], none⟩
      | some requirements => match encodeConsistencyRequirements requirements with
        | .error _ => ⟨"unavailable", ["consistency_header_unavailable"], none⟩
        | .ok _ =>
          if read then ⟨"complete", [], some requirements⟩
          else ⟨"partial", ["destination_consistency_unavailable"], some requirements⟩

/-- The metadata of an answer that is written while the ledger is in some state. -/
def transferMetadata (hmac : Hmac) (issuer : Option Issuer) (clock : String → ℤ) (reads : Bool)
    (p : TransferRequest) (result : TransferResult) (s : Db) : ConsistencyMetadata :=
  consistencyMetadata hmac issuer clock p.tenantId
    (if reads then some (s.readCurrent p.tenantId p.actorSubjectId p.creditAccountId) else none)
    result

section Reads

variable {d : Digest} {hmac : Hmac} {i v : Issuer} {s s' : Db} {cs : List Call} {issued : ℤ}

/-- The body of a submission is the receipt of a transfer, as it stood after some of the calls. -/
theorem submission_receipt (hs : s.Provisioned) {sess : Session} {p : TransferRequest}
    {ids : TransferIds} {body : Json} {replayed : Bool}
    (h : controlledSubmitTransferV1 d sess p ids (run (exec d) cs s) = .ok ((body, replayed), s')) :
    run (exec d) (cs ++ [.submitTransfer sess p ids]) s = s' ∧
      ∃ pre r x, pre <+: cs ++ [.submitTransfer sess p ids] ∧
        TransferReceipt body r x (run (exec d) pre s) := by
  have hrun : run (exec d) (cs ++ [.submitTransfer sess p ids]) s = s' := by
    rw [run_append, run_cons, run_nil]
    exact commit_of_ok (a := ()) (Txn.discard_ok.mpr ⟨_, h⟩)
  refine ⟨hrun, ?_⟩
  have hreturned := h
  obtain ⟨hguard, ⟨-, hkept, prior, hprior⟩ | ⟨-, hfresh⟩⟩ := controlledSubmitTransferV1_ok h
  · obtain ⟨pre, r, x, hpre, hr⟩ := run_transferReceipts d hs cs prior
      (Table.mem_of_find? hprior.find) body hprior.body
    exact ⟨pre, r, x, hpre.trans (List.prefix_append cs _), hr⟩
  · have hfree : (run (exec d) cs s).idempotencyRequests.find? p.key = none := by
      rcases hfresh with ⟨⟨hf⟩⟩ | ⟨⟨hf⟩⟩ <;> exact (Table.insert?_eq_some.mp hf.requests).1
    rw [submit_of_free hfree hguard] at hreturned
    obtain ⟨⟨r, x, -, hr⟩, -⟩ := executeTransfer_receipt (run_booked d cs hs.booked) hreturned
    exact ⟨_, r, x, List.prefix_rfl, by rw [hrun]; exact hr⟩

/-- A version that was that of an account is not above that of its balance now. -/
def Db.Reached (s : Db) (account : String) (version : ℤ) : Prop :=
  ∃ a b, account = a.text ∧ s.balances.find? a = some b ∧ version ≤ b.version

/-- A version that an account has reached stays reached in every history. -/
theorem Db.Reached.run {account : String} {version : ℤ} (h : s.Reached account version)
    (d : Digest) (cs : List Call) : (run (exec d) cs s).Reached account version := by
  obtain ⟨a, b, haccount, hb, hle⟩ := h
  obtain ⟨b', hb', hgrow⟩ := run_versionsGrow d cs s a b hb
  exact ⟨a, b', haccount, hb', hle.trans hgrow⟩

/-- A row that is read has the version that its account has reached. -/
theorem readCurrent_reached {tenant account : Uuid} {actor : String} {row : CachedBalance}
    (h : s.readCurrent tenant actor account = some row) :
    row.accountId = account.text ∧
      ∃ b, s.balances.find? account = some b ∧ row.version = b.version := by
  obtain ⟨⟨a, b⟩, hfound, hrow⟩ := Option.bind_eq_some_iff.mp h
  obtain ⟨-, hb, -⟩ := Db.account?_eq_some.mp hfound
  simp only at hrow
  split_ifs at hrow
  obtain rfl := Option.some.inj hrow
  exact ⟨congrArg Uuid.text (Table.key_of_find? hb), b, hb, rfl⟩

/-- The versions that an answer requires were reached. -/
theorem requiredVersions_reached {result : TransferResult} {destination : Option CachedBalance}
    (hresult : ∀ x ∈ result.minimumBalanceVersions.entries, s.Reached x.1 x.2)
    (hdestination : ∀ row, destination = some row → s.Reached row.accountId row.version) :
    ∀ x ∈ (requiredVersions result destination).entries, s.Reached x.1 x.2 := by
  have hmapped : ∀ x ∈ (result.minimumBalanceVersions.mapValues Bigint.val).entries,
      s.Reached x.1 x.2 := by
    intro x hx
    rw [SortedMap.entries_mapValues] at hx
    obtain ⟨y, hy, rfl⟩ := List.mem_map.mp hx
    exact hresult y hy
  intro x hx
  unfold requiredVersions at hx
  rcases destination with _ | row
  · exact hmapped x hx
  · rcases SortedMap.mem_insert hx with rfl | hx
    · exact hdestination row rfl
    · exact hmapped x hx

/-- The versions in a receipt were reached when it was written. -/
theorem TransferResult.Describes.reached {r : TransferResult} {x : Transfer}
    (h : r.Describes x s) : ∀ y ∈ r.minimumBalanceVersions.entries, s.Reached y.1 y.2 := by
  intro y hy
  rcases h.outcome with ⟨-, -, -, hempty, -⟩ | ⟨-, -, -, b, receipt, hb, hversions, -⟩
  · rw [hempty] at hy
    exact absurd hy List.not_mem_nil
  · rw [hversions] at hy
    obtain rfl := List.mem_singleton.mp hy
    exact ⟨_, b, rfl, hb, le_rfl⟩

/-- A requirement in an answer was issued for a version that was reached. -/
theorem consistencyMetadata_issued {clock : String → ℤ} {tenant : Uuid}
    {reader : Option (Option CachedBalance)} {result : TransferResult}
    {requirements : SortedMap String (List Char)}
    (h : (consistencyMetadata hmac (some i) clock tenant reader result).requirements =
      some requirements) : ∀ x ∈ requirements.entries, ∃ version : Bigint,
        (x.1, (version : ℤ)) ∈ (requiredVersions result (reader.bind id)).entries ∧
        i.issue hmac (clock x.1) tenant.text x.1 version = .ok x.2 := by
  intro x hx
  unfold consistencyMetadata at h
  simp only at h
  by_cases hposted : result.status ≠ "posted"
  · rw [if_pos hposted] at h
    cases h
  · rw [if_neg hposted] at h
    split at h
    -- Only a posted transfer has requirements.
    · cases h
    · rename_i found hfound
      have hsame : found = requirements := by
        split at h
        · cases h
        · by_cases hread : reader ≠ some none
          · rw [if_pos hread] at h
            exact Option.some.inj h
          · rw [if_neg hread] at h
            exact Option.some.inj h
      subst hsame
      -- Each token is issued for one of the versions that are required.
      obtain ⟨version, hmem, hissued⟩ :=
        SortedMap.of_mem_mapM (SortedMap.traverse_eq_some_iff.mp hfound) x hx
      obtain ⟨v, hv, hissued⟩ := Option.bind_eq_some_iff.mp hissued
      rw [← Bigint.ofInt?_eq_some.mp hv] at hmem
      refine ⟨v, hmem, ?_⟩
      -- An account whose token cannot be issued has none.
      rcases htoken : i.issue hmac (clock x.1) tenant.text x.1 v with e | token
      · rw [htoken] at hissued
        cases hissued
      · rw [htoken] at hissued
        exact congrArg Except.ok (Option.some.inj hissued)

/-- A reader who shows a live requirement for a version that was reached gets the balance. -/
theorem readBalance_reached (hissued : 0 < issued)
    (hkept : v.verifyKeys i.current.id = some i.current.secret) {tenant account : Uuid}
    {version : Bigint} {token : List Char}
    (htoken : i.issue hmac issued tenant.text account.text version = .ok token)
    {row : CachedBalance} {actor : String} (hrow : s.readCurrent tenant actor account = some row)
    (hactor : actor ≠ "") (hle : (version : ℤ) ≤ row.version) (now : ℤ) (c : BalanceCache)
    (r : Redis) : (readBalance hmac (some v) now c tenant actor account token s r).1 =
      if now < issued + i.ttl then .ok row else .error (.requirement .expired) := by
  have hne : token ≠ [] := by
    obtain ⟨-, -, -, text, -, rfl⟩ := issue_ok htoken
    exact List.append_ne_nil_of_right_ne_nil _ (List.cons_ne_nil _ _)
  unfold readBalance minimumVersionOf
  simp only [if_neg hactor, hrow, if_neg hne, verify_token hissued hkept htoken]
  by_cases hlive : now < issued + i.ttl
  · simp only [if_pos hlive, ne_eq, not_true_eq_false, or_self, if_false]
    rw [if_neg (not_lt.mpr hle)]
    split <;> rfl
  · simp only [if_neg hlive]

end Reads

/-- The answer to a submission was written at some time after it, perhaps to a retry, and later the
account of one of its requirements is read with that requirement, by whoever may read it. Whatever
was committed in between and whatever is cached, the read gives the balance of the ledger, which is
no older than what the requirement demands, until the requirement expires. -/
theorem read_your_writes (d : Digest) (hmac : Hmac) (i v : Issuer)
    (hkept : v.verifyKeys i.current.id = some i.current.secret) (s : Db) (hs : s.Provisioned)
    (cs between later : List Call) (sess : Session) (p : TransferRequest) (ids : TransferIds)
    (body : Json) (replayed : Bool) (s' : Db)
    (h : controlledSubmitTransferV1 d sess p ids (run (exec d) cs s) = .ok ((body, replayed), s'))
    (result : TransferResult) (hresult : TransferResult.unmarshalJSON body = .ok result)
    (clock : String → ℤ) (hclock : ∀ account, 0 < clock account) (reads : Bool)
    (requirements : SortedMap String (List Char))
    (hmetadata : (transferMetadata hmac (some i) clock reads p result
      (run (exec d) between s')).requirements = some requirements) :
    ∀ account token, (account, token) ∈ requirements.entries →
      ∃ (a : Uuid) (version : Bigint), account = a.text ∧
        i.issue hmac (clock account) p.tenantId.text account version = .ok token ∧
        ∀ row actor, (run (exec d) later (run (exec d) between s')).readCurrent p.tenantId actor a =
          some row → actor ≠ "" → (version : ℤ) ≤ row.version ∧
          ∀ now c r, (readBalance hmac (some v) now c p.tenantId actor a token
              (run (exec d) later (run (exec d) between s')) r).1 =
            if now < clock account + i.ttl then .ok row else .error (.requirement .expired) := by
  intro account token hmem
  obtain ⟨version, hversion, hissued⟩ := consistencyMetadata_issued hmetadata (account, token) hmem
  obtain ⟨hrun, pre, r, x, ⟨post, hpre⟩, hr⟩ := submission_receipt hs h
  obtain rfl : r = result := by
    have hdecode := hr.wellFormed.unmarshalJSON_marshalJSON
    rw [← hr.body] at hdecode
    exact Except.ok.inj (hdecode.symm.trans hresult)
  -- What the receipt says was so after some of the calls, and the destination was read later.
  have hresult : ∀ y ∈ r.minimumBalanceVersions.entries,
      (run (exec d) between s').Reached y.1 y.2 := by
    intro y hy
    have hreached := (hr.describes.reached y hy).run d post
    rw [← run_append, hpre, hrun] at hreached
    exact hreached.run d between
  have hdestination : ∀ row, (if reads then some ((run (exec d) between s').readCurrent p.tenantId
        p.actorSubjectId p.creditAccountId) else none).bind id = some row →
      (run (exec d) between s').Reached row.accountId row.version := by
    intro row hread
    by_cases hreads : reads = true
    · rw [if_pos hreads] at hread
      obtain ⟨hid, b, hb, hrowVersion⟩ := readCurrent_reached hread
      exact ⟨p.creditAccountId, b, hid, hb, hrowVersion.le⟩
    · rw [if_neg hreads] at hread
      cases hread
  have hreached := (requiredVersions_reached hresult hdestination _ hversion).run d later
  obtain ⟨a, b, haccount, hb, hle⟩ := hreached
  simp only at haccount hissued
  subst haccount
  refine ⟨a, version, rfl, hissued, fun row actor hrow hactor => ?_⟩
  obtain ⟨-, b', hb', hrowVersion⟩ := readCurrent_reached hrow
  obtain rfl := Option.some.inj (hb.symm.trans hb')
  have hnewer : (version : ℤ) ≤ row.version := hle.trans_eq hrowVersion.symm
  exact ⟨hnewer, fun now c r =>
    readBalance_reached (hclock _) hkept hissued hrow hactor hnewer now c r⟩

namespace Sample

/-- What the submission of the sample's transfer answers. -/
theorem transfer_answer : (match controlledSubmitTransferV1 digest session transferRequest (ids 100)
      db with
    | .ok ((body, _), _) => match TransferResult.unmarshalJSON body with
      | .ok r => r.status = "posted" && r.minimumBalanceVersions.entries = [(source.text, .one)]
      | .error _ => false
    | .error _ => false) = true := by decide +kernel

/-- A requirement is issued for the source, and for nothing else where the destination is not read.
-/
theorem transfer_requirements {r : TransferResult} (hstatus : r.status = "posted")
    (hversions : r.minimumBalanceVersions.entries = [(source.text, .one)]) :
    (consistencyMetadata hmac (some issuer) (fun _ => issuedAt) tenant none
      r).requirements.map (fun requirements => requirements.entries.map Prod.fst) =
        some [source.text] := by
  have hsingle : r.minimumBalanceVersions = .singleton source.text .one := SortedMap.ext hversions
  unfold consistencyMetadata requiredVersions
  rw [hstatus, hsingle]
  decide +kernel

/-- Behind the transfer a hold is opened and captured, and the source is read. -/
theorem transfer_reads : ((run (exec digest) [transfer, openHold, capture] db).readCurrent tenant
    alice source).map CachedBalance.version = some 3 := by
  decide +kernel

end Sample

/-- The source of a transfer is read with the requirement that was issued for it. A hold was opened
in between, and captured after that, so that the read gives version 3 where version 1 was demanded.
-/
theorem read_your_writes_sample : Sample.db.Provisioned ∧ ∃ body replayed s' result requirements token,
    controlledSubmitTransferV1 Sample.digest Sample.session Sample.transferRequest (Sample.ids 100)
      Sample.db = .ok ((body, replayed), s') ∧
    TransferResult.unmarshalJSON body = .ok result ∧
    (transferMetadata Sample.hmac (some Sample.issuer) (fun _ => Sample.issuedAt) false
      Sample.transferRequest result (run (exec Sample.digest) [Sample.openHold] s')).requirements =
        some requirements ∧
    (Sample.source.text, token) ∈ requirements.entries ∧
    ∃ row, row.version = 3 ∧ ∀ c r, (readBalance Sample.hmac (some Sample.issuer) Sample.issuedAt c
      Sample.tenant Sample.alice Sample.source token (run (exec Sample.digest) [Sample.capture]
        (run (exec Sample.digest) [Sample.openHold] s')) r).1 = .ok row := by
  have hanswer := Sample.transfer_answer
  have hsource := Sample.transfer_reads
  rcases h : controlledSubmitTransferV1 Sample.digest Sample.session Sample.transferRequest
    (Sample.ids 100) Sample.db with e | ⟨⟨body, replayed⟩, s'⟩
  · rw [h] at hanswer
    cases hanswer
  rw [h] at hanswer
  rcases hresult : TransferResult.unmarshalJSON body with e | result
  · simp only [hresult] at hanswer
    cases hanswer
  simp only [hresult, Bool.and_eq_true, decide_eq_true_eq] at hanswer
  -- The state after the submission is that after the call.
  have hstate : run (exec Sample.digest) [Sample.transfer] Sample.db = s' :=
    (submission_receipt Sample.provisioned (show controlledSubmitTransferV1 Sample.digest
      Sample.session Sample.transferRequest (Sample.ids 100) (run (exec Sample.digest) [] Sample.db) =
        .ok ((body, replayed), s') from h)).1
  have hcaptured : run (exec Sample.digest) [Sample.transfer, Sample.openHold, Sample.capture]
      Sample.db = run (exec Sample.digest) [Sample.capture]
        (run (exec Sample.digest) [Sample.openHold] s') := by
    rw [← hstate, ← run_append, ← run_append]
    rfl
  rw [hcaptured] at hsource
  obtain ⟨row, hrow, hversion⟩ := Option.map_eq_some_iff.mp hsource
  obtain ⟨requirements, hrequirements, hentries⟩ := Option.map_eq_some_iff.mp
    (Sample.transfer_requirements hanswer.1 hanswer.2)
  obtain ⟨x, hx, hname⟩ : ∃ x ∈ requirements.entries, x.1 = Sample.source.text :=
    List.mem_map.mp (hentries ▸ List.mem_singleton_self _)
  obtain ⟨a, version, ha, -, hreads⟩ := read_your_writes Sample.digest Sample.hmac Sample.issuer
    Sample.issuer Sample.issuer.current_kept Sample.db Sample.provisioned [] [Sample.openHold]
    [Sample.capture] Sample.session Sample.transferRequest (Sample.ids 100) body replayed s' h result
    hresult (fun _ => Sample.issuedAt) (fun _ => Sample.issuedAt_pos) false requirements hrequirements
    x.1 x.2 hx
  obtain rfl : Sample.source = a := Uuid.text_inj.mp (hname.symm.trans ha)
  obtain ⟨-, hread⟩ := hreads row Sample.alice hrow (by decide)
  refine ⟨Sample.provisioned, body, replayed, s', result, requirements, x.2, rfl, hresult,
    hrequirements,
    hname ▸ hx, row, hversion, fun c r => ?_⟩
  have hlive : Sample.issuedAt < Sample.issuedAt + Sample.issuer.ttl :=
    Int.lt_add_of_pos_right _ (ttlOrDefault_pos 0)
  exact (hread Sample.issuedAt c r).trans (if_pos hlive)

end LedgerSync
