import LedgerSync.SavedViews

/-!
# The store of saved views

`CreateSavedView` stores the normalised filters of a view as a document, and every other operation
of the repository normalises what it reads. A view whose document is refused makes the listing of
its owner fail, and can be neither renamed nor deleted, since both roll back. When every view is
created with timestamps of years of four digits, every listing succeeds (`Readable.list`).
-/

namespace LedgerSync

open Lib

/-! ## Documents -/

/-- `json.Marshal` of the filters. -/
def filterDocument (filters : FilterMap) : Json :=
  .obj (filters.entries.map fun x => (x.1, .str x.2))

/-- `json.Unmarshal` of a member into a text; `null` leaves it empty. -/
def readFilter : Json → Except Unit String
  | .str s => .ok s
  | .null => .ok ""
  | _ => .error ()

/-- `json.Unmarshal` into `map[string]string`. -/
def readFilters : Json → Except Unit FilterMap
  | .obj fields => SortedMap.empty.insertAll readFilter fields
  | .null => .ok .empty
  | _ => .error ()

/-- `decodeSavedViewDefinition`. -/
def decodeSavedViewDefinition (domain : String) (schemaVersion : ℤ) (raw : Json) :
    Option (FilterMap × String) :=
  match readFilters raw with
  | .error _ => none
  | .ok filters => normalizeSavedViewDefinition domain schemaVersion filters

/-- Filters that are stored are read back. -/
theorem readFilters_filterDocument (filters : FilterMap) :
    readFilters (filterDocument filters) = .ok filters := by
  have hread := SortedMap.insertAll_entries (f := readFilter) (g := Json.str) (k := fun s => s)
    filters fun _ _ => rfl
  rwa [SortedMap.mapValues_id] at hread

/-- What is read of the document of some filters. -/
theorem decode_filterDocument (domain : String) (schemaVersion : ℤ) (filters : FilterMap) :
    decodeSavedViewDefinition domain schemaVersion (filterDocument filters) =
      normalizeSavedViewDefinition domain schemaVersion filters := by
  rw [decodeSavedViewDefinition, readFilters_filterDocument]

/-! ## The store -/

/-- `SavedViewAccess`. -/
structure SavedViewAccess where
  accounts : Bool
  transfers : Bool
  funding : Bool
  fundingApprovals : Bool
  corrections : Bool
  correctionApprovals : Bool
  events : Bool
  webhooks : Bool

/-- `AnyReadableDomain`. -/
def SavedViewAccess.anyReadableDomain (access : SavedViewAccess) : Bool :=
  access.accounts || access.transfers || access.funding || access.fundingApprovals ||
    access.corrections || access.correctionApprovals || access.events || access.webhooks

/-- `SavedViewDefinitionAllowed`. -/
def savedViewDefinitionAllowed (domain : String) (filters : FilterMap) (access : SavedViewAccess) :
    Bool :=
  match domain with
  | "accounts" => access.accounts
  | "transfers" => access.transfers
  | "funding" => access.funding
  | "approvals" =>
    match (filters.get? "domain").getD "" with
    | "funding" => access.fundingApprovals
    | "correction" => access.correctionApprovals
    | _ => access.fundingApprovals || access.correctionApprovals
  | "corrections" => access.corrections
  | "events" => access.events
  | "webhooks" => access.webhooks
  | _ => false

/-- A row of `investigation_saved_views`. -/
structure SavedViewRow where
  id : Uuid
  tenantId : String
  ownerSubjectId : String
  name : String
  filterSchemaVersion : ℤ
  domain : String
  filters : Json
  version : ℤ
  createdAt : Instant
  updatedAt : Instant

/-- `NormalizeSavedViewName`. -/
def normalizeSavedViewName (value : String) : Option String :=
  if value ≠ trimSpace value ∨ value.toList.length < 1 ∨ 80 < value.toList.length ∨
      HasControl value then none
  else some value

/-- The owner of some views. -/
structure SavedViewOwner where
  tenantId : String
  actorId : String
deriving DecidableEq

/-- The owner of a row. -/
def SavedViewRow.owner (row : SavedViewRow) : SavedViewOwner := ⟨row.tenantId, row.ownerSubjectId⟩

/-- `SavedViewCreate`. -/
structure SavedViewCreate where
  owner : SavedViewOwner
  name : String
  domain : String
  correlationId : String
  filterSchemaVersion : ℤ
  filters : FilterMap
  access : SavedViewAccess
  occurredAt : Instant

/-- `SavedViewRename`. -/
structure SavedViewRename where
  owner : SavedViewOwner
  savedViewId : Uuid
  name : String
  correlationId : String
  expectedVersion : ℤ
  access : SavedViewAccess
  occurredAt : Instant

/-- `SavedViewDelete`. -/
structure SavedViewDelete where
  owner : SavedViewOwner
  savedViewId : Uuid
  correlationId : String
  expectedVersion : ℤ
  access : SavedViewAccess
  occurredAt : Instant

/-- `MaxSavedViewsPerOperator`. -/
def maxSavedViewsPerOperator : ℕ := 25

/-- Whether an owner or a correlation is blank. -/
def blankRequest (owner : SavedViewOwner) (correlationId : String) : Bool :=
  trimSpace owner.tenantId = "" || trimSpace owner.actorId = "" || trimSpace correlationId = ""

/-- `scanSavedView`, as far as it can fail. -/
def SavedViewRow.scan (row : SavedViewRow) : Option (FilterMap × String) :=
  decodeSavedViewDefinition row.domain row.filterSchemaVersion row.filters

/-- `CreateSavedView` with a new id; the database takes the row or refuses it, as by the unique
index on the names of an owner. -/
def createSavedView (command : SavedViewCreate) (viewId : Uuid) (taken : Bool)
    (s : List SavedViewRow) : Option (List SavedViewRow) :=
  match normalizeSavedViewName command.name with
  | none => none
  | some name =>
    if blankRequest command.owner command.correlationId then none
    else match normalizeSavedViewDefinition command.domain command.filterSchemaVersion
        command.filters with
      | none => none
      | some (filters, _) =>
        if savedViewDefinitionAllowed command.domain filters command.access = false then none
        else if maxSavedViewsPerOperator ≤ (s.filter (·.owner = command.owner)).length then none
        else if taken then
          some (s ++ [{
            id := viewId
            tenantId := command.owner.tenantId
            ownerSubjectId := command.owner.actorId
            name := name
            filterSchemaVersion := command.filterSchemaVersion
            domain := command.domain
            filters := filterDocument filters
            version := 1
            createdAt := command.occurredAt
            updatedAt := command.occurredAt }])
        else none

/-- The row that a rename or a deletion is about. -/
def findSavedView (s : List SavedViewRow) (owner : SavedViewOwner) (id : Uuid) (version : ℤ) :
    Option SavedViewRow :=
  s.find? fun row => row.owner = owner ∧ row.id = id ∧ row.version = version

/-- `RenameSavedView`; the row is read back before the transaction is committed. -/
def renameSavedView (command : SavedViewRename) (taken : Bool) (s : List SavedViewRow) :
    Option (List SavedViewRow) :=
  match normalizeSavedViewName command.name with
  | none => none
  | some name =>
    if command.expectedVersion < 1 ∨ blankRequest command.owner command.correlationId then none
    else match findSavedView s command.owner command.savedViewId command.expectedVersion with
      | none => none
      | some row =>
        match row.scan with
        | none => none
        | some (filters, _) =>
          if savedViewDefinitionAllowed row.domain filters command.access = false ∨ taken = false then
            none
          else
            some (s.map fun r => if r.owner = command.owner ∧ r.id = row.id then
              { r with
                name := name
                version := r.version + 1
                updatedAt := command.occurredAt } else r)

/-- `DeleteSavedView`; the deleted row is read before the transaction is committed. -/
def deleteSavedView (command : SavedViewDelete) (s : List SavedViewRow) :
    Option (List SavedViewRow) :=
  if command.expectedVersion < 1 ∨ blankRequest command.owner command.correlationId then none
  else match findSavedView s command.owner command.savedViewId command.expectedVersion with
    | none => none
    | some row =>
      match row.scan with
      | none => none
      | some (filters, _) =>
        if savedViewDefinitionAllowed row.domain filters command.access = false then none
        else some (s.filter fun r => ¬(r.owner = command.owner ∧ r.id = row.id))

/-- The order of a listing: the last updated first, and then by id. -/
def SavedViewRow.before (x y : SavedViewRow) : Bool :=
  y.updatedAt < x.updatedAt ∨ y.updatedAt = x.updatedAt ∧ y.id.toNat ≤ x.id.toNat

/-- `ListSavedViews`; every row has to be read, and those that the operator may see are returned. -/
def listSavedViews (owner : SavedViewOwner) (access : SavedViewAccess) (s : List SavedViewRow) :
    Option (List (SavedViewRow × FilterMap × String)) :=
  if trimSpace owner.tenantId = "" ∨ trimSpace owner.actorId = "" ∨
      access.anyReadableDomain = false then none
  else
    let rows := ((s.filter (·.owner = owner)).mergeSort SavedViewRow.before).take
      maxSavedViewsPerOperator
    match rows.mapM fun row => row.scan.map fun view => (row, view) with
    | none => none
    | some views =>
      some (views.filter fun view => savedViewDefinitionAllowed view.1.domain view.2.1 access)

/-- An operation that may change the store. -/
inductive SavedViewCall where
  | create (command : SavedViewCreate) (viewId : Uuid) (taken : Bool)
  | rename (command : SavedViewRename) (taken : Bool)
  | delete (command : SavedViewDelete)

/-- The store after an operation; one that fails changes nothing. -/
def SavedViewCall.exec (call : SavedViewCall) (s : List SavedViewRow) : List SavedViewRow :=
  match call with
  | create command viewId taken => (createSavedView command viewId taken s).getD s
  | rename command taken => (renameSavedView command taken s).getD s
  | delete command => (deleteSavedView command s).getD s

/-- The store after a history. -/
def runSavedViews (calls : List SavedViewCall) : List SavedViewRow :=
  calls.foldl (fun s call => call.exec s) []

/-! ## Readable views -/

/-- Every row is read. -/
def Readable (s : List SavedViewRow) : Prop := ∀ row ∈ s, row.scan.isSome = true

section Calls

variable {s s' : List SavedViewRow}

/-- A created view is the only new row, and it is read exactly when its timestamps have years of
four digits. -/
theorem createSavedView_ok {command : SavedViewCreate} {viewId : Uuid} {taken : Bool}
    (h : createSavedView command viewId taken s = some s') :
    ∃ row, s' = s ++ [row] ∧ row.owner = command.owner ∧
      (row.scan.isSome = true ↔ WritesYears command.domain command.filters) := by
  unfold createSavedView at h
  split at h
  · cases h
  next name _ =>
  split at h
  · cases h
  split at h
  · cases h
  next filters path hnormal =>
  split at h
  · cases h
  split at h
  · cases h
  split at h
  -- The row is scanned by normalizing its filters once more.
  · refine ⟨_, (Option.some.inj h).symm, rfl, ?_⟩
    rw [SavedViewRow.scan, decode_filterDocument]
    exact renormalize_isSome_iff hnormal
  · cases h

/-- A rename changes no definition. -/
theorem renameSavedView_ok {command : SavedViewRename} {taken : Bool}
    (h : renameSavedView command taken s = some s') :
    ∀ row ∈ s', ∃ r ∈ s, row.scan = r.scan := by
  unfold renameSavedView at h
  split at h
  · cases h
  split at h
  · cases h
  split at h
  · cases h
  split at h
  · cases h
  split at h
  · cases h
  -- A rename touches the name of one row, which scanning does not read.
  rw [← Option.some.inj h]
  intro row hrow
  obtain ⟨r, hr, rfl⟩ := List.mem_map.mp hrow
  refine ⟨r, hr, ?_⟩
  split
  · rfl
  · rfl

/-- A deletion adds no row. -/
theorem deleteSavedView_ok {command : SavedViewDelete} (h : deleteSavedView command s = some s') :
    ∀ row ∈ s', row ∈ s := by
  unfold deleteSavedView at h
  split at h
  · cases h
  split at h
  · cases h
  split at h
  · cases h
  split at h
  · cases h
  rw [← Option.some.inj h]
  exact fun row hrow => (List.mem_filter.mp hrow).1

/-- The timestamps of a view that an operation creates have years of four digits. -/
def SavedViewCall.WritesYears : SavedViewCall → Prop
  | create command _ _ => LedgerSync.WritesYears command.domain command.filters
  | _ => True

/-- An operation keeps the store readable. -/
theorem Readable.exec {call : SavedViewCall} (hs : Readable s) (hcall : call.WritesYears) :
    Readable (call.exec s) := by
  -- A new row is readable by its years; the other calls keep what each row holds.
  cases call with
  | create command viewId taken =>
    unfold SavedViewCall.exec
    dsimp only
    rcases h : createSavedView command viewId taken s with _ | s'
    · exact hs
    · obtain ⟨row, hs', -, hrow⟩ := createSavedView_ok h
      intro r hr
      rw [Option.getD_some, hs', List.mem_append, List.mem_singleton] at hr
      rcases hr with hr | rfl
      · exact hs r hr
      · exact hrow.mpr hcall
  | rename command taken =>
    unfold SavedViewCall.exec
    dsimp only
    rcases h : renameSavedView command taken s with _ | s'
    · exact hs
    · intro r hr
      obtain ⟨r', hr', hscan⟩ := renameSavedView_ok h r hr
      rw [hscan]
      exact hs r' hr'
  | delete command =>
    unfold SavedViewCall.exec
    dsimp only
    rcases h : deleteSavedView command s with _ | s'
    · exact hs
    · exact fun r hr => hs r (deleteSavedView_ok h r hr)

/-- A history whose views have such timestamps leaves the store readable. -/
theorem readable_runSavedViews {calls : List SavedViewCall} (h : ∀ call ∈ calls, call.WritesYears) :
    Readable (runSavedViews calls) := by
  unfold runSavedViews
  have hrun : ∀ s, Readable s → Readable (calls.foldl (fun s call => call.exec s) s) := by
    induction calls with
    | nil => exact fun s hs => hs
    | cons call calls ih =>
      intro s hs
      rw [List.foldl_cons]
      exact ih (fun c hc => h c (List.mem_cons_of_mem _ hc)) _ (hs.exec (h call List.mem_cons_self))
  exact hrun [] fun row hrow => nomatch hrow

/-- A request that `ListSavedViews` does not refuse. -/
def ListsViews (owner : SavedViewOwner) (access : SavedViewAccess) : Prop :=
  trimSpace owner.tenantId ≠ "" ∧ trimSpace owner.actorId ≠ "" ∧ access.anyReadableDomain = true

/-- A listing of readable rows succeeds. -/
theorem Readable.list {owner : SavedViewOwner} {access : SavedViewAccess} (hs : Readable s)
    (h : ListsViews owner access) : (listSavedViews owner access s).isSome = true := by
  obtain ⟨htenant, hactor, haccess⟩ := h
  -- Listing fails as soon as one row fails, so that all of them must be readable.
  have hmapM : ∀ rows : List SavedViewRow, (∀ row ∈ rows, row.scan.isSome = true) →
      ∃ views, (rows.mapM fun row => row.scan.map fun view => (row, view)) = some views := by
    intro rows hrows
    induction rows with
    | nil => exact ⟨[], rfl⟩
    | cons row rows ih =>
      obtain ⟨view, hview⟩ := Option.isSome_iff_exists.mp (hrows row List.mem_cons_self)
      obtain ⟨views, hviews⟩ := ih fun r hr => hrows r (List.mem_cons_of_mem _ hr)
      exact ⟨(row, view) :: views, by rw [List.mapM_cons, hview, hviews]; rfl⟩
  -- The rows listed are some of those stored.
  have hread : ∀ row ∈ ((s.filter (·.owner = owner)).mergeSort SavedViewRow.before).take
      maxSavedViewsPerOperator, row.scan.isSome = true := by
    intro row hrow
    have hsorted := List.mem_of_mem_take hrow
    exact hs row (List.mem_filter.mp (List.mem_mergeSort.mp hsorted)).1
  obtain ⟨views, hviews⟩ := hmapM _ hread
  unfold listSavedViews
  rw [if_neg (by simp [htenant, hactor, haccess])]
  dsimp only
  rw [hviews]
  rfl

end Calls

/-- Normalising an accepted definition again succeeds, with the same filters and path, exactly when
its timestamps have years of four digits; a range is accepted in the order of its instants exactly
when the texts of its bounds are in that order; and after every history of operations whose views
have such timestamps every listing succeeds. -/
theorem saved_view_definitions (domain : String) :
    (∀ schemaVersion input filters path,
      normalizeSavedViewDefinition domain schemaVersion input = some (filters, path) →
        (normalizeSavedViewDefinition domain schemaVersion filters = some (filters, path) ↔
          WritesYears domain input) ∧
        ((decodeSavedViewDefinition domain schemaVersion (filterDocument filters)).isSome = true ↔
          WritesYears domain input)) ∧
    (domain ∈ ["transfers", "events"] → ∀ first last out out' n m,
      normalizeSavedViewDefinition domain savedViewFilterSchemaVersion
        (SortedMap.singleton "from" first) = some out →
      normalizeSavedViewDefinition domain savedViewFilterSchemaVersion
        (SortedMap.singleton "to" last) = some out' →
      parseGoTime first.toList = some n → parseGoTime last.toList = some m →
        (((normalizeSavedViewDefinition domain savedViewFilterSchemaVersion
          (rangeFilters first last)).isSome = true ↔ n ≤ m) ↔ TextOrdered n m)) ∧
    (∀ calls : List SavedViewCall, (∀ call ∈ calls, call.WritesYears) →
      ∀ owner access, ListsViews owner access →
        (listSavedViews owner access (runSavedViews calls)).isSome = true) := by
  refine ⟨fun schemaVersion input filters path h => ⟨renormalize_iff h, ?_⟩, ?_, ?_⟩
  · rw [decode_filterDocument]
    exact renormalize_isSome_iff h
  · intro hdomain first last out out' n m hfirst hlast hn hm
    exact range_accepted_iff hdomain hfirst hlast hn hm
  · intro calls hcalls owner access hrequest
    exact (readable_runSavedViews hcalls).list hrequest

/-- Access to transfers. -/
def sampleAccess : SavedViewAccess := ⟨false, true, false, false, false, false, false, false⟩

/-- An operator. -/
def sampleOwner : SavedViewOwner := ⟨"t", "a"⟩

/-- A view whose range begins an hour before the year 0. -/
def sampleView : SavedViewCreate where
  owner := sampleOwner
  name := "v"
  domain := "transfers"
  correlationId := "c"
  filterSchemaVersion := 1
  filters := SortedMap.singleton "from" "0000-01-01T00:00:00+01:00"
  access := sampleAccess
  occurredAt := 0

/-- A timestamp an hour before the year 0 is accepted once, and a view stored with it makes every
listing fail; and a range of half a second is refused. -/
theorem saved_view_not_kept :
    ((normalizeSavedViewDefinition "transfers" 1
      (SortedMap.singleton "from" "0000-01-01T00:00:00+01:00")).map fun x => x.1.entries) =
        some [("from", "-0001-12-31T23:00:00Z")] ∧
    normalizeSavedViewDefinition "transfers" 1
      (SortedMap.singleton "from" "-0001-12-31T23:00:00Z") = none ∧
    listSavedViews sampleOwner sampleAccess
      (runSavedViews [.create sampleView ⟨1, by decide⟩ true]) = none ∧
    normalizeSavedViewDefinition "transfers" 1
      (rangeFilters "2026-08-01T00:00:00Z" "2026-08-01T00:00:00.5Z") = none ∧
    parseGoTime "2026-08-01T00:00:00Z".toList = some 63921139200000000000 ∧
    parseGoTime "2026-08-01T00:00:00.5Z".toList = some 63921139200500000000 := by
  refine ⟨?_, Option.isNone_iff_eq_none.mp ?_, Option.isNone_iff_eq_none.mp ?_,
    Option.isNone_iff_eq_none.mp ?_, ?_, ?_⟩
  · decide +kernel
  · decide +kernel
  · decide +kernel
  · decide +kernel
  · decide +kernel
  · decide +kernel

/-- A bound that is kept, a range of a second, and a history of one view with that range. -/
theorem saved_view_definitions_sample :
    (∃ filters path, normalizeSavedViewDefinition "transfers" 1
      (SortedMap.singleton "from" "2026-08-01T00:00:00Z") = some (filters, path) ∧
        normalizeSavedViewDefinition "transfers" 1 filters = some (filters, path)) ∧
    (normalizeSavedViewDefinition "transfers" 1
      (rangeFilters "2026-08-01T00:00:00Z" "2026-08-01T00:00:01Z")).isSome = true ∧
    (listSavedViews sampleOwner sampleAccess (runSavedViews [.create { sampleView with
      filters := SortedMap.singleton "from" "2026-08-01T00:00:00Z" } ⟨1, by decide⟩ true])).isSome =
        true := by
  -- The two sample instants are one second apart, within one year.
  have hn : parseGoTime "2026-08-01T00:00:00Z".toList = some 63921139200000000000 := by
    decide +kernel
  have hm : parseGoTime "2026-08-01T00:00:01Z".toList = some 63921139201000000000 := by
    decide +kernel
  have hyear : HasWrittenYear 63921139200000000000 := by decide +kernel
  have hfirst : (normalizeSavedViewDefinition "transfers" savedViewFilterSchemaVersion
      (SortedMap.singleton "from" "2026-08-01T00:00:00Z")).isSome = true := by decide +kernel
  have hlast : (normalizeSavedViewDefinition "transfers" savedViewFilterSchemaVersion
      (SortedMap.singleton "to" "2026-08-01T00:00:01Z")).isSome = true := by decide +kernel
  obtain ⟨⟨filters, path⟩, hfirst⟩ := Option.isSome_iff_exists.mp hfirst
  obtain ⟨out, hlast⟩ := Option.isSome_iff_exists.mp hlast
  have hyears : WritesYears "transfers" (SortedMap.singleton "from" "2026-08-01T00:00:00Z") := by
    intro x hx _ k hk
    -- The only filter of the sample is written in such a year.
    rw [List.mem_singleton.mp hx, hn] at hk
    exact Option.some.inj hk ▸ hyear
  have hcross : ¬YearsCross (yearOfDay (dayOf 63921139200000000000))
      (yearOfDay (dayOf 63921139201000000000)) := by
    unfold YearsCross
    decide +kernel
  -- Neither has a fraction, so that their texts are ordered as they are.
  have hordered : TextOrdered 63921139200000000000 63921139201000000000 :=
    ⟨hcross, fun h => absurd h (by decide)⟩
  refine ⟨⟨filters, path, hfirst, ?_⟩, ?_, ?_⟩
  · exact ((saved_view_definitions "transfers").1 1 _ filters path hfirst).1.mpr hyears
  · exact (((saved_view_definitions "transfers").2.1 (by simp) _ _ _ out _ _ hfirst hlast hn
      hm).mpr hordered).mpr (by decide)
  · refine (saved_view_definitions "transfers").2.2 _ ?_ sampleOwner sampleAccess ⟨?_, ?_, rfl⟩
    · intro call hcall
      rw [List.mem_singleton.mp hcall]
      exact hyears
    · decide +kernel
    · decide +kernel

end LedgerSync
