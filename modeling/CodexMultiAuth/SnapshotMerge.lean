import CodexMultiAuth.Identity

/-!
Three-way persistence of the account document: what the writer read, what is on
disk now, and what the writer proposes. User-owned fields conflict when both
sides changed them differently; runtime observations commute; the inventory and
the pointers are merged by identity, never by position.
-/
namespace CodexMultiAuth
open OrderedMap

def conflict : StorageError := ⟨"Account storage changed concurrently; reload before saving.","ESTALE"⟩

/-- The rule for a value, given the rule for the fields of objects. -/
def mergeLevel (fields : Option Json → Option Json → Option Json → Except StorageError (Option Json))
    (base disk loc : Option Json) : Except StorageError (Option Json) :=
  if base = loc ∨ disk = loc then .ok disk
  else if base = disk then .ok loc
  else
    match base.or (some (.obj [])), disk, loc with
    | some (.obj b), some (.obj d), some (.obj l) =>
      match build (fun k => fields (find b k) (find d k) (find l k))
          (unionKeys [keys b,keys d,keys l]) with
      | .error e => .error e
      | .ok result => .ok (some (.obj result))
    | _, _, _ => .error conflict

def mergeValueTo : Nat → Option Json → Option Json → Option Json → Except StorageError (Option Json)
  | 0 => mergeLevel (fun _ _ _ => .error conflict)
  | depth + 1 => mergeLevel (mergeValueTo depth)

/-- The merge descends as deep as the disk's value does (`mergeValue_eq`). -/
def mergeValue (base disk loc : Option Json) : Except StorageError (Option Json) :=
  mergeValueTo ((disk.map Json.depth).getD 0) base disk loc

/-- The merge of three objects. -/
def mergeRecord (base disk loc : Record) : Except StorageError Record :=
  match mergeValue (some (.obj base)) (some (.obj disk)) (some (.obj loc)) with
  | .error e => .error e
  | .ok merged => .ok ((merged.bind Json.asRecord).getD [])

/-- The last row of each id, in the order of the first. -/
def byId (rows : List Workspace) : OrderedMap (Option String) Workspace :=
  rows.foldl (fun map row => map.put row.id row) []

/-- Whether a workspace is in use, as one unit. -/
def workspaceState (row : Workspace) : Option Json × Option Json := (row.find "enabled",row.find "disabledAt")

def isEnabled (row : Workspace) : Bool := decide (row.find "enabled" ≠ some (.bool false))

/-- The side whose state is kept when both have the workspace. -/
def stateSource (base : Option Workspace) (disk loc : Workspace) : Workspace :=
  let before := (base.map workspaceState).getD (none,none)
  if before = workspaceState loc then disk
  else if before = workspaceState disk then loc
  else if isEnabled disk then disk
  else if isEnabled loc then loc
  else if disk.find "disabledAt" = none then disk
  else if loc.find "disabledAt" = none then loc
  else if (loc.number "disabledAt").getD 0 ≤ (disk.number "disabledAt").getD 0 then disk
  else loc

def withState (source row : Workspace) : Workspace :=
  (row.assign "enabled" (source.find "enabled")).assign "disabledAt" (source.find "disabledAt")

def mergeWorkspace (base disk loc : Option Workspace) : Except StorageError (Option Workspace) :=
  match disk, loc with
  | some d, some l =>
    let source := stateSource base d l
    match mergeValue (base.map (fun b => .obj (withState source b))) (some (.obj (withState source d)))
        (some (.obj (withState source l))) with
    | .error e => .error e
    | .ok merged => .ok (merged.bind Json.asRecord)
  -- Present on one side only: an addition survives, a removal wins.
  | _, _ => .ok (if base.isNone then disk.or loc else none)

def AccountMetadataV3.workspaces (row : AccountMetadataV3) : Option (List Workspace) := row.records "workspaces"

def currentWorkspaceId (row : AccountMetadataV3) : Option String :=
  (row.workspaces.bind (fun rows => item rows ((row.number "currentWorkspaceIndex").getD 0))).bind Workspace.id

def mergeWorkspaceRows (base disk loc : AccountMetadataV3) : Except StorageError (List Workspace) :=
  let before := byId (base.workspaces.getD [])
  let onDisk := byId (disk.workspaces.getD [])
  let next := byId (loc.workspaces.getD [])
  collect (fun id => mergeWorkspace (before.find id) (onDisk.find id) (next.find id))
    (onDisk.keys ++ next.keys.filter (fun id => !onDisk.keys.contains id && !before.keys.contains id))

/-- The selected workspace's position among the merged ones: the side that
    changed it decides, and where it is gone an enabled one is taken. -/
def mergeWorkspaceSelection (base disk loc : AccountMetadataV3) (workspaces : List Workspace) : Option Nat :=
  let chosen := if currentWorkspaceId loc ≠ currentWorkspaceId base then currentWorkspaceId loc else currentWorkspaceId disk
  let index := (workspaces.findIdx? (fun row => decide (row.id = chosen))).getD ((workspaces.findIdx? isEnabled).getD 0)
  let untracked := [base,disk,loc].all (fun row => (row.find "currentWorkspaceIndex").isNone)
  if untracked ∧ index = 0 then none else some index

def numberOrZero (value : Option Json) : ℚ := (value.bind Json.asNumber).getD 0

structure CooldownRow where
  coolingDownUntil : Option Json
  cooldownReason : Option Json
  refreshToken : Option Json
  deriving DecidableEq

def cooldownRow (row : AccountMetadataV3) : CooldownRow :=
  ⟨row.find "coolingDownUntil",row.find "cooldownReason",row.find "refreshToken"⟩

/-- The deadline and the reason that are kept. An auth failure goes with the
    credential it was recorded against. -/
def mergeAccountCooldown (base disk loc : CooldownRow) : Option Json × Option Json :=
  let keptToken := if loc.refreshToken = base.refreshToken then disk.refreshToken else loc.refreshToken
  let current := fun row : CooldownRow =>
    if row.cooldownReason = some (.str "auth-failure") ∧ row.refreshToken ≠ keptToken then
      { row with coolingDownUntil := none,cooldownReason := none }
    else row
  let disk := current disk
  let loc := current loc
  let cleared := base.coolingDownUntil ≠ none ∧
    ((disk.coolingDownUntil = none ∧ (loc.coolingDownUntil = none ∨ loc.coolingDownUntil = base.coolingDownUntil)) ∨
      (loc.coolingDownUntil = none ∧ disk.coolingDownUntil = base.coolingDownUntil))
  let cooldown := if numberOrZero loc.coolingDownUntil ≤ numberOrZero disk.coolingDownUntil then disk else loc
  if cleared then (none,none) else (cooldown.coolingDownUntil,cooldown.cooldownReason)

def AccountMetadataV3.rateLimitResetTimes (row : AccountMetadataV3) : Record := (row.record "rateLimitResetTimes").getD []

/-- The deadline that is kept for one key. An explicit clear is an operation, and
    a side that kept the baseline made no observation. -/
def mergeRateLimit (before disk loc : Option Json) : Option Json :=
  let clear := before ≠ none ∧ ((disk = none ∧ loc = before) ∨ (loc = none ∧ disk = before) ∨ (disk = none ∧ loc = none))
  if clear then none
  else if disk = before then loc
  else if loc = before then disk
  else some (.num (max (numberOrZero disk) (numberOrZero loc)))

def mergeRateLimits (base disk loc : Record) : Record :=
  (unionKeys [disk.keys,loc.keys]).filterMap (fun k =>
    (mergeRateLimit (base.find k) (disk.find k) (loc.find k)).map (fun value => (k,value)))

/-- Omitted and true both mean enabled. -/
def normalizedEnabled (row : AccountMetadataV3) : AccountMetadataV3 :=
  row.assign "enabled" (if row.find "enabled" = some (.bool false) then some (.bool false) else none)

/-- The merged observations, laid over a side. -/
structure RuntimeFields where
  rateLimitResetTimes : Option Json
  coolingDownUntil : Option Json
  cooldownReason : Option Json
  lastSwitchReason : Option Json
  workspaces : Option (List Workspace × Option Nat)

def RuntimeFields.overlay (runtime : RuntimeFields) (row : AccountMetadataV3) : AccountMetadataV3 :=
  let observed : Record :=
    (((row.assign "rateLimitResetTimes" runtime.rateLimitResetTimes).assign "coolingDownUntil" runtime.coolingDownUntil).assign
      "cooldownReason" runtime.cooldownReason).assign "lastSwitchReason" runtime.lastSwitchReason
  match runtime.workspaces with
  | none => observed
  | some (workspaces,selected) =>
    (observed.put "workspaces" (.arr (workspaces.map Json.obj))).assign "currentWorkspaceIndex"
      (selected.map (fun index => .num index))

def mergeRuntimeFields (base disk loc : AccountMetadataV3) : Except StorageError RuntimeFields :=
  let limits := mergeRateLimits base.rateLimitResetTimes disk.rateLimitResetTimes loc.rateLimitResetTimes
  let cooldown := mergeAccountCooldown (cooldownRow base) (cooldownRow disk) (cooldownRow loc)
  let runtime := fun workspaces =>
    (⟨if limits.isEmpty then none else some (.obj limits),cooldown.1,cooldown.2,
      (loc.find "lastSwitchReason").or (disk.find "lastSwitchReason"),workspaces⟩ : RuntimeFields)
  if disk.workspaces.isSome ∨ loc.workspaces.isSome then
    match mergeWorkspaceRows base disk loc with
    | .error e => .error e
    | .ok workspaces => .ok (runtime (some (workspaces,mergeWorkspaceSelection base disk loc workspaces)))
  else .ok (runtime none)

/-- Runtime observations commute; user-owned edits retain conflict detection. -/
def mergeRuntimeAccount (base disk loc : AccountMetadataV3) : Except StorageError AccountMetadataV3 :=
  match mergeRuntimeFields base disk loc with
  | .error e => .error e
  | .ok runtime =>
    mergeRecord (normalizedEnabled base) (runtime.overlay (normalizedEnabled disk)) (runtime.overlay (normalizedEnabled loc))

section
variable [Host]

def storedRecordId (row : AccountMetadataV3) : Option String := row.recordId.bind nonEmpty

def aliasIds (rows : List AccountMetadataV3) (key : String) : List String :=
  (rows.filterMap (fun row => if getAccountIdentityKey row = some key then storedRecordId row else none)).eraseDups

/-- A row's identity among all rows of the merge: its record id, or the only
    record id that its identity key stands for, or the key. -/
def rowIdentity (rows : List AccountMetadataV3) (row : AccountMetadataV3) : Option String :=
  (storedRecordId row).or
    ((getAccountIdentityKey row).map (fun key =>
      match aliasIds rows key with
      | [id] => id
      | _ => key))

/-- The rows by identity; a row without one, or one that occurs twice, conflicts. -/
def indexRows (identity : AccountMetadataV3 → Option String) :
    List AccountMetadataV3 → OrderedMap String AccountMetadataV3 → Except StorageError (OrderedMap String AccountMetadataV3)
  | [], map => .ok map
  | row :: rest, map =>
    match identity row with
    | none => .error conflict
    | some key => if map.keys.contains key then .error conflict else indexRows identity rest (map ++ [(key,row)])

/-- One account of the disk's inventory. -/
def mergeDiskAccount (old proposed : OrderedMap String AccountMetadataV3) (entry : String × AccountMetadataV3) :
    Except StorageError (Option AccountMetadataV3) :=
  match old.find entry.1, proposed.find entry.1 with
  -- Explicit local removal of a previously known record.
  | some _, none => .ok none
  | none, none => .ok (some entry.2)
  | none, some next => if entry.2 ≠ next then .error conflict else .ok (some entry.2)
  | some prior, some next =>
    let lastUsed : Json := .num (max (entry.2.lastUsed.getD 0) (next.lastUsed.getD 0))
    match mergeRuntimeAccount prior (entry.2.put "lastUsed" lastUsed) (next.put "lastUsed" lastUsed) with
    | .error e => .error e
    | .ok merged => .ok (some merged)

def mergeAccounts (old disk proposed : OrderedMap String AccountMetadataV3) : Except StorageError (List AccountMetadataV3) :=
  match collect (mergeDiskAccount old proposed) disk with
  | .error e => .error e
  | .ok accounts =>
    .ok (accounts ++
      (proposed.filter (fun entry => !old.keys.contains entry.1 && !disk.keys.contains entry.1)).map Prod.snd)

/-- Who an index of a document points at. -/
def pointer (identity : AccountMetadataV3 → Option String) (storage : AccountStorageV3) (value : Option ℚ) : Option String :=
  (value.bind (item storage.accounts)).bind identity

/-- Where somebody is among the merged accounts, -1 when nowhere. -/
def position (identity : AccountMetadataV3 → Option String) (accounts : List AccountMetadataV3) (id : Option String) : Option ℤ :=
  id.map (fun id =>
    match accounts.findIdx? (fun row => decide (identity row = some id)) with
    | none => -1
    | some i => (i : ℤ))

/-- The merged position of a pointer: the side that changed it decides. -/
def pick (identity : AccountMetadataV3 → Option String) (accounts : List AccountMetadataV3)
    (base current loc : AccountStorageV3) (before onDisk next : Option ℚ) : Option ℤ :=
  let oldId := pointer identity base before
  let localId := pointer identity loc next
  position identity accounts (if localId ≠ oldId then localId else pointer identity current onDisk)

def familyIndex (storage : AccountStorageV3) (family : String) : Option ℚ :=
  storage.activeIndexByFamily.bind (fun map => map.find family)

def familyKeys (storage : AccountStorageV3) : List String := keys (storage.activeIndexByFamily.getD [])

/-- A pick as an index that has to denote some account. -/
def pickedIndex (picked : Option ℤ) : ℚ := ((max 0 (picked.getD 0) : ℤ) : ℚ)

/-- A pick as an index that may be absent. -/
def pickedPin (picked : Option ℤ) : Option ℚ := picked.bind (fun index => if 0 ≤ index then some (index : ℚ) else none)

def mergeIdentity (base current loc : AccountStorageV3) : AccountMetadataV3 → Option String :=
  rowIdentity (base.accounts ++ current.accounts ++ loc.accounts)

/-- The merge of three documents that are all there. -/
def mergeDocuments (base current loc : AccountStorageV3) : Except StorageError AccountStorageV3 :=
  let identity := mergeIdentity base current loc
  match indexRows identity base.accounts [], indexRows identity current.accounts [], indexRows identity loc.accounts [] with
  | .ok old, .ok disk, .ok proposed =>
    match mergeAccounts old disk proposed, mergeRecord base.fields current.fields loc.fields with
    | .ok accounts, .ok fields =>
      let picked := pick identity accounts base current loc
      .ok
        { accounts := accounts
          activeIndex := pickedIndex (picked (some base.activeIndex) (some current.activeIndex) (some loc.activeIndex))
          activeIndexByFamily :=
            some ((unionKeys [familyKeys base,familyKeys current,familyKeys loc]).map (fun family =>
              (family,pickedIndex (picked (familyIndex base family) (familyIndex current family) (familyIndex loc family)))))
          pinnedAccountIndex := pickedPin (picked base.pinnedAccountIndex current.pinnedAccountIndex loc.pinnedAccountIndex)
          fields := fields }
    | _, _ => .error conflict
  | _, _, _ => .error conflict

def emptyStorage : AccountStorageV3 where
  accounts := []
  activeIndex := 0
  fields := [("version",.num 3)]

/-- Three-way persistence under the file lock. An unavailable initial read is not
    authority to replace the inventory. -/
def mergeAccountSnapshot (base current : Option AccountStorageV3) (loc : AccountStorageV3) :
    Except StorageError AccountStorageV3 :=
  match base, current with
  | none, none => .ok loc
  | base, current =>
    let base := base.getD emptyStorage
    match current with
    | some current => mergeDocuments base current loc
    | none =>
      if base.accounts.length = 0 ∧ base.restoreReason = some "missing-storage" then mergeDocuments base emptyStorage loc
      else .error conflict

/-- Whether two rows are one account to the fallback. -/
def observationMatches (a b : AccountMetadataV3) : Bool :=
  match storedRecordId a, storedRecordId b with
  | some x, some y => decide (x = y)
  | _, _ => decide (getAccountIdentityKey a = getAccountIdentityKey b)

/-- A workspace with the state of the same workspace elsewhere. -/
def observeWorkspace (next : List Workspace) (workspace : Workspace) : Workspace :=
  match next.find? (fun row => decide (row.id = workspace.id)) with
  | none => workspace
  | some updated => withState updated workspace

/-- A row with the observations of another copy of its account. -/
def observeAccount (prior next : AccountMetadataV3) : AccountMetadataV3 :=
  let used := prior.put "lastUsed" (.num (max (prior.lastUsed.getD 0) (next.lastUsed.getD 0)))
  let observed : AccountMetadataV3 := ["rateLimitResetTimes","coolingDownUntil","cooldownReason","lastSwitchReason"].foldl
    (fun row field => row.assign field (next.find field)) used
  match prior.workspaces with
  | none => observed
  | some workspaces =>
    observed.put "workspaces" (.arr (workspaces.map (fun workspace => .obj (observeWorkspace (next.workspaces.getD []) workspace))))

/-- The base with the observations of the proposed rows. -/
def observedBase (base loc : AccountStorageV3) : AccountStorageV3 :=
  { base with
    accounts := base.accounts.map (fun prior =>
      match loc.accounts.find? (observationMatches prior) with
      | none => prior
      | some next => observeAccount prior next) }

/-- Saves observations independently of unresolved user edits; the inventory stays the disk's. -/
def mergeAccountRuntimeObservations (base current loc : AccountStorageV3) : Except StorageError AccountStorageV3 :=
  mergeAccountSnapshot (some base) (some current) (observedBase base loc)

end
end CodexMultiAuth
