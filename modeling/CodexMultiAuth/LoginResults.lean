import CodexMultiAuth.AccountPool
import CodexMultiAuth.Upserts

/-!
How a login is folded into the stored accounts. The login of the plugin host and the
login of the command line each have their own fold; both match a result among the
accounts as the results before it have left them.
-/
namespace CodexMultiAuth.LoginResults

abbrev Change (α : Type) := Option (Option α)

structure TokenSuccessWithAccount where
  access : String
  refresh : String
  expires : ℚ
  idToken : Option String := none
  accountIdOverride : Option String := none
  accountIdSource : Option String := none
  accountLabel : Option String := none
  workspaces : Option (List Workspace) := none
  codexCliMirror : Change Record := none

structure ResolvedAccountWrite where
  accountId : Option String := none
  accountIdSource : Option String := none
  accountLabel : Option String := none
  email : Option String := none
  refreshToken : String
  accessToken : Option String := none
  expiresAt : Option ℚ := none
  workspaces : Option (List Workspace) := none
  codexCliMirror : Change Record := none
  preserveEnabledState : Bool := false
  now : ℚ

/-- What is read of tokens. -/
structure Claims where
  extractAccountId : String → Option String
  extractAccountEmail : String → Option String → Option String

def workspaceItems (workspaces : List Workspace) : Json := .arr (workspaces.map Json.obj)

def workspacesOf (account : AccountMetadataV3) : Option (List Workspace) := account.records "workspaces"

def currentWorkspaceId (account : AccountMetadataV3) : Option String :=
  (workspacesOf account).bind (fun workspaces =>
    (item workspaces ((account.number "currentWorkspaceIndex").getD 0)).bind (fun workspace => workspace.id.bind nonEmpty))

def isDefault (workspace : Workspace) : Bool := decide (workspace.find "isDefault" = some (.bool true))

def nextMirror (change : Change Record) (account : AccountMetadataV3) : Option Json :=
  match change with
  | some none => none
  | some (some mirror) => some (.obj mirror)
  | none => account.find "codexCliMirror"

/-! ### The command line -/

def pickInitialWorkspaceIndex (workspaces : List Workspace) (accountId : Option String) : ℕ :=
  match (accountId.bind nonEmpty).bind (fun id => workspaces.findIdx? (fun workspace => decide (workspace.id = some id))) with
  | some matching => matching
  | none => (workspaces.findIdx? isEnabledWorkspace).getD 0

def mergeAccountWorkspaces (existing : AccountMetadataV3) (incoming : List Workspace) : List Workspace :=
  incoming.map (fun newWs =>
    match ((workspacesOf existing).getD []).find? (fun w => decide (w.id = newWs.id)) with
    | some existingWs => (newWs.assign "enabled" (existingWs.find "enabled")).assign "disabledAt" (existingWs.find "disabledAt")
    | none => newWs)

def resolveCurrentWorkspaceIndex (existing : AccountMetadataV3) (mergedWorkspaces : Option (List Workspace)) : Option Json :=
  match mergedWorkspaces with
  | none => existing.find "currentWorkspaceIndex"
  | some [] => existing.find "currentWorkspaceIndex"
  | some (first :: rest) =>
    let merged := first :: rest
    match (currentWorkspaceId existing).bind (fun id => merged.findIdx? (fun workspace => decide (workspace.id = some id))) with
    | some matching => some (.num matching)
    | none =>
      match merged.findIdx? isDefault with
      | some defaultIndex => some (.num defaultIndex)
      | none => some (.num ((merged.findIdx? isEnabledWorkspace).getD 0 : ℕ))

inductive AccountPoolWriteOutcome where
  | inserted
  | updated
  | rebound
  deriving DecidableEq

def insertedWorkspaceIndex (workspaces : Option (List Workspace)) (accountId : Option String) : Option ℕ :=
  match workspaces with
  | none => none
  | some [] => none
  | some (first :: rest) => some (pickInitialWorkspaceIndex (first :: rest) accountId)

def buildInsertedAccount (write : ResolvedAccountWrite) : AccountMetadataV3 :=
  let initialWorkspaceIndex := insertedWorkspaceIndex write.workspaces write.accountId
  let identified : Record :=
    (((OrderedMap.assign [] "accountId" (write.accountId.map .str)).assign "accountIdSource" (write.accountIdSource.map .str)).assign "accountLabel"
      (write.accountLabel.map .str)).assign "email" (write.email.map .str)
  let credential : Record :=
    ((identified.put "refreshToken" (.str write.refreshToken)).assign "accessToken" (write.accessToken.map .str)).assign "expiresAt"
      (write.expiresAt.map .num)
  let valid : Record := ((credential.put "enabled" (.bool true)).remove "authInvalidatedAt").remove "authInvalidationErrorCode"
  let dated : Record := (valid.put "addedAt" (.num write.now)).put "lastUsed" (.num write.now)
  let placed : Record :=
    (dated.assign "workspaces" (write.workspaces.map workspaceItems)).assign "currentWorkspaceIndex"
      (initialWorkspaceIndex.map (fun index : ℕ => .num index))
  match write.codexCliMirror.join with
  | some mirror => placed.put "codexCliMirror" (.obj mirror)
  | none => placed

def buildUpdatedAccount (existing : AccountMetadataV3) (write : ResolvedAccountWrite) : AccountMetadataV3 :=
  let nextAccountIdSource : Option Json :=
    if (write.accountId.bind nonEmpty).isSome then (write.accountIdSource.map .str).or (existing.find "accountIdSource")
    else existing.find "accountIdSource"
  let mergedWorkspaces := write.workspaces.map (mergeAccountWorkspaces existing)
  let identified : Record :=
    (((existing.assign "accountId" ((write.accountId.map .str).or (existing.find "accountId"))).assign "accountIdSource" nextAccountIdSource).assign
      "accountLabel" ((write.accountLabel.map .str).or (existing.find "accountLabel"))).assign "email"
        ((write.email.map .str).or (existing.find "email"))
  let credential : Record :=
    ((identified.put "refreshToken" (.str write.refreshToken)).assign "accessToken" (write.accessToken.map .str)).assign "expiresAt"
      (write.expiresAt.map .num)
  let enabled : Record :=
    credential.assign "enabled" (if write.preserveEnabledState then existing.find "enabled" else some (.bool true))
  let valid : Record := (enabled.remove "authInvalidatedAt").remove "authInvalidationErrorCode"
  let placed : Record :=
    ((valid.put "lastUsed" (.num write.now)).assign "workspaces" ((mergedWorkspaces.map workspaceItems).or (existing.find "workspaces"))).assign
      "currentWorkspaceIndex" (resolveCurrentWorkspaceIndex existing (mergedWorkspaces.or (workspacesOf existing)))
  placed.assign "codexCliMirror" (nextMirror write.codexCliMirror existing)

/-- Whether an update brings a workspace that the account did not have, having had some. -/
def updateOutcome (existing : AccountMetadataV3) (write : ResolvedAccountWrite) : AccountPoolWriteOutcome :=
  let previousWorkspaceIds := ((workspacesOf existing).getD []).map Workspace.id
  let introducedNewWorkspace :=
    !previousWorkspaceIds.isEmpty && (write.workspaces.getD []).any (fun workspace => !previousWorkspaceIds.contains workspace.id)
  if introducedNewWorkspace then .rebound else .updated

section
variable [Host]

def applyUpsert : Upsert AccountMetadataV3 ResolvedAccountWrite where
  find accounts write := findMatchingAccountIndex accounts ⟨write.accountId,write.email,write.refreshToken⟩ true
  insert := buildInsertedAccount
  update := buildUpdatedAccount

structure PoolWrite where
  accounts : List AccountMetadataV3
  selectedAccountIndex : Option ℕ := none
  selectedOutcome : Option AccountPoolWriteOutcome := none

def applyWrite (pool : PoolWrite) (write : ResolvedAccountWrite) : PoolWrite :=
  match applyUpsert.find pool.accounts write with
  | none => ⟨pool.accounts ++ [buildInsertedAccount write],some pool.accounts.length,some .inserted⟩
  | some existingIndex =>
    match pool.accounts[existingIndex]? with
    | none => pool
    | some existing =>
      ⟨pool.accounts.set existingIndex (buildUpdatedAccount existing write),some existingIndex,some (updateOutcome existing write)⟩

structure AppliedPool where
  accounts : List AccountMetadataV3
  activeIndex : ℚ
  outcome : Option AccountPoolWriteOutcome

def clamped (index : ℚ) (accounts : List AccountMetadataV3) : ℚ := max 0 (min index ((accounts.length : ℚ) - 1))

def applyAccountPoolResults (existing : List AccountMetadataV3) (writes : List ResolvedAccountWrite) (priorActiveIndex : Option ℚ) : AppliedPool :=
  let pool := writes.foldl applyWrite ⟨existing,none,none⟩
  { accounts := pool.accounts
    activeIndex :=
      if pool.accounts.isEmpty then 0
      else
        match pool.selectedAccountIndex with
        | none => clamped (priorActiveIndex.getD 0) pool.accounts
        | some selected => clamped selected pool.accounts
    outcome := pool.selectedOutcome }

/-! ### The plugin host -/

/-- The identity that a result logs in to. -/
structure Resolved where
  accountId : Option String
  accountIdSource : Option String
  accountEmail : Option String

def resolveResult (claims : Claims) (result : TokenSuccessWithAccount) : Resolved :=
  let accountId := result.accountIdOverride.or (claims.extractAccountId result.access)
  { accountId
    accountIdSource :=
      if (accountId.bind nonEmpty).isSome then
        result.accountIdSource.or (some (if (result.accountIdOverride.bind nonEmpty).isSome then "manual" else "token"))
      else none
    accountEmail := sanitizeEmail (claims.extractAccountEmail result.access result.idToken) }

def initialWorkspaceIndex (workspaces : Option (List Workspace)) (accountId : Option String) : Option ℕ :=
  match workspaces with
  | none => none
  | some [] => none
  | some (first :: rest) =>
    let matching := (accountId.bind nonEmpty).bind (fun id => (first :: rest).findIdx? (fun workspace => decide (workspace.id = some id)))
    some ((matching.or ((first :: rest).findIdx? isEnabledWorkspace)).getD 0)

def persistInsert (claims : Claims) (now : ℚ) (result : TokenSuccessWithAccount) : AccountMetadataV3 :=
  let resolved := resolveResult claims result
  let identified : Record :=
    (((OrderedMap.assign [] "accountId" (resolved.accountId.map .str)).assign "accountIdSource" (resolved.accountIdSource.map .str)).assign
      "accountLabel" (result.accountLabel.map .str)).assign "email" (resolved.accountEmail.map .str)
  let credential : Record :=
    ((identified.put "refreshToken" (.str result.refresh)).put "accessToken" (.str result.access)).put "expiresAt" (.num result.expires)
  let dated : Record := (credential.put "addedAt" (.num now)).put "lastUsed" (.num now)
  let placed : Record :=
    (dated.assign "workspaces" (result.workspaces.map workspaceItems)).assign "currentWorkspaceIndex"
      ((initialWorkspaceIndex result.workspaces resolved.accountId).map (fun index : ℕ => .num index))
  match result.codexCliMirror.join with
  | some mirror => placed.put "codexCliMirror" (.obj mirror)
  | none => placed

def mergedWorkspaces (existing : AccountMetadataV3) (workspaces : Option (List Workspace)) : Option (List Workspace) :=
  match workspaces with
  | none => workspacesOf existing
  | some incoming =>
    some (incoming.map (fun newWs =>
      match ((workspacesOf existing).getD []).find? (fun w => decide (w.id = newWs.id)) with
      | some existingWs => (newWs.assign "enabled" (existingWs.find "enabled")).assign "disabledAt" (existingWs.find "disabledAt")
      | none => newWs))

def nextCurrentWorkspaceIndex (existing : AccountMetadataV3) (mergedWorkspaces : Option (List Workspace)) : Option Json :=
  match mergedWorkspaces with
  | none => existing.find "currentWorkspaceIndex"
  | some [] => existing.find "currentWorkspaceIndex"
  | some (first :: rest) =>
    let merged := first :: rest
    let kept := (currentWorkspaceId existing).bind (fun id => merged.findIdx? (fun workspace => decide (workspace.id = some id)))
    some (.num (((kept.or (merged.findIdx? isDefault)).or (merged.findIdx? isEnabledWorkspace)).getD 0 : ℕ))

def persistUpdate (claims : Claims) (now : ℚ) (existing : AccountMetadataV3) (result : TokenSuccessWithAccount) : AccountMetadataV3 :=
  let resolved := resolveResult claims result
  let nextEmail := resolved.accountEmail.or (sanitizeEmail existing.email)
  let nextAccountIdSource : Option Json :=
    if (resolved.accountId.bind nonEmpty).isSome then (resolved.accountIdSource.map .str).or (existing.find "accountIdSource")
    else existing.find "accountIdSource"
  let merged := mergedWorkspaces existing result.workspaces
  let identified : Record :=
    (((existing.assign "accountId" ((resolved.accountId.map .str).or (existing.find "accountId"))).assign "accountIdSource" nextAccountIdSource).assign
      "accountLabel" ((result.accountLabel.map .str).or (existing.find "accountLabel"))).assign "email" (nextEmail.map .str)
  let credential : Record :=
    ((identified.put "refreshToken" (.str result.refresh)).put "accessToken" (.str result.access)).put "expiresAt" (.num result.expires)
  let placed : Record :=
    ((credential.put "lastUsed" (.num now)).assign "workspaces"
      (if result.workspaces.isSome then merged.map workspaceItems else existing.find "workspaces")).assign "currentWorkspaceIndex"
        (nextCurrentWorkspaceIndex existing merged)
  placed.assign "codexCliMirror" (nextMirror result.codexCliMirror existing)

def persistUpsert (claims : Claims) (now : ℚ) : Upsert AccountMetadataV3 TokenSuccessWithAccount where
  find accounts result :=
    let resolved := resolveResult claims result
    findMatchingAccountIndex accounts ⟨resolved.accountId,resolved.accountEmail,result.refresh⟩ true
  insert := persistInsert claims now
  update := persistUpdate claims now

/-- What is persisted, if anything is. -/
def persistAccountPoolResults (claims : Claims) (now : ℚ) (replaceAll : Bool) (modelFamilies : List ModelFamily)
    (loadedStorage : Option AccountStorageV3) (results : List TokenSuccessWithAccount) : Option AccountStorageV3 :=
  if results.isEmpty then none
  else
    let stored := if replaceAll then none else loadedStorage
    let accounts := (persistUpsert claims now).fold ((stored.map AccountStorageV3.accounts).getD []) results
    if accounts.isEmpty then none
    else
      let clampedActiveIndex := clamped (if replaceAll then 0 else (stored.map AccountStorageV3.activeIndex).getD 0) accounts
      let familyIndex (family : ModelFamily) : ℚ :=
        let storedFamilyIndex := (stored.bind AccountStorageV3.activeIndexByFamily).bind (fun byFamily => byFamily.find family.name)
        let rawFamilyIndex := if replaceAll then 0 else storedFamilyIndex.getD clampedActiveIndex
        clamped (rawFamilyIndex.floor : ℤ) accounts
      some
        { accounts
          activeIndex := clampedActiveIndex
          activeIndexByFamily := some (modelFamilies.map (fun family => (family.name,familyIndex family)))
          fields := [("version",.num 3)] }

/-- A result as the command line folds it in. -/
def resolvedWrite (claims : Claims) (now : ℚ) (result : TokenSuccessWithAccount) : ResolvedAccountWrite :=
  let resolved := resolveResult claims result
  { accountId := resolved.accountId
    accountIdSource := resolved.accountIdSource
    accountLabel := result.accountLabel
    email := resolved.accountEmail
    refreshToken := result.refresh
    accessToken := some result.access
    expiresAt := some result.expires
    workspaces := result.workspaces
    codexCliMirror := result.codexCliMirror
    now }

end
end CodexMultiAuth.LoginResults
