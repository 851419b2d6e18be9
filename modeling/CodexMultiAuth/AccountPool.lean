import CodexMultiAuth.Manager

/-!
The pool of a running process: the accounts as objects that carry their own
index, and for each model family the active account and the round-robin cursor.
Tests of an account also delete its expired limits and cooldown, which no later
test can tell, and tests and snapshots keep its `circuitKeyId` and `_runtimeTrackerKey`
on it the first time; both are left out here.
-/
namespace CodexMultiAuth

inductive ModelFamily where
  | gpt5Codex
  | codexMax
  | codex
  | gpt52
  | gpt51
  deriving DecidableEq

def ModelFamily.name : ModelFamily → String
  | .gpt5Codex => "gpt-5-codex"
  | .codexMax => "codex-max"
  | .codex => "codex"
  | .gpt52 => "gpt-5.2"
  | .gpt51 => "gpt-5.1"

def MODEL_FAMILIES : List ModelFamily := [.gpt5Codex,.codexMax,.codex,.gpt52,.gpt51]

structure ManagedAccount where
  /-- Which object it is; JavaScript compares accounts by reference. -/
  ref : Nat
  index : Nat
  recordId : Option String := none
  accountId : Option String := none
  accountIdSource : Option String := none
  accountLabel : Option String := none
  email : Option String := none
  refreshToken : String
  /-- `enabled !== false` -/
  enabled : Bool := true
  access : Option String := none
  expires : Option ℚ := none
  addedAt : ℚ := 0
  lastUsed : ℚ := 0
  lastSwitchReason : Option String := none
  rateLimitResetTimes : OrderedMap String ℚ := []
  coolingDownUntil : Option ℚ := none
  cooldownReason : Option String := none
  authInvalidatedAt : Option ℚ := none
  authInvalidationErrorCode : Option String := none
  workspaces : Option (List Workspace) := none
  currentWorkspaceIndex : Option ℚ := none
  codexCliMirror : Option Json := none

structure AccountPool where
  accounts : List ManagedAccount
  cursorByFamily : ModelFamily → Nat
  currentAccountIndexByFamily : ModelFamily → ℤ
  pinnedAccountIndex : Option Nat

namespace AccountPool
def count (pool : AccountPool) : Nat := pool.accounts.length

def update (pool : AccountPool) (position : Nat) (change : ManagedAccount → ManagedAccount) : AccountPool :=
  { pool with accounts := pool.accounts.modify position change }

def setCursor (pool : AccountPool) (family : ModelFamily) (cursor : Nat) : AccountPool :=
  { pool with cursorByFamily := Function.update pool.cursorByFamily family cursor }

def setActive (pool : AccountPool) (family : ModelFamily) (active : ℤ) : AccountPool :=
  { pool with currentAccountIndexByFamily := Function.update pool.currentAccountIndexByFamily family active }
end AccountPool

/-- What the workspace of an account's quota is read from. -/
structure RateLimitedEntity where
  accountId : Option String
  access : Option String
  workspaces : Option (List Workspace)
  currentWorkspaceIndex : Option ℚ
  codexCliMirror : Option Json

def ManagedAccount.entity (account : ManagedAccount) : RateLimitedEntity where
  accountId := account.accountId
  access := account.access
  workspaces := account.workspaces
  currentWorkspaceIndex := account.currentWorkspaceIndex
  codexCliMirror := account.codexCliMirror

/-- What a test of an account reads outside the pool: the clock, the circuit
    breaker of each object and the workspace that an account's quota belongs to. -/
structure Runtime where
  now : ℚ
  isCircuitAvailable : Nat → Bool
  selectedQuotaWorkspace : RateLimitedEntity → Option String
  workspaceQuotaKey : String → String → String

def isEnabledWorkspace (workspace : Workspace) : Bool := decide (workspace.find "enabled" ≠ some (.bool false))

def hasEnabledWorkspaces (account : ManagedAccount) : Bool :=
  match account.workspaces with
  | none => true
  | some [] => true
  | some workspaces => workspaces.any isEnabledWorkspace

def getQuotaKey (family : ModelFamily) (model : Option String) : String :=
  match model.bind nonEmpty with
  | some model => family.name ++ ":" ++ model
  | none => family.name

def LUNA_RESERVE_MODEL : String := "gpt-reserve"

def quotaResetTime (env : Runtime) (account : ManagedAccount) (key : String) : ℚ :=
  max ((account.rateLimitResetTimes.find key).getD 0)
    (match (env.selectedQuotaWorkspace account.entity).bind nonEmpty with
    | some workspace => (account.rateLimitResetTimes.find (env.workspaceQuotaKey key workspace)).getD 0
    | none => 0)

def isRateLimitedForQuotaKey (env : Runtime) (account : ManagedAccount) (key : String) : Bool :=
  decide (env.now < quotaResetTime env account key)

def isRateLimitedForFamily (env : Runtime) (account : ManagedAccount) (family : ModelFamily) (model : Option String) : Bool :=
  if (model.bind nonEmpty).isSome ∧ isRateLimitedForQuotaKey env account (getQuotaKey family model) = true then true
  else if model = some LUNA_RESERVE_MODEL then false
  else isRateLimitedForQuotaKey env account (getQuotaKey family none)

def isAccountAuthInvalidated (account : ManagedAccount) : Bool :=
  match account.authInvalidatedAt with
  | some time => decide (0 < time)
  | none => false

def isAccountCoolingDown (env : Runtime) (account : ManagedAccount) : Bool :=
  match account.coolingDownUntil with
  | some deadline => decide (env.now < deadline)
  | none => false

def AUTH_INVALIDATION_MARKER : String := "token-invalid — re-login needed"

def getManagedAccountRuntimeSkipReason (env : Runtime) (account : ManagedAccount) (family : ModelFamily) (model : Option String) :
    Option String :=
  if account.enabled = false then some "disabled"
  else if hasEnabledWorkspaces account = false then some "workspace-disabled"
  else if isAccountAuthInvalidated account then some AUTH_INVALIDATION_MARKER
  else if isRateLimitedForFamily env account family model then some "rate-limited"
  else if isAccountCoolingDown env account then
    match account.cooldownReason.bind nonEmpty with
    | some reason => some ("cooling-down:" ++ reason)
    | none => some "cooling-down"
  else if env.isCircuitAvailable account.ref = false then some "circuit-open"
  else none

namespace AccountPool
variable (pool : AccountPool)

def getAccountByIndex (index : Nat) : Option ManagedAccount := pool.accounts[index]?

def getAccountRuntimeSkipReason (env : Runtime) (index : Nat) (family : ModelFamily) (model : Option String) : Option String :=
  match pool.getAccountByIndex index with
  | none => some "missing"
  | some account => getManagedAccountRuntimeSkipReason env account family model
end AccountPool

/-- The tests that the round-robin and the hybrid selector make of an enabled account. -/
def isAvailable (env : Runtime) (account : ManagedAccount) (family : ModelFamily) (model : Option String) : Bool :=
  !isRateLimitedForFamily env account family model && !isAccountAuthInvalidated account && !isAccountCoolingDown env account &&
    env.isCircuitAvailable account.ref

def RATE_LIMIT_CACHE_TTL_MS : ℚ := 60 * 60000

def boundRateLimitCache (times : OrderedMap String ℚ) (now : ℚ) : OrderedMap String ℚ :=
  times.map (fun entry => (entry.1,min entry.2 (now + RATE_LIMIT_CACHE_TTL_MS)))

/-- A number that is not negative, rounded down. -/
def clampNonNegativeInt (value : Option ℚ) (fallback : ℚ) : ℚ :=
  match value with
  | none => fallback
  | some value => if value < 0 then 0 else value.floor

def storedRateLimits (row : AccountMetadataV3) : OrderedMap String ℚ :=
  ((row.record "rateLimitResetTimes").getD []).filterMap (fun entry => entry.2.asNumber.map (fun value => (entry.1,value)))

section
variable [Host]

/-- The account of a stored row, with the fallback credential if it is the row's. -/
def managedAccount (now : ℚ) (auth : Option OAuthAuthDetails) (row : AccountMetadataV3) (index : Nat) : ManagedAccount where
  ref := index
  index := index
  recordId := some (resolveAccountRecordId row)
  accountId := (auth.bind OAuthAuthDetails.accountId).or row.accountId
  accountIdSource := row.text "accountIdSource"
  accountLabel := row.text "accountLabel"
  email := (auth.bind OAuthAuthDetails.email).or (sanitizeEmail row.email)
  refreshToken := (auth.map OAuthAuthDetails.refresh).getD (row.refreshToken.getD "")
  enabled := decide (row.find "enabled" ≠ some (.bool false))
  access := (auth.map OAuthAuthDetails.access).or (row.text "accessToken")
  expires := (auth.map OAuthAuthDetails.expires).or row.expiresAt
  addedAt := clampNonNegativeInt row.addedAt now
  lastUsed := clampNonNegativeInt row.lastUsed 0
  lastSwitchReason := row.text "lastSwitchReason"
  rateLimitResetTimes := boundRateLimitCache (storedRateLimits row) now
  coolingDownUntil := row.number "coolingDownUntil"
  cooldownReason := row.cooldownReason
  authInvalidatedAt := row.number "authInvalidatedAt"
  authInvalidationErrorCode := row.text "authInvalidationErrorCode"
  workspaces := row.records "workspaces"
  currentWorkspaceIndex := row.number "currentWorkspaceIndex"
  codexCliMirror := row.find "codexCliMirror"

/-- What the record id of an added credential is derived from. -/
def fallbackRow (now : ℚ) (auth : OAuthAuthDetails) : AccountMetadataV3 :=
  let row : Record := OrderedMap.assign [("addedAt",Json.num now),("refreshToken",.str auth.refresh)] "accountId" (auth.accountId.map Json.str)
  row.assign "email" (auth.email.map Json.str)

/-- The account that a fallback credential without a stored row is added as. -/
def fallbackAccount (now : ℚ) (auth : OAuthAuthDetails) (ref index : Nat) (lastUsed : ℚ) : ManagedAccount where
  ref := ref
  index := index
  recordId := some (deriveAccountRecordId (fallbackRow now auth))
  accountId := auth.accountId
  accountIdSource := auth.accountId.map (fun _ => "token")
  email := auth.email
  refreshToken := auth.refresh
  access := some auth.access
  expires := some auth.expires
  addedAt := now
  lastUsed := lastUsed
  lastSwitchReason := some "initial"

def storedIdentityRows (rows : List AccountMetadataV3) : List (AccountMetadataV3 × Nat) :=
  rows.zipIdx.filter (fun entry => hasRefreshToken entry.1)

/-- The position of the stored row that the fallback credential belongs to. The rows are
    compared without their times, so that the last of several matches counts. -/
def fallbackMatchedRowIndex (rows : List AccountMetadataV3) (auth : OAuthAuthDetails) : Option Nat :=
  (findMatchingAccountIndex ((storedIdentityRows rows).map (fun entry => entry.1.toAccountLike))
      ⟨auth.accountId,auth.email,some auth.refresh⟩ true).bind (fun i =>
    (storedIdentityRows rows)[i]?.map Prod.snd)

def loadedIndex (stored : AccountStorageV3) (count : Nat) (family : ModelFamily) : Nat :=
  let defaultIndex : ℚ := ((clampNonNegativeInt (some stored.activeIndex) 0).floor.toNat % count : Nat)
  (clampNonNegativeInt ((stored.activeIndexByFamily.getD []).find family.name) defaultIndex).floor.toNat % count

def storedPin (stored : AccountStorageV3) : Option Nat :=
  stored.pinnedAccountIndex.bind (fun pin =>
    if pin.den = 1 ∧ 0 ≤ pin.num ∧ pin.num < stored.accounts.length then some pin.num.toNat else none)

/-- The accounts that the constructor makes of stored rows. -/
def loadedAccounts (now : ℚ) (authFallback : Option OAuthAuthDetails) (rows : List AccountMetadataV3) : List ManagedAccount :=
  let matched := authFallback.bind (fallbackMatchedRowIndex rows)
  let accounts := (storedIdentityRows rows).map (fun entry =>
    managedAccount now (if matched = some entry.2 then authFallback else none) entry.1 entry.2)
  match authFallback,matched with
  | some auth,none => accounts ++ [fallbackAccount now auth rows.length accounts.length now]
  | _,_ => accounts

def newAccountPool (now : ℚ) (authFallback : Option OAuthAuthDetails) (stored : Option AccountStorageV3) : AccountPool :=
  match stored.filter (fun stored => !stored.accounts.isEmpty),authFallback with
  | some stored,_ =>
    let accounts := loadedAccounts now authFallback stored.accounts
    { accounts := accounts
      cursorByFamily := fun family => if accounts = [] then 0 else loadedIndex stored accounts.length family
      currentAccountIndexByFamily := fun family => if accounts = [] then -1 else loadedIndex stored accounts.length family
      pinnedAccountIndex := storedPin stored }
  | none,some auth =>
    { accounts := [fallbackAccount now auth 0 0 0],cursorByFamily := fun _ => 0,currentAccountIndexByFamily := fun _ => 0
      pinnedAccountIndex := stored.bind storedPin }
  | none,none =>
    { accounts := [],cursorByFamily := fun _ => 0,currentAccountIndexByFamily := fun _ => -1
      pinnedAccountIndex := stored.bind storedPin }
end

/-! ### Removing, enabling and switching -/

namespace AccountPool
variable (pool : AccountPool)

/-- The next enabled account from `start` on, around the pool; -1 if there is none. -/
def findNextEnabled (accounts : List ManagedAccount) (start : ℤ) : ℤ :=
  let count := accounts.length
  let base := (start % count).toNat
  match (List.range count).find? (fun step => (accounts[(base + step) % count]?).any ManagedAccount.enabled) with
  | some step => ((base + step) % count : Nat)
  | none => -1

def reindex (accounts : List ManagedAccount) : List ManagedAccount :=
  accounts.mapIdx (fun index account => { account with index := index })

def shiftedCursor (idx count cursor : Nat) : Nat :=
  let cursor := if idx < cursor then cursor - 1 else cursor
  if count ≤ cursor then 0 else cursor

def shiftedActive (accounts : List ManagedAccount) (idx : Nat) (active : ℤ) : ℤ :=
  let active :=
    if (idx : ℤ) < active then active - 1
    else if active = idx then findNextEnabled accounts (min idx (accounts.length - 1) : ℤ)
    else active
  if (accounts.length : ℤ) ≤ active then findNextEnabled accounts 0 else active

/-- The successors that took over for the removed account. -/
def retargetedSuccessors (accounts : List ManagedAccount) (idx : Nat) : List ℤ :=
  (MODEL_FAMILIES.filter (fun family => decide (pool.currentAccountIndexByFamily family = idx))).map (fun family =>
    shiftedActive accounts idx (pool.currentAccountIndexByFamily family))

def removeAccount (ref : Nat) : AccountPool × Bool :=
  match pool.accounts.findIdx? (fun account => account.ref == ref) with
  | none => (pool,false)
  | some idx =>
    let accounts := reindex (pool.accounts.eraseIdx idx)
    if accounts = [] then
      ({ pool with accounts := [],cursorByFamily := fun _ => 0,currentAccountIndexByFamily := fun _ => -1 },true)
    else
      ({ pool with
          accounts := accounts.mapIdx (fun index account =>
            if (index : ℤ) ∈ pool.retargetedSuccessors accounts idx then { account with lastSwitchReason := some "rotation" } else account)
          cursorByFamily := fun family => shiftedCursor idx accounts.length (pool.cursorByFamily family)
          currentAccountIndexByFamily := fun family => shiftedActive accounts idx (pool.currentAccountIndexByFamily family) },true)

def clearDisablement (workspace : Workspace) : Workspace :=
  if (workspace.find "disabledAt").isSome then (workspace.put "enabled" (.bool true)).remove "disabledAt" else workspace

/-- Undoes the disabling of workspaces at runtime, never an exclusion by the user. -/
def resetWorkspaces (account : ManagedAccount) : ManagedAccount :=
  match account.workspaces with
  | none => account
  | some [] => account
  | some workspaces =>
    let resetIndex := (workspaces.findIdx? (fun workspace => workspace.find "isDefault" == some (.bool true))).getD 0
    { account with
      workspaces := some (workspaces.map clearDisablement)
      currentWorkspaceIndex :=
        if (item workspaces (account.currentWorkspaceIndex.getD (-1))).isSome then account.currentWorkspaceIndex
        else some resetIndex }

/-- The next enabled account after `start`, not counting `start` itself. -/
def nextEnabledAfter (accounts : List ManagedAccount) (start : Nat) : Option Nat :=
  ((List.range accounts.length).filter (fun step => 1 ≤ step)).findSome? (fun step =>
    let candidate := (start + step) % accounts.length
    if (accounts[candidate]?).any ManagedAccount.enabled then some candidate else none)

def setAccountEnabled (index : ℚ) (enabled : Bool) : AccountPool :=
  match item pool.accounts index with
  | none => pool
  | some account =>
    let position := index.num.toNat
    let changed := { account with enabled := enabled }
    let accounts := pool.accounts.set position (if enabled && !account.enabled then resetWorkspaces changed else changed)
    if enabled then { pool with accounts := accounts }
    else
      match nextEnabledAfter accounts position with
      | none => { pool with accounts := accounts }
      | some next =>
        { pool with
          accounts := accounts
          currentAccountIndexByFamily := fun family =>
            if pool.currentAccountIndexByFamily family = position then next else pool.currentAccountIndexByFamily family
          cursorByFamily := fun family => if pool.cursorByFamily family = position then next else pool.cursorByFamily family }

def setActiveIndex (now : ℚ) (index : ℚ) : AccountPool :=
  match item pool.accounts index with
  | none => pool
  | some account =>
    if account.enabled = false then pool
    else
      { pool.update index.num.toNat (fun account => { account with lastUsed := now,lastSwitchReason := some "rotation" }) with
        currentAccountIndexByFamily := fun _ => index.num.toNat
        cursorByFamily := fun _ => index.num.toNat }

def markSwitched (position : Nat) (reason : String) (family : ModelFamily) : AccountPool :=
  match pool.accounts[position]? with
  | none => pool
  | some account =>
    ((pool.update position (fun account => { account with lastSwitchReason := some reason })).setActive family account.index).setCursor
      family ((account.index + 1) % pool.count)

/-- The first position around the pool from `start` on that satisfies a test. -/
def scanFrom (start : Nat) (test : ManagedAccount → Bool) : Option Nat :=
  (List.range pool.count).findSome? (fun i =>
    let idx := (start + i) % pool.count
    if (pool.accounts[idx]?).any test then some idx else none)

def isEligible (env : Runtime) (family : ModelFamily) (model : Option String) (account : ManagedAccount) : Bool :=
  account.enabled && hasEnabledWorkspaces account && isAvailable env account family model

def touch (now : ℚ) (position : Nat) : AccountPool := pool.update position (fun account => { account with lastUsed := now })

def getCurrentOrNextForFamily (env : Runtime) (family : ModelFamily) (model : Option String) : AccountPool × Option Nat :=
  match pool.scanFrom (pool.cursorByFamily family) (isEligible env family model) with
  | none => (pool,none)
  | some idx => (((pool.setCursor family ((idx + 1) % pool.count)).setActive family idx).touch env.now idx,some idx)

def getNextForFamily (env : Runtime) (family : ModelFamily) (model : Option String) : AccountPool × Option Nat :=
  match pool.scanFrom (pool.cursorByFamily family) (isEligible env family model) with
  | none => (pool,none)
  | some idx => ((pool.setCursor family ((idx + 1) % pool.count)).touch env.now idx,some idx)

def isUsable (env : Runtime) (family : ModelFamily) (model : Option String) (blockedIndexes : List Nat) (account : ManagedAccount) : Bool :=
  account.enabled && !blockedIndexes.contains account.index && hasEnabledWorkspaces account && isAvailable env account family model

def activePosition (family : ModelFamily) : Option Nat :=
  let active := pool.currentAccountIndexByFamily family
  if 0 ≤ active ∧ active < pool.count then some active.toNat else none

def getCurrentOrNextForFamilySequential (env : Runtime) (family : ModelFamily) (model : Option String) (blockedIndexes : List Nat) :
    AccountPool × Option Nat :=
  match pool.activePosition family with
  | some active =>
    if (pool.accounts[active]?).any (isUsable env family model blockedIndexes) then (pool.touch env.now active,some active)
    else
      match pool.scanFrom active (isUsable env family model blockedIndexes) with
      | none => (pool,none)
      | some idx => (((pool.setActive family idx).setCursor family ((idx + 1) % pool.count)).touch env.now idx,some idx)
  | none =>
    match pool.scanFrom 0 (isUsable env family model blockedIndexes) with
    | none => (pool,none)
    | some idx => (((pool.setActive family idx).setCursor family ((idx + 1) % pool.count)).touch env.now idx,some idx)

/-- What the hybrid score reads of an account. -/
structure AccountWithMetrics where
  index : Nat
  isAvailable : Bool
  lastUsed : ℚ

/-- The hybrid scores of the candidates, from health, tokens, time since the last
    use, boosts and the process id: floating-point numbers, of which only the order
    matters. A score that is above no other is `none`. -/
abbrev HybridScore := AccountWithMetrics → Option ℚ

def betterScore (score : HybridScore) (best : Option AccountWithMetrics) (account : AccountWithMetrics) : Option AccountWithMetrics :=
  match best,score account with
  | best,none => best
  | none,some _ => some account
  | some current,some value => if (score current).any (fun top => decide (top < value)) then some account else some current

def selectHybridAccount (score : HybridScore) (blockedAccountIndexes : List Nat) (accounts : List AccountWithMetrics) :
    Option AccountWithMetrics :=
  match accounts.filter (fun account => account.isAvailable && !blockedAccountIndexes.contains account.index) with
  | [] => none
  | [only] => some only
  | available => available.foldl (betterScore score) none

def accountsWithMetrics (env : Runtime) (family : ModelFamily) (model : Option String) : List AccountWithMetrics :=
  (pool.accounts.filter (fun account => account.enabled && hasEnabledWorkspaces account)).map (fun account =>
    { index := account.index,isAvailable := isAvailable env account family model,lastUsed := account.lastUsed })

/-- The winner is looked up by its index, and its own index is stored. -/
def getCurrentOrNextForFamilyHybrid (env : Runtime) (family : ModelFamily) (model : Option String) (score : HybridScore)
    (blockedAccountIndexes : List Nat) : AccountPool × Option Nat :=
  match selectHybridAccount score blockedAccountIndexes (pool.accountsWithMetrics env family model) with
  | none => (pool,none)
  | some selected =>
    match pool.accounts[selected.index]? with
    | none => (pool,none)
    | some account =>
      (((pool.setActive family account.index).setCursor family ((account.index + 1) % pool.count)).touch env.now selected.index,
        some selected.index)
end AccountPool

end CodexMultiAuth
