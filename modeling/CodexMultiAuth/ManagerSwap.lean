import CodexMultiAuth.CredentialReload
import CodexMultiAuth.SessionAffinity
import CodexMultiAuth.Runs

/-!
A proxy that replaces its account manager while requests are under way. Every
replacement leaves a redirect from the manager before it, and a request that
waited for a token follows the redirects to the row its account has become. The
sticky state (the affinity of sessions and the account that was used last) holds
indexes of accounts; what a request writes there when it succeeds is the index
that its account object carries.
-/
namespace CodexMultiAuth.ManagerSwap
open SessionAffinity (Text SessionAffinityStore normalizeSessionKey)

/-- An account manager: its rows, each with its own index, and the storage they came from. -/
structure AccountManager where
  accounts : List ManagedAccount
  persistenceBaseline : Option AccountStorageV3
  placed : ∀ (position : Nat) (account : ManagedAccount), accounts[position]? = some account → account.index = position

def AccountManager.new (rows : List ManagedAccount) (persistenceBaseline : Option AccountStorageV3) : AccountManager where
  accounts := rows.mapIdx (fun position row => { row with index := position })
  persistenceBaseline
  placed := by
    intro position account here
    rw [List.getElem?_mapIdx] at here
    obtain ⟨row,_,rfl⟩ := Option.map_eq_some_iff.mp here
    rfl

/-- A change in place: an account keeps its index. -/
def inPlace (update : ManagedAccount → ManagedAccount) (account : ManagedAccount) : ManagedAccount :=
  { update account with index := account.index }

def AccountManager.change (manager : AccountManager) (position : Nat) (update : ManagedAccount → ManagedAccount) : AccountManager where
  accounts := manager.accounts.modify position (inPlace update)
  persistenceBaseline := manager.persistenceBaseline
  placed := by
    intro other account here
    rw [List.getElem?_modify] at here
    obtain ⟨before,found,rfl⟩ := Option.map_eq_some_iff.mp here
    have index := manager.placed other before found
    split <;> exact index

/-- A request under way: the manager it goes by, the row of the account it
    chose there, and whether that row has been brought up to date for sending. -/
structure Request where
  sessionKey : Option Text
  accountManager : Nat
  account : Option Nat := none
  refreshed : Bool := false

/-- The proxy. Managers are numbered in the order they were published. -/
structure RotationProxyState where
  managers : List AccountManager
  runtimeRefreshManagerRedirects : OrderedMap Nat Nat
  activeAccountManager : Nat
  sessionAffinityStore : Option SessionAffinityStore
  lastGlobalAccountIndex : Option Nat := none
  lastGlobalSwitchAt : ℚ := 0
  lastObservedAffinityGeneration : ℚ := 0
  requests : Nat → Option Request := fun _ => none

namespace RotationProxyState

def accountsOf (state : RotationProxyState) (manager : Nat) : List ManagedAccount :=
  match state.managers[manager]? with
  | some manager => manager.accounts
  | none => []

def getAccountByIndex (state : RotationProxyState) (manager index : Nat) : Option ManagedAccount := (state.accountsOf manager)[index]?

def accountOf (state : RotationProxyState) (request : Request) : Option ManagedAccount :=
  request.account.bind (state.getAccountByIndex request.accountManager)

def follow (redirects : OrderedMap Nat Nat) : Nat → List Nat → Nat → Nat
  | 0,_,current => current
  | fuel + 1,seen,current =>
    if seen.contains current then current
    else
      match redirects.find current with
      | none => current
      | some next => follow redirects fuel (current :: seen) next

def resolveRuntimeRefreshCommitManager (state : RotationProxyState) (accountManager : Nat) : Nat :=
  follow state.runtimeRefreshManagerRedirects state.managers.length [] accountManager

section
variable [Host]

/-- The row of other rows that an account has become. -/
def findReplacement (persisted : Bool) (account : ManagedAccount) (accounts : List ManagedAccount) : Option Nat :=
  if (account.recordId.bind nonEmpty).isSome ∧ persisted = true then
    onlyIndex accounts (fun candidate => candidate.recordId == account.recordId)
  else
    let compatibleAccounts := accounts.filter (fun candidate => !hasWorkspaceConflict account none candidate)
    let sourceEmail := sanitizeEmail account.email
    let named := (account.accountId.bind nonEmpty).isSome
    onlyIndex compatibleAccounts (fun candidate => candidate.refreshToken == account.refreshToken)
    <|> (if named ∧ sourceEmail.isSome then
          onlyIndex compatibleAccounts (fun candidate => candidate.accountId == account.accountId && sanitizeEmail candidate.email == sourceEmail)
        else none)
    <|> (if named then
          onlyIndex compatibleAccounts (fun candidate => candidate.accountId == account.accountId &&
            (sourceEmail.isNone || (sanitizeEmail candidate.email).isNone || sanitizeEmail candidate.email == sourceEmail))
        else none)
    <|> (if sourceEmail.isSome then onlyIndex compatibleAccounts (fun candidate => sanitizeEmail candidate.email == sourceEmail) else none)

/-- The manager that replaced an account's manager, and its row there. -/
def resolveRuntimeRefreshTarget (state : RotationProxyState) (accountManager index : Nat) : Option (Nat × Nat) :=
  let targetManager := state.resolveRuntimeRefreshCommitManager accountManager
  if targetManager = accountManager then some (accountManager,index)
  else
    match state.managers[accountManager]?,state.getAccountByIndex accountManager index with
    | some manager,some account =>
      match findReplacement (hasPersistedRecordId manager.persistenceBaseline account) account (state.accountsOf targetManager) with
      | some replacement => if (state.getAccountByIndex targetManager replacement).isSome then some (targetManager,replacement) else none
      | none => none
    | _,_ => none
end

def setRequest (state : RotationProxyState) (id : Nat) (request : Option Request) : RotationProxyState :=
  { state with requests := Function.update state.requests id request }

/-- Makes a manager of loaded rows the active one, with a redirect to it. -/
def publish (state : RotationProxyState) (rows : List ManagedAccount) (baseline : Option AccountStorageV3) : RotationProxyState :=
  { state with
    managers := state.managers ++ [AccountManager.new rows baseline]
    runtimeRefreshManagerRedirects := state.runtimeRefreshManagerRedirects.put state.activeAccountManager state.managers.length
    activeAccountManager := state.managers.length }

def clearAffinity (state : RotationProxyState) : RotationProxyState :=
  { state with sessionAffinityStore := state.sessionAffinityStore.map SessionAffinityStore.clearAll }

/-- The answer to a request that the upstream accepted. -/
structure Success where
  isTranscribeRequest : Bool := false
  nearExhaustionWaitMs : ℚ := 0
  now : ℚ

/-- What a request that succeeded records: nothing for a transcription, the end of
    the session's affinity where its quota is nearly used up, its account otherwise. -/
def recordSuccess (state : RotationProxyState) (request : Request) (account : ManagedAccount) (success : Success) : RotationProxyState :=
  if success.isTranscribeRequest then state
  else if 0 < success.nearExhaustionWaitMs then
    { state with sessionAffinityStore := state.sessionAffinityStore.map (fun store => store.forgetSession request.sessionKey) }
  else
    { state with
      sessionAffinityStore := state.sessionAffinityStore.map (fun store => store.remember request.sessionKey account.index success.now)
      lastGlobalAccountIndex :=
        if some account.index ≠ state.lastGlobalAccountIndex then some account.index else state.lastGlobalAccountIndex
      lastGlobalSwitchAt := success.now }

end RotationProxyState

inductive Action where
  | start (request : Nat) (sessionKey : Option Text)
  /-- The session's preferred account is looked up. -/
  | prefer (sessionKey : Option Text) (now : ℚ)
  | select (request index : Nat)
  /-- The account is brought over to the manager that replaced its own. -/
  | refresh (request : Nat)
  /-- A new token is committed under the credential lock, which keeps reloads
      out: the account is the row that the commit stored it in. -/
  | commit (request index : Nat)
  | fail (request : Nat)
  /-- A reload; that of the native storage sees the generation of the sticky state. -/
  | reload (rows : List ManagedAccount) (baseline : Option AccountStorageV3) (affinityGeneration : Option ℚ)
  | reconcile (affinityGeneration : ℚ)
  | change (manager index : Nat) (update : ManagedAccount → ManagedAccount)
  | succeed (request : Nat) (success : RotationProxyState.Success)

section
variable [Host]
open RotationProxyState

/-- A request that holds the account at a row, ready to be sent. -/
def Request.hold (request : Request) (target : Nat × Nat) : Request :=
  { request with accountManager := target.1,account := some target.2,refreshed := true }

/-- A request that has to choose again in the manager that replaced its own. -/
def Request.restart (request : Request) (manager : Nat) : Request :=
  { request with accountManager := manager,account := none,refreshed := false }

/-- The request after its account was brought over. -/
def refreshRequest (state : RotationProxyState) (request : Request) : Request :=
  match request.account with
  | none => request
  | some index =>
    match state.resolveRuntimeRefreshTarget request.accountManager index with
    | some target => request.hold target
    | none => request.restart (state.resolveRuntimeRefreshCommitManager request.accountManager)

def step (state : RotationProxyState) : Action → RotationProxyState
  | .start id sessionKey => state.setRequest id (some ⟨sessionKey,state.activeAccountManager,none,false⟩)
  | .prefer sessionKey now =>
    { state with sessionAffinityStore := state.sessionAffinityStore.map (fun store => (store.getPreferredAccountIndex sessionKey now).2) }
  | .select id index => state.setRequest id ((state.requests id).map (fun request => { request with account := some index,refreshed := false }))
  | .refresh id => state.setRequest id ((state.requests id).map (refreshRequest state))
  | .commit id index =>
    state.setRequest id ((state.requests id).map (fun request =>
      match (refreshRequest state request).account with
      | some _ => (refreshRequest state request).hold ((refreshRequest state request).accountManager,index)
      | none => refreshRequest state request))
  | .fail id =>
    match state.requests id with
    | some request => { state with sessionAffinityStore := state.sessionAffinityStore.map (fun store => store.forgetSession request.sessionKey) }
    | none => state
  | .reload rows baseline affinityGeneration =>
    match affinityGeneration with
    | some generation =>
      if generation ≤ state.lastObservedAffinityGeneration then (state.clearAffinity).publish rows baseline else state.publish rows baseline
    | none => state.publish rows baseline
  | .reconcile generation =>
    if state.lastObservedAffinityGeneration < generation then
      { state.clearAffinity with lastObservedAffinityGeneration := generation }
    else state
  | .change manager index update =>
    { state with managers := state.managers.modify manager (fun manager => manager.change index update) }
  | .succeed id success =>
    match state.requests id with
    | some request =>
      match state.accountOf request with
      | some account => (state.recordSuccess request account success).setRequest id none
      | none => state
    | none => state

end
end CodexMultiAuth.ManagerSwap
