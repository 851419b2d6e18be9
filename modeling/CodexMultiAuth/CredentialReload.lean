import CodexMultiAuth.AccountPool

/-!
Reloading the pool of a running proxy: credentials that were refreshed while the
file was read are carried into the pool that was read. `carryRotatedCredentials`
serves the recovery of a stale pool, `reloadRuntimeCredentials` the reload of
credentials alone. The copies that are made are recorded beside the pool. What a
reload carries besides credentials (limits, cooldowns, marks of invalidation and
of disabled workspaces) is left out, as are calls that share another reload's result.
-/
namespace CodexMultiAuth

section
variable [Host]

def ManagedAccount.triple (account : ManagedAccount) : Option String × String × Option ℚ :=
  (account.access,account.refreshToken,account.expires)

def hasPersistedRecordId (persistenceBaseline : Option AccountStorageV3) (account : ManagedAccount) : Bool :=
  match (account.recordId.map trim).bind nonEmpty,persistenceBaseline with
  | some recordId,some stored =>
    (stored.accounts.find? (fun row => resolveAccountRecordId row == recordId)).any (fun row =>
      (row.recordId.bind (fun stored => nonEmpty (trim stored))).isSome)
  | _,_ => false

/-- The baseline row of an account: the first with its record id or its index. -/
def baselineFor (authBeforeLoad : List ManagedAccount) (previous : ManagedAccount) : Option ManagedAccount :=
  authBeforeLoad.find? (fun account =>
    ((account.recordId.bind nonEmpty).isSome && account.recordId == previous.recordId) || account.index == previous.index)

/-- The credential with what it binds: the account id and the email that it changed. -/
def takeCredential (baseline previous live : ManagedAccount) : ManagedAccount :=
  let carried := { live with access := previous.access,refreshToken := previous.refreshToken,expires := previous.expires }
  let tokenBoundIdentityChanged := baseline.accountId ≠ previous.accountId ∨ baseline.accountIdSource ≠ previous.accountIdSource
  let liveHasExplicitBinding := live.accountIdSource = some "manual" ∨ live.accountIdSource = some "org"
  let previousHasTokenBinding := previous.accountIdSource = some "token" ∨ previous.accountIdSource = some "id_token"
  let bound :=
    if tokenBoundIdentityChanged ∧ previousHasTokenBinding ∧ ¬ liveHasExplicitBinding then
      { carried with accountId := previous.accountId,accountIdSource := previous.accountIdSource }
    else carried
  if baseline.email ≠ previous.email then { bound with email := previous.email } else bound

/-- A copy of an account's credential onto the row at a position. -/
structure Copy where
  source : ManagedAccount
  target : Nat

/-- A pool that is being filled, with the copies made so far. -/
structure CarriedPool where
  pool : AccountPool
  copies : List Copy

/-- Copies a credential that differs from its baseline row, if it has a row to go to. -/
def carry (authBeforeLoad : List ManagedAccount) (target : ManagedAccount → ManagedAccount → Option Nat) (carried : CarriedPool)
    (previous : ManagedAccount) : CarriedPool :=
  match baselineFor authBeforeLoad previous with
  | none => carried
  | some baseline =>
    if baseline.triple = previous.triple then carried
    else
      match target baseline previous with
      | none => carried
      | some index =>
        if (carried.pool.getAccountByIndex index).isSome then
          { pool := carried.pool.update index (takeCredential baseline previous)
            copies := carried.copies ++ [⟨previous,index⟩] }
        else carried

def carryCandidate (persisted : ManagedAccount → Bool) (baseline previous candidate : ManagedAccount) : Bool :=
  (persisted previous && candidate.recordId == previous.recordId) ||
    [previous.refreshToken,baseline.refreshToken].contains candidate.refreshToken ||
    (previous.accountId.isSome && candidate.accountId == previous.accountId &&
      sanitizeEmail candidate.email == sanitizeEmail previous.email)

def onlyIndex (rows : List ManagedAccount) (test : ManagedAccount → Bool) : Option Nat :=
  match rows.filter test with
  | [matched] => some matched.index
  | _ => none

def carryRotatedCredentials (persisted : ManagedAccount → Bool) (previousAccounts authBeforeLoad : List ManagedAccount)
    (reloaded : AccountPool) : CarriedPool :=
  previousAccounts.foldl (carry authBeforeLoad (fun baseline previous =>
    onlyIndex reloaded.accounts (carryCandidate persisted baseline previous))) ⟨reloaded,[]⟩

/-! ### The reload of credentials -/

inductive AccountIdentity where
  | login (accountId email : Option String)
  | refresh (token : String)
  deriving DecidableEq

def identityOf (account : ManagedAccount) : Option AccountIdentity :=
  let accountId := account.accountId.map trim
  let email := sanitizeEmail account.email
  if (accountId.bind nonEmpty).isSome ∨ email.isSome then some (.login accountId email)
  else (nonEmpty (trim account.refreshToken)).map AccountIdentity.refresh

def workspaceIds (account : ManagedAccount) : List String :=
  ((account.accountId.map trim).toList ++ (account.workspaces.getD []).map (fun workspace => trim ((workspace.text "id").getD ""))).filter
    (fun id => decide (id ≠ ""))

def hasWorkspaceConflict (previous : ManagedAccount) (baseline : Option ManagedAccount) (candidate : ManagedAccount) : Bool :=
  let sourceIds := workspaceIds previous ++ (baseline.map workspaceIds).getD []
  let candidateIds := workspaceIds candidate
  !sourceIds.isEmpty && !candidateIds.isEmpty && !sourceIds.any (fun id => candidateIds.contains id)

/-- The loaded rows that are taken, and for whom. -/
structure Reservations where
  claimed : List Nat
  matchedFreshIndexByPrevious : OrderedMap Nat Nat

def reserve (reservations : Reservations) (previous : ManagedAccount) (index : Nat) : Reservations :=
  if reservations.claimed.contains index then reservations
  else ⟨index :: reservations.claimed,reservations.matchedFreshIndexByPrevious.put previous.index index⟩

/-- One pass over the old rows: a row that is tried takes the only free loaded row that passes. -/
def reservePass (freshAccounts previousAccounts : List ManagedAccount) (tried : Reservations → ManagedAccount → Bool)
    (test : ManagedAccount → ManagedAccount → Bool) (reservations : Reservations) : Reservations :=
  previousAccounts.foldl (fun reservations previous =>
    if tried reservations previous then
      match onlyIndex freshAccounts (fun account => !reservations.claimed.contains account.index && test previous account) with
      | some index => reserve reservations previous index
      | none => reservations
    else reservations) reservations

def unmatched (reservations : Reservations) (previous : ManagedAccount) : Bool :=
  (reservations.matchedFreshIndexByPrevious.find previous.index).isNone

section
variable (authBeforeLoad : List ManagedAccount)

def recordTest (previous account : ManagedAccount) : Bool :=
  (previous.recordId.bind nonEmpty).isSome && account.recordId == previous.recordId

def identityTest (previous account : ManagedAccount) : Bool :=
  (identityOf account).any (fun identity =>
    ([identityOf previous,(baselineFor authBeforeLoad previous).bind identityOf].filterMap id).contains identity)

def tokenTest (previous account : ManagedAccount) : Bool :=
  ([some previous.refreshToken,(baselineFor authBeforeLoad previous).map ManagedAccount.refreshToken].filterMap
    (fun token => token.bind nonEmpty)).contains account.refreshToken

def emailTest (previous account : ManagedAccount) : Bool :=
  let baseline := baselineFor authBeforeLoad previous
  match (sanitizeEmail previous.email).or (sanitizeEmail (baseline.bind ManagedAccount.email)) with
  | none => false
  | some stableEmail =>
    sanitizeEmail account.email == some stableEmail && !hasWorkspaceConflict previous baseline account

/-- Every strong match of every row before any weaker one. -/
def matchFreshAccounts (freshAccounts previousAccounts : List ManagedAccount) : Reservations :=
  reservePass freshAccounts previousAccounts unmatched (emailTest authBeforeLoad)
    (reservePass freshAccounts previousAccounts unmatched (tokenTest authBeforeLoad)
      (reservePass freshAccounts previousAccounts unmatched (identityTest authBeforeLoad)
        (reservePass freshAccounts previousAccounts (fun _ _ => true) recordTest ⟨[],[]⟩)))
end

/-- What the comparison of two inventories reads of a workspace and of an account. -/
def workspaceFingerprint (workspace : Workspace) : String × Option Json × Bool × Option Json × Option Json :=
  (trim ((workspace.text "id").getD ""),workspace.find "name",isEnabledWorkspace workspace,workspace.find "disabledAt",
    workspace.find "isDefault")

structure Fingerprint where
  recordId : Option String
  accountId : Option String
  accountIdSource : Option String
  email : Option String
  triple : Option String × String × Option ℚ
  enabled : Bool
  authInvalidatedAt : Option ℚ
  authInvalidationErrorCode : Option String
  workspaces : List (String × Option Json × Bool × Option Json × Option Json)
  currentWorkspaceIndex : Option ℚ
  deriving DecidableEq

def fingerprint (account : ManagedAccount) : Fingerprint where
  recordId := account.recordId
  accountId := account.accountId.map trim
  accountIdSource := account.accountIdSource
  email := sanitizeEmail account.email
  triple := account.triple
  enabled := account.enabled
  authInvalidatedAt := account.authInvalidatedAt
  authInvalidationErrorCode := account.authInvalidationErrorCode
  workspaces := (account.workspaces.getD []).map workspaceFingerprint
  currentWorkspaceIndex := account.currentWorkspaceIndex

def credentialInventoryFingerprint (accounts : List ManagedAccount) : List Fingerprint := accounts.map fingerprint

/-- What a reload finds: the pool before and after the file was read, the pool that
    was read, whether it was read from a parsed document, and whether another path
    replaced the manager meanwhile. -/
structure Reload where
  authBeforeLoad : List ManagedAccount
  previousAccounts : List ManagedAccount
  reloaded : AccountPool
  hasLoadedAccountStorageSnapshot : Bool
  replacedMeanwhile : Bool

/-- The pool that replaces the resident one; `none` keeps the resident manager. -/
def reloadRuntimeCredentials (reload : Reload) : Option CarriedPool :=
  let freshAccounts := reload.reloaded.accounts
  if reload.replacedMeanwhile then none
  else if reload.authBeforeLoad ≠ [] ∧ freshAccounts = [] ∧ reload.hasLoadedAccountStorageSnapshot = false then none
  else if credentialInventoryFingerprint reload.authBeforeLoad = credentialInventoryFingerprint freshAccounts then none
  else
    let matched := (matchFreshAccounts reload.authBeforeLoad freshAccounts reload.previousAccounts).matchedFreshIndexByPrevious
    some (reload.previousAccounts.foldl (carry reload.authBeforeLoad (fun _ previous => matched.find previous.index))
      ⟨reload.reloaded,[]⟩)
end

end CodexMultiAuth
