import Mathlib.Data.Nat.Pairing
import CodexMultiAuth.ManagerSwap
import CodexMultiAuth.Processes
import CodexMultiAuth.RefreshCommit
import CodexMultiAuth.RefreshLease

/-!
Access tokens for the requests of a proxy. A call waits for the token endpoint, and its
commit for the lock on the manager's credentials, for the file and for the write.
Meanwhile accounts are disabled and removed, the manager is replaced and other logins land
in the file; after a wait the account is looked up in the manager that is current by then.
Trackers, counters and the saves that a call schedules are left out.
-/
namespace CodexMultiAuth.TokenRefresh
open OrderedMap
open RefreshCommit (Account Pool PersistError RefreshedAuth Commit)
open RefreshLease (TokenFailure)

def DEFAULT_AUTH_FAILURE_COOLDOWN_MS : ℚ := 30000

def TOKEN_INVALIDATION_PHRASES : List String :=
  ["invalidated oauth token","authentication token has been invalidated","oauth token has been invalidated","token has been invalidated"]

def isTokenInvalidationError [Host] (bodyText : String) : Bool :=
  TOKEN_INVALIDATION_PHRASES.any (fun phrase => decide (phrase.toList <:+: (Host.toLowerCase bodyText).toList))

def isTokenRefreshRetryable (result : TokenFailure) : Bool :=
  match result.reason with
  | some reason =>
    if reason = "http_error" then !([some 400,some 401,some 403].contains result.statusCode)
    else ["coordination_error","network_error","unknown","invalid_response"].contains reason
  | none => false

def markAuthInvalidated (clock : ℚ) (account : Account) : Account :=
  { account with row := (account.row.put "authInvalidatedAt" (.num clock)).put "authInvalidationErrorCode" (.str "token_invalidated") }

def markAccountCoolingDown (clock cooldownMs : ℚ) (reason : String) (account : Account) : Account :=
  { account with
    row := (account.row.put "coolingDownUntil" (.num (clock + max 0 (cooldownMs.floor : ℚ)))).put "cooldownReason" (.str reason) }

/-- A cooldown is only extended. -/
def applyMonotonicAuthCooldown (clock cooldownMs : ℚ) (account : Account) : Account :=
  if numberOrZero (find account.row "coolingDownUntil") < clock + cooldownMs then
    markAccountCoolingDown clock cooldownMs "auth-failure" account
  else account

def incrementAuthFailures (account : Account) : Account :=
  { account with consecutiveAuthFailures := some (account.consecutiveAuthFailures.getD 0 + 1) }

/-- The account of a refresh that failed. -/
def recordAuthFailure (clock tokenInvalidationCooldownMs : ℚ) (invalidated : Bool) (account : Account) : Account :=
  let failed := incrementAuthFailures account
  if invalidated then applyMonotonicAuthCooldown clock tokenInvalidationCooldownMs (markAuthInvalidated clock failed)
  else applyMonotonicAuthCooldown clock DEFAULT_AUTH_FAILURE_COOLDOWN_MS failed

/-- An account object and a manager that has it. -/
structure Target where
  accountManager : ℕ
  account : ℕ
  deriving DecidableEq

structure Params where
  target : Target
  now : ℚ
  tokenRefreshSkewMs : ℚ
  tokenInvalidationCooldownMs : ℚ

inductive Result where
  | ok (accessToken : String) (target : Target)
  | failed (retryable invalidated coordinationFailed : Bool) (target : Target)
  | selectionRestart (accountManager : ℕ)
  deriving DecidableEq

inductive Phase where
  /-- The token endpoint is awaited for the credential that was read; `known` has that credential
      and those that were in the file by then. -/
  | refreshing (initialTarget : Target) (refreshCredential : Credential) (known : List Credential)
  | committing (commit : ℕ) (latestTarget : Target) (access : String)
  | returned (result : Result)

structure Call where
  params : Params
  phase : Phase

structure RuntimeRefreshCommitResult where
  accountManager : ℕ
  account : Option ℕ
  /-- The row was disabled in the meantime. -/
  skipped : Bool := false

inductive CommitPhase where
  /-- Waiting for the lock on a manager's credentials. -/
  | waiting (accountManager : ℕ)
  /-- With the lock, waiting for the file. -/
  | opening (target : Target)
  /-- With the file, waiting for the write. -/
  | writing (target : Target) (commit : Commit) (storedAccount : AccountMetadataV3) (merged : AccountStorageV3)
  | settled (result : Except PersistError RuntimeRefreshCommitResult)

structure PendingCommit where
  /-- The manager that it was made for, and the account there. -/
  source : Target
  key : String
  expectedRefresh : Option String
  auth : RefreshedAuth
  known : List Credential
  phase : CommitPhase

/-- Its accounts in their order, and what its saves go by. -/
structure AccountManager where
  accounts : List ℕ
  saves : Manager

/-- The account objects with those of a manager's rows; an object is numbered by the manager that it
    was made for and its place there. -/
def made (manager : ℕ) (rows : List AccountMetadataV3) (object : ℕ → Account) : ℕ → Account := fun ref =>
  match (List.range rows.length).find? (fun place => decide (Nat.pair manager place = ref)) with
  | some place => ⟨rows.getD place [],none⟩
  | none => object ref

def AccountManager.new (manager : ℕ) (loaded : Manager) : AccountManager where
  accounts := (List.range loaded.live.accounts.length).map (Nat.pair manager)
  saves := loaded

/-- Who has the lock on a manager's credentials. -/
inductive Holder where
  | commit (id : ℕ)
  | sync (id : ℕ)
  deriving DecidableEq

/-- The process and the storage file. Managers are numbered in the order they were published, a
    commit by the call that made it. -/
structure State where
  object : ℕ → Account
  managers : List AccountManager
  runtimeRefreshManagerRedirects : OrderedMap ℕ ℕ
  activeAccountManager : ℕ
  runtimeCredentialLocks : ℕ → Option Holder
  runtimeRefreshCommitQueues : ℕ → OrderedMap String ℕ
  commits : ℕ → Option PendingCommit
  calls : ℕ → Option Call
  /-- The manager whose lock a native sync has. -/
  syncs : ℕ → Option ℕ
  storage : Option AccountStorageV3
  /-- The commit that has the file. -/
  transaction : Option ℕ
  journal : List PendingAuth

namespace State

def row (s : State) (ref : ℕ) : AccountMetadataV3 := (s.object ref).row

def accountsOf (s : State) (manager : ℕ) : List ℕ :=
  match s.managers[manager]? with
  | some manager => manager.accounts
  | none => []

def update (s : State) (ref : ℕ) (change : Account → Account) : State :=
  { s with object := Function.update s.object ref (change (s.object ref)) }

def setCall (s : State) (id : ℕ) (call : Call) : State := { s with calls := Function.update s.calls id (some call) }

def setCommit (s : State) (id : ℕ) (commit : PendingCommit) : State := { s with commits := Function.update s.commits id (some commit) }

def setLock (s : State) (manager : ℕ) (holder : Holder) : State :=
  { s with runtimeCredentialLocks := Function.update s.runtimeCredentialLocks manager (some holder) }

/-- Frees all that a holder has locked. -/
def release (s : State) (holder : Holder) : State :=
  { s with runtimeCredentialLocks := fun manager =>
      if s.runtimeCredentialLocks manager = some holder then none else s.runtimeCredentialLocks manager }

def pool (s : State) (manager : ℕ) : Pool := ⟨s.accountsOf manager,s.object⟩

def resolveRuntimeRefreshCommitManager (s : State) (accountManager : ℕ) : ℕ :=
  ManagerSwap.RotationProxyState.follow s.runtimeRefreshManagerRedirects s.managers.length [] accountManager

end State

/-- What identifies a row of the live accounts. -/
def managed (index ref : ℕ) (row : AccountMetadataV3) : ManagedAccount :=
  { ref := ref,index := index,recordId := row.recordId,accountId := row.accountId,email := row.email
    refreshToken := row.refreshToken.getD "",workspaces := row.workspaces }

def hasUsableAccessToken (row : AccountMetadataV3) (now skewMs : ℚ) : Bool :=
  (row.accessToken.bind (fun access => nonEmpty (trim access))).isSome &&
    (match row.expiresAt with
      | some expires => decide (now + max 0 skewMs < expires)
      | none => false)

def commitKey (row : AccountMetadataV3) : String :=
  String.intercalate "\u0000" [row.recordId.getD "",row.accountId.getD "",row.email.getD "",row.refreshToken.getD ""]

section
variable [Host]

namespace State

def resolveRuntimeRefreshTarget (s : State) (target : Target) : Option Target :=
  let targetManager := s.resolveRuntimeRefreshCommitManager target.accountManager
  if targetManager = target.accountManager then some target
  else
    match s.managers[target.accountManager]? with
    | some source =>
      let account := managed 0 target.account (s.row target.account)
      let accounts := (s.accountsOf targetManager).mapIdx (fun index ref => managed index ref (s.row ref))
      ((ManagerSwap.RotationProxyState.findReplacement (hasPersistedRecordId source.saves.persistenceBaseline account) account accounts).bind
        (fun index => (s.accountsOf targetManager)[index]?)).map (fun ref => ⟨targetManager,ref⟩)
    | none => none

/-- Up to the refresh. -/
def ensureFreshAccessToken (s : State) (params : Params) : Phase :=
  match s.resolveRuntimeRefreshTarget params.target with
  | none => .returned (.selectionRestart (s.resolveRuntimeRefreshCommitManager params.target.accountManager))
  | some initialTarget =>
    let row := s.row initialTarget.account
    if isDisabled row then .returned (.selectionRestart initialTarget.accountManager)
    else if hasUsableAccessToken row params.now params.tokenRefreshSkewMs then .returned (.ok (row.accessToken.getD "") initialTarget)
    else .refreshing initialTarget (credential row) (credential row :: ((s.storage.map AccountStorageV3.accounts).getD []).map credential)

def answer (s : State) (id : ℕ) (call : Call) (result : Result) : State := s.setCall id { call with phase := .returned result }

/-- A commit of the same refresh that is under way is shared. -/
def commitRefreshedAuthOnce (s : State) (id : ℕ) (call : Call) (latestTarget : Target) (auth : RefreshedAuth) (known : List Credential) : State :=
  let commitManager := s.resolveRuntimeRefreshCommitManager latestTarget.accountManager
  let row := s.row latestTarget.account
  match (s.runtimeRefreshCommitQueues commitManager).find (commitKey row) with
  | some existing => s.setCall id { call with phase := .committing existing latestTarget auth.val.access }
  | none =>
    let queued : State :=
      { s with
        runtimeRefreshCommitQueues := Function.update s.runtimeRefreshCommitQueues commitManager
          ((s.runtimeRefreshCommitQueues commitManager).put (commitKey row) id) }
    (queued.setCommit id
      { source := ⟨commitManager,latestTarget.account⟩,key := commitKey row,expectedRefresh := row.refreshToken,auth := auth,known := known
        phase := .waiting commitManager }).setCall id { call with phase := .committing id latestTarget auth.val.access }

/-- From the result of the refresh. -/
def continueRefreshed (s : State) (id : ℕ) (call : Call) (initialTarget : Target) (refreshCredential : Credential) (known : List Credential)
    (refreshResult : Except TokenFailure RefreshedAuth) (clock : ℚ) : State :=
  match s.resolveRuntimeRefreshTarget initialTarget with
  | none => s.answer id call (.selectionRestart (s.resolveRuntimeRefreshCommitManager initialTarget.accountManager))
  | some latestTarget =>
    let row := s.row latestTarget.account
    if isDisabled row then s.answer id call (.selectionRestart latestTarget.accountManager)
    else if credential row ≠ refreshCredential then
      if hasUsableAccessToken row call.params.now call.params.tokenRefreshSkewMs then
        s.answer id call (.ok (row.accessToken.getD "") latestTarget)
      else s.answer id call (.failed true false false latestTarget)
    else
      match refreshResult with
      | .ok auth => s.commitRefreshedAuthOnce id call latestTarget auth known
      | .error failure =>
        if failure.reason = some "coordination_error" then s.answer id call (.failed true false true latestTarget)
        else
          let invalidated := isTokenInvalidationError (failure.message.getD "")
          (s.update latestTarget.account (recordAuthFailure clock call.params.tokenInvalidationCooldownMs invalidated)).answer id call
            (.failed (isTokenRefreshRetryable failure) invalidated false latestTarget)

/-- From the result of the commit. -/
def continueCommitted (s : State) (id : ℕ) (call : Call) (latestTarget : Target) (access : String)
    (committed : Except PersistError RuntimeRefreshCommitResult) (clock : ℚ) : State :=
  match committed with
  | .ok committed =>
    if committed.skipped then s.answer id call (.selectionRestart committed.accountManager)
    else
      match committed.account with
      | some account => s.answer id call (.ok ((s.row account).accessToken.getD access) ⟨committed.accountManager,account⟩)
      | none => s.answer id call (.ok access latestTarget)
  | .error _ =>
    let failureTarget := (s.resolveRuntimeRefreshTarget latestTarget).getD latestTarget
    (s.update failureTarget.account (markAccountCoolingDown clock DEFAULT_AUTH_FAILURE_COOLDOWN_MS "auth-failure")).answer id call
      (.failed true false false failureTarget)

/-- The commit is over: its locks are free and it leaves the queue. -/
def settle (s : State) (id : ℕ) (commit : PendingCommit) (result : Except PersistError RuntimeRefreshCommitResult) : State :=
  let manager := commit.source.accountManager
  { (s.setCommit id { commit with phase := .settled result }).release (.commit id) with
    runtimeRefreshCommitQueues := Function.update s.runtimeRefreshCommitQueues manager ((s.runtimeRefreshCommitQueues manager).remove commit.key) }

/-- The lock is taken. A manager that was replaced meanwhile is left for the one that replaced it. -/
def takeLock (s : State) (id : ℕ) (commit : PendingCommit) (manager : ℕ) : State :=
  let current := s.resolveRuntimeRefreshCommitManager manager
  let locked := s.setLock manager (.commit id)
  if current ≠ manager then locked.setCommit id { commit with phase := .waiting current }
  else
    match s.resolveRuntimeRefreshTarget commit.source with
    | none => locked.settle id commit (.ok ⟨s.resolveRuntimeRefreshCommitManager commit.source.accountManager,none,false⟩)
    | some target =>
      let row := s.row target.account
      if isDisabled row then locked.settle id commit (.ok ⟨target.accountManager,some target.account,true⟩)
      else if row.refreshToken ≠ commit.expectedRefresh then locked.settle id commit (.ok ⟨target.accountManager,some target.account,false⟩)
      else locked.setCommit id { commit with phase := .opening target }

def savesOf (s : State) (manager : ℕ) : Manager :=
  match s.managers[manager]? with
  | some manager => manager.saves
  | none => ⟨emptyStorage,none,true⟩

/-- The commit to the file, as it is when the file is there or failed to be. -/
def opened (s : State) (commit : PendingCommit) (target : Target) (now : ℚ) (failed : Option PersistError) (reset journalFails : Bool) : Commit where
  now := now
  source := .account target.account
  auth := commit.auth
  manager := s.savesOf target.accountManager
  pool := s.pool target.accountManager
  opened :=
    match failed with
    | some error => .error error
    | none => .ok s.storage
  later := s.pool target.accountManager
  rejected := none
  journal := s.journal
  reset := reset
  journalFails := journalFails

/-- The outcome of a commit to the file. -/
def conclude (s : State) (id : ℕ) (commit : PendingCommit) (target : Target) (result : RefreshCommit.Result) : State :=
  ({ s with object := result.pool.object,journal := result.journal } : State).settle id commit
    (result.outcome.map (fun account => ⟨target.accountManager,account,false⟩))

def openStorage (s : State) (id : ℕ) (commit : PendingCommit) (target : Target) (writes : Commit) : State :=
  match writes.plan with
  | .writes storedAccount merged =>
    ({ s with object := writes.begun.object,transaction := some id } : State).setCommit id
      { commit with phase := .writing target writes storedAccount merged }
  | _ => s.conclude id commit target writes.commitRefreshedAuth

end State

def proposal (writes : Commit) (current : Option AccountStorageV3) : Option (AccountStorageV3 × AccountMetadataV3 × AccountStorageV3) :=
  refreshSnapshot writes.now { writes.manager.live with accounts := writes.pool.rows } current (writes.source.read writes.pool) writes.auth.val

/-- What the saves go by after the commit was written. -/
def committedSaves (writes : Commit) (current : Option AccountStorageV3) (saves : Manager) : Manager :=
  match proposal writes current with
  | none => saves
  | some (nextStorage,storedAccount,_) =>
    match persistSnapshot writes.manager current nextStorage (some storedAccount) false with
    | .ok (_,after) => { saves with persistenceBaseline := after.persistenceBaseline,hadPersistedStorage := after.hadPersistedStorage }
    | .error _ => saves

/-- The commit once its write has resolved or was rejected. -/
def resumed (s : State) (target : Target) (writes : Commit) (rejected : Option PersistError) : Commit :=
  { writes with later := s.pool target.accountManager,rejected := rejected,journal := s.journal }

namespace State

def written (s : State) (id : ℕ) (commit : PendingCommit) (target : Target) (writes : Commit) (merged : AccountStorageV3)
    (rejected : Option PersistError) : State :=
  let stored : State :=
    match rejected with
    | some _ => s
    | none =>
      { s with
        storage := some merged
        managers := s.managers.modify target.accountManager (fun manager =>
          { manager with saves := committedSaves writes s.storage manager.saves }) }
  ({ stored with transaction := none } : State).conclude id commit target (resumed s target writes rejected).commitRefreshedAuth

/-! ### What else goes on -/

/-- Makes a loaded manager the active one, with a redirect to it. -/
def publish (s : State) (loaded : Manager) : State :=
  { s with
    object := made s.managers.length loaded.live.accounts s.object
    managers := s.managers ++ [AccountManager.new s.managers.length loaded]
    runtimeRefreshManagerRedirects := s.runtimeRefreshManagerRedirects.put s.activeAccountManager s.managers.length
    activeAccountManager := s.managers.length }

end State

def isSameNativeAccount (account disk : AccountMetadataV3) : Bool :=
  match (account.recordId.map trim).bind nonEmpty,(disk.recordId.map trim).bind nonEmpty with
  | some left,some right => decide (left = right)
  | _,_ =>
    let accountId := (account.accountId.map trim).bind nonEmpty
    let email := sanitizeEmail account.email
    let diskAccountId := (disk.accountId.map trim).bind nonEmpty
    if accountId.isNone ∧ email.isNone then
      diskAccountId.isNone && (sanitizeEmail disk.email).isNone && ((account.refreshToken.map trim).bind nonEmpty).isSome &&
        decide (account.refreshToken.map trim = disk.refreshToken.map trim)
    else decide (accountId = diskAccountId) && decide (email = sanitizeEmail disk.email)

/-- An account takes over what the row of the file says; without a row it is disabled. -/
def syncNativeAccount (storage : AccountStorageV3) (account : Account) : Account :=
  match storage.accounts.find? (isSameNativeAccount account.row) with
  | none => { account with row := account.row.put "enabled" (.bool false) }
  | some disk =>
    let enabled : AccountMetadataV3 :=
      if isDisabled account.row = isDisabled disk then account.row else assign account.row "enabled" (find disk "enabled")
    let invalidated : Bool := decide ((Record.number disk "authInvalidatedAt").getD 0 ≠ 0)
    let marked : AccountMetadataV3 :=
      if invalidated = true ∧ find disk "authInvalidatedAt" ≠ find enabled "authInvalidatedAt" then
        assign (assign enabled "authInvalidatedAt" (find disk "authInvalidatedAt")) "authInvalidationErrorCode"
          (find disk "authInvalidationErrorCode")
      else enabled
    if credential disk = credential marked then { account with row := marked }
    else
      let taken : AccountMetadataV3 := ["accessToken","refreshToken","expiresAt"].foldl
        (fun row field => assign row field (find disk field)) marked
      let cleared : AccountMetadataV3 :=
        if (disk.accessToken.bind nonEmpty).isSome ∧ (disk.refreshToken.bind nonEmpty).isSome ∧ invalidated = false then
          let valid := (taken.remove "authInvalidatedAt").remove "authInvalidationErrorCode"
          if AccountMetadataV3.cooldownReason valid = some "auth-failure" then RefreshCommit.clearAccountCooldown valid else valid
        else taken
      { account with row := cleared }

def credentialFields : List String := ["refreshToken","accessToken","expiresAt","enabled"]

def observed (account before : Account) : Account :=
  { account with row := credentialFields.foldl (fun row field => assign row field (find before.row field)) account.row }

namespace State

/-- The native sync has read the file: the inventory is replaced, or each account brought up to date. -/
def synced (s : State) (disk : AccountStorageV3) : State :=
  let accounts := s.accountsOf s.activeAccountManager
  if accounts.length = disk.accounts.length ∧
      ((accounts.zip disk.accounts).all (fun pair => isSameNativeAccount (s.row pair.1) pair.2)) = true then
    { s with object := fun ref => if ref ∈ accounts then syncNativeAccount disk (s.object ref) else s.object ref }
  else s.publish (loadManager disk)

def saved (s : State) (manager : ℕ) (runtimeOnConflict : Bool) : State :=
  let saves := s.savesOf manager
  match saveToDisk saves { saves.live with accounts := (s.pool manager).rows } s.storage runtimeOnConflict with
  | .error _ => s
  | .ok (storage,after) =>
    { s with
      storage := some storage
      managers := s.managers.modify manager (fun manager => { manager with saves := after }) }

end State

inductive Action where
  | start (id : ℕ) (params : Params)
  | refreshed (id : ℕ) (refreshResult : Except TokenFailure RefreshedAuth) (clock : ℚ)
  | lock (commit : ℕ)
  | openStorage (commit : ℕ) (now : ℚ) (failed : Option PersistError) (reset journalFails : Bool)
  | written (commit : ℕ) (rejected : Option PersistError)
  | finish (id : ℕ) (clock : ℚ)
  /-- A native sync takes the lock on the active manager and reads the file. -/
  | sync (id : ℕ)
  | synced (id : ℕ) (disk : Option AccountStorageV3)
  /-- The other reloads wait for the commits of the manager that they replace. -/
  | reload (loaded : Manager)
  | setAccountEnabled (manager index : ℕ) (enabled : Bool)
  | removeAccount (manager index : ℕ)
  | observe (account : ℕ) (observed : Account)
  | save (manager : ℕ) (runtimeOnConflict : Bool)
  /-- Another process writes the file. -/
  | outside (storage : Option AccountStorageV3)

def step (s : State) : Action → State
  | .start id params => s.setCall id ⟨params,s.ensureFreshAccessToken params⟩
  | .refreshed id refreshResult clock =>
    match s.calls id with
    | some ⟨params,.refreshing initialTarget refreshCredential known⟩ =>
      s.continueRefreshed id ⟨params,.refreshing initialTarget refreshCredential known⟩ initialTarget refreshCredential known refreshResult clock
    | _ => s
  | .lock id =>
    match s.commits id with
    | some commit =>
      match commit.phase with
      | .waiting manager => s.takeLock id commit manager
      | _ => s
    | none => s
  | .openStorage id now failed reset journalFails =>
    match s.commits id with
    | some commit =>
      match commit.phase with
      | .opening target => s.openStorage id commit target (s.opened commit target now failed reset journalFails)
      | _ => s
    | none => s
  | .written id rejected =>
    match s.commits id with
    | some commit =>
      match commit.phase with
      | .writing target writes _ merged => s.written id commit target writes merged rejected
      | _ => s
    | none => s
  | .finish id clock =>
    match s.calls id with
    | some ⟨params,.committing commit latestTarget access⟩ =>
      match s.commits commit with
      | some pending =>
        match pending.phase with
        | .settled result => s.continueCommitted id ⟨params,.committing commit latestTarget access⟩ latestTarget access result clock
        | _ => s
      | none => s
    | _ => s
  | .sync id => { s.setLock s.activeAccountManager (.sync id) with syncs := Function.update s.syncs id (some s.activeAccountManager) }
  | .synced id disk =>
    let done : State := { s.release (.sync id) with syncs := Function.update s.syncs id none }
    match disk with
    | some disk => done.synced disk
    | none => done
  | .reload loaded => s.publish loaded
  | .setAccountEnabled manager index enabled =>
    match (s.accountsOf manager)[index]? with
    | some ref => s.update ref (fun account =>
        { account with row := if enabled then account.row.remove "enabled" else account.row.put "enabled" (.bool false) })
    | none => s
  | .removeAccount manager index =>
    { s with managers := s.managers.modify manager (fun manager => { manager with accounts := manager.accounts.eraseIdx index }) }
  | .observe ref account => s.update ref (observed account)
  | .save manager runtimeOnConflict => s.saved manager runtimeOnConflict
  | .outside storage => { s with storage := storage }

def started (loaded : Manager) (storage : Option AccountStorageV3) : State where
  object := made 0 loaded.live.accounts (fun _ => ⟨[],none⟩)
  managers := [AccountManager.new 0 loaded]
  runtimeRefreshManagerRedirects := []
  activeAccountManager := 0
  runtimeCredentialLocks := fun _ => none
  runtimeRefreshCommitQueues := fun _ => []
  commits := fun _ => none
  calls := fun _ => none
  syncs := fun _ => none
  storage := storage
  transaction := none
  journal := []

/-- When an action may be taken. Callers pass an account that the manager has; a transaction keeps
    everybody else from the file. -/
def enabled (s : State) : Action → Prop
  | .start id params => s.calls id = none ∧ params.target.account ∈ s.accountsOf params.target.accountManager
  | .lock id => ∀ commit manager, s.commits id = some commit → commit.phase = .waiting manager → s.runtimeCredentialLocks manager = none
  | .openStorage _ _ _ _ _ => s.transaction = none
  | .sync id => s.syncs id = none ∧ s.runtimeCredentialLocks s.activeAccountManager = none
  | .synced id _ => (s.syncs id).isSome
  | .reload _ => s.runtimeRefreshCommitQueues s.activeAccountManager = []
  | .save _ _ => s.transaction = none
  | .outside _ => s.transaction = none
  | _ => True

end

end CodexMultiAuth.TokenRefresh
