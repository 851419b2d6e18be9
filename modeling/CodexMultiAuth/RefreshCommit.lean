import CodexMultiAuth.Manager
import CodexMultiAuth.PendingAuth

/-!
Committing a refreshed credential. The live account has the credential before the write
of the pool is awaited, and other requests go on with the accounts meanwhile. A write
that rejects puts the account back to what it was, the cooldown that another request has
recorded on it included; where the rejection is one that a later save can make good, the
credential goes to the account once more and to the journal.
-/
namespace CodexMultiAuth.RefreshCommit

/-- A live account: its row as it is serialized, and what is not stored. -/
structure Account where
  row : AccountMetadataV3
  consecutiveAuthFailures : Option ℕ := none
  deriving DecidableEq

/-- The accounts of a manager are objects; requests hold on to them. -/
structure Pool where
  accounts : List ℕ
  object : ℕ → Account

namespace Pool

def rows (pool : Pool) : List AccountMetadataV3 := pool.accounts.map (fun ref => (pool.object ref).row)

def put (pool : Pool) (ref : ℕ) (account : Account) : Pool :=
  { pool with object := fun other => if other = ref then account else pool.object other }

@[simp] theorem put_self (pool : Pool) (ref : ℕ) (account : Account) : (pool.put ref account).object ref = account := if_pos rfl

end Pool

/-- What a request names the account by: the object itself, or a copy of its identity. -/
inductive Source where
  | account (ref : ℕ)
  | copy (identity : AccountLike)

def Source.read (source : Source) (pool : Pool) : AccountLike :=
  match source with
  | .account ref => AccountMetadataV3.toAccountLike (pool.object ref).row
  | .copy identity => identity

/-- A refresh brings both tokens. -/
abbrev RefreshedAuth := { auth : OAuthAuthDetails // auth.refresh ≠ "" ∧ auth.access ≠ "" }

/-- An error, of which the causes are errors too. -/
structure ErrorLevel where
  code : Option String := none
  status : Option ℚ := none
  deriving DecidableEq

structure PersistError where
  error : ErrorLevel
  causes : List ErrorLevel := []
  deriving DecidableEq

def isRetryableLevel (level : ErrorLevel) : Bool :=
  (level.code.map (fun code => ["EAGAIN","EBUSY","EPERM"].contains code.toUpper)).getD false || decide (level.status = some 429)

def isRetryableAuthPersistenceError (error : PersistError) : Bool := (error.error :: error.causes).any isRetryableLevel

/-- The file is locked or cannot be read, or a later write may succeed. -/
def isRescuable (error : PersistError) : Bool :=
  ["EACCOUNTSUNREADABLE","ELOCKED","EACCES"].contains (error.error.code.getD "") || isRetryableAuthPersistenceError error

section
variable [Host]

def getAccountByIdentity (pool : Pool) (source : AccountLike) (auth : OAuthAuthDetails) : Option ℕ :=
  (findAccountIndexByIdentity pool.rows source auth).bind (fun index => pool.accounts[index]?)

def clearAccountCooldown (row : AccountMetadataV3) : AccountMetadataV3 := withCooldown row (none,none)

/-- The account with its new credential, before the write. -/
def refreshed (now : ℚ) (auth : OAuthAuthDetails) (account : Account) : Account where
  row :=
    if preservesCooldown now account.row then updateFromAuth auth account.row
    else clearAccountCooldown (updateFromAuth auth account.row)
  consecutiveAuthFailures := some 0

def restoredKeys : List String :=
  ["accessToken","refreshToken","expiresAt","accountId","accountIdSource","email","enabled","authInvalidatedAt","authInvalidationErrorCode",
    "coolingDownUntil","cooldownReason"]

/-- An account with what it had before. -/
def restore (previous account : Account) : Account where
  row := restoredKeys.foldl (fun row field => OrderedMap.assign row field (OrderedMap.find previous.row field)) account.row
  consecutiveAuthFailures := previous.consecutiveAuthFailures

/-- The account with its new credential, after the write was rejected. -/
def rescued (auth : OAuthAuthDetails) (account : Account) : Account where
  row :=
    let updated := updateFromAuth auth account.row
    if updated.cooldownReason = some "auth-failure" then clearAccountCooldown updated else updated
  consecutiveAuthFailures := some 0

/-! ### A commit -/

/-- A commit of a credential, and what it works on. -/
structure Commit where
  now : ℚ
  source : Source
  auth : RefreshedAuth
  manager : Manager
  pool : Pool
  /-- What the transaction reads under the lock, unless it fails before that. -/
  opened : Except PersistError (Option AccountStorageV3)
  /-- The accounts as they are when the write settles; other requests may have changed them. -/
  later : Pool
  /-- The rejection of the write. -/
  rejected : Option PersistError
  journal : List PendingAuth
  /-- The pool was reset on purpose. -/
  reset : Bool
  journalFails : Bool

structure Result where
  pool : Pool
  journal : List PendingAuth
  outcome : Except PersistError (Option ℕ)

namespace Commit
variable (commit : Commit)

def liveAccount : Option ℕ := getAccountByIdentity commit.pool (commit.source.read commit.pool) commit.auth.val

def rotation (account : Account) : Option Rotation :=
  match account.row.refreshToken with
  | some prior =>
    if named : prior ≠ "" then
      some
        { priorRefreshToken := ⟨prior,named⟩
          recordId := account.row.recordId
          refreshToken := ⟨commit.auth.val.refresh,commit.auth.property.1⟩
          accessToken := ⟨commit.auth.val.access,commit.auth.property.2⟩
          expiresAt := commit.auth.val.expires
          recordedAt := commit.now }
    else none
  | none => none

def journaled (account : Account) : List PendingAuth :=
  if commit.journalFails then commit.journal
  else
    match commit.rotation account with
    | none => commit.journal
    | some rotation =>
      match recordPendingAuth commit.reset commit.journal rotation with
      | .ok journal => journal
      | .error _ => commit.journal

def rescue (error : PersistError) (pool : Pool) : Result :=
  match if isRescuable error then getAccountByIdentity pool (commit.source.read pool) commit.auth.val else none with
  | none => ⟨pool,commit.journal,.error error⟩
  | some ref => ⟨pool.put ref (rescued commit.auth.val (pool.object ref)),commit.journaled (pool.object ref),.ok (some ref)⟩

def begun : Pool :=
  match commit.liveAccount with
  | none => commit.pool
  | some ref => commit.pool.put ref (refreshed commit.now commit.auth.val (commit.pool.object ref))

def undone (pool : Pool) : Pool :=
  match commit.liveAccount with
  | none => pool
  | some ref => pool.put ref (restore (commit.pool.object ref) (pool.object ref))

/-- What the commit writes: the refreshed row and the document that it is merged into. -/
inductive Plan where
  | failed (error : PersistError)
  | unresolved
  /-- The merge is refused. -/
  | refused (error : PersistError)
  | writes (storedAccount : AccountMetadataV3) (merged : AccountStorageV3)

def ofStorageError (error : StorageError) : PersistError := ⟨⟨some error.code,none⟩,[]⟩

def plan : Plan :=
  match commit.opened with
  | .error error => .failed error
  | .ok current =>
    if current.isNone ∧ commit.manager.hadPersistedStorage then .failed (ofStorageError storageRemoved)
    else
      match refreshSnapshot commit.now { commit.manager.live with accounts := commit.pool.rows } current (commit.source.read commit.pool) commit.auth.val with
      | none => .unresolved
      | some (nextStorage,storedAccount,_) =>
        match persistSnapshot commit.manager current nextStorage (some storedAccount) false with
        | .error error => .refused (ofStorageError error)
        | .ok (merged,_) => .writes storedAccount merged

def recorded (storedAccount : AccountMetadataV3) : Option ℕ :=
  commit.later.accounts.find? (fun ref => hasRecordId storedAccount.recordId (commit.later.object ref).row)

/-- The accounts after a write: a blocker that another request has recorded is merged. -/
def written (storedAccount : AccountMetadataV3) (merged : AccountStorageV3) : Pool :=
  match merged.accounts.find? (hasRecordId storedAccount.recordId),commit.recorded storedAccount with
  | some saved,some ref =>
    let live := commit.later.object ref
    commit.later.put ref
      { live with row := withCooldown live.row (mergeAccountCooldown (cooldownRow storedAccount) (cooldownRow saved) (cooldownRow live.row)) }
  | _,_ => commit.later

def commitRefreshedAuth : Result :=
  match commit.plan with
  | .failed error => commit.rescue error commit.pool
  | .unresolved => ⟨commit.pool,commit.journal,.ok none⟩
  | .refused error => commit.rescue error (commit.undone commit.begun)
  | .writes storedAccount merged =>
    match commit.rejected with
    | some error => commit.rescue error (commit.undone commit.later)
    | none => ⟨commit.written storedAccount merged,commit.journal,.ok commit.liveAccount⟩

/-- The error that a commit meets. -/
def rejection : Option PersistError :=
  match commit.plan with
  | .failed error => some error
  | .unresolved => none
  | .refused error => some error
  | .writes _ _ => commit.rejected

def settled : Pool :=
  match commit.plan with
  | .refused _ => commit.undone commit.begun
  | .writes _ _ => commit.undone commit.later
  | _ => commit.pool

def Pending : Prop := ∃ storedAccount merged, commit.plan = .writes storedAccount merged

/-- Another request has recorded a cooldown on an account while the write was pending. -/
def Recorded (ref : ℕ) (deadline : ℚ) : Prop :=
  OrderedMap.find (commit.later.object ref).row "coolingDownUntil" = some (.num deadline) ∧ 0 < deadline ∧
    ((cooldownRow (commit.later.object ref).row).coolingDownUntil,(cooldownRow (commit.later.object ref).row).cooldownReason) ≠
      ((cooldownRow (commit.begun.object ref).row).coolingDownUntil,(cooldownRow (commit.begun.object ref).row).cooldownReason)

/-- What authentication knows of an account. -/
def authState : List String :=
  ["accessToken","refreshToken","expiresAt","accountId","accountIdSource","email","enabled","authInvalidatedAt","authInvalidationErrorCode"]

def Carries (auth : OAuthAuthDetails) (row : AccountMetadataV3) : Prop :=
  row.refreshToken = some auth.refresh ∧ row.accessToken = some auth.access ∧ row.expiresAt = some auth.expires

/-- A commit of the credential of a live account loses nothing. -/
structure Keeps : Prop where
  restored : ∀ ref error, commit.liveAccount = some ref → commit.rejection = some error → isRescuable error = false →
    (∀ field ∈ authState,
      OrderedMap.find (commit.commitRefreshedAuth.pool.object ref).row field = OrderedMap.find (commit.pool.object ref).row field) ∧
    (commit.commitRefreshedAuth.pool.object ref).consecutiveAuthFailures = (commit.pool.object ref).consecutiveAuthFailures
  /-- The spent token leads to the credential, where the journal can be written. -/
  rescues : ∀ ref error, commit.liveAccount = some ref → commit.rejection = some error → isRescuable error = true →
    commit.commitRefreshedAuth.outcome = .ok (some ref) ∧ Carries commit.auth.val (commit.commitRefreshedAuth.pool.object ref).row ∧
    ∀ spent, (commit.pool.object ref).row.refreshToken = some spent → spent ≠ "" → commit.reset = false → commit.journalFails = false →
      ∃ entry ∈ commit.commitRefreshedAuth.journal, entry.prior = Host.sha256 spent ∧ entry.refreshToken.val = commit.auth.val.refresh ∧
        entry.accessToken.val = commit.auth.val.access ∧ entry.expiresAt = commit.auth.val.expires
  observed : ∀ ref deadline, commit.liveAccount = some ref → commit.Pending → commit.Recorded ref deadline →
    deadline ≤ numberOrZero (OrderedMap.find (commit.commitRefreshedAuth.pool.object ref).row "coolingDownUntil")

/-- An auth failure that was recorded against a credential that the store has replaced. -/
def Obsolete (storedAccount saved live : CooldownRow) : Prop :=
  live.cooldownReason = some (.str "auth-failure") ∧ live.refreshToken = storedAccount.refreshToken ∧ saved.refreshToken ≠ live.refreshToken

/-- The deadline is the one that the row was written with, and the store has cleared it. -/
def Cleared (storedAccount saved live : CooldownRow) : Prop :=
  storedAccount.coolingDownUntil = live.coolingDownUntil ∧
    (saved.coolingDownUntil = none ∨
      saved.cooldownReason = some (.str "auth-failure") ∧ live.refreshToken ≠ storedAccount.refreshToken ∧ saved.refreshToken ≠ live.refreshToken)

/-- A cooldown that a write that succeeds leaves in force. -/
def Survives (storedAccount saved live : CooldownRow) (deadline : ℚ) : Prop :=
  (¬ Obsolete storedAccount saved live ∧ ¬ Cleared storedAccount saved live) ∨
    (Obsolete storedAccount saved live ∧ deadline ≤ numberOrZero saved.coolingDownUntil ∧ saved.coolingDownUntil ≠ storedAccount.coolingDownUntil)

/-- The deadline that a rejection puts back. -/
def previousDeadline (error : PersistError) (ref : ℕ) : ℚ :=
  if isRescuable error = true ∧ (commit.pool.object ref).row.cooldownReason = some "auth-failure" then 0
  else numberOrZero (OrderedMap.find (commit.pool.object ref).row "coolingDownUntil")

structure Careful : Prop where
  /-- The account of a rejection that is rescued is still found by its identity. -/
  found : ∀ ref error, commit.liveAccount = some ref → commit.rejection = some error → isRescuable error = true →
    getAccountByIdentity commit.settled (commit.source.read commit.settled) commit.auth.val = some ref
  /-- No request has recorded a longer cooldown when a write is rejected. -/
  unobserved : ∀ ref error deadline storedAccount merged, commit.liveAccount = some ref → commit.plan = .writes storedAccount merged →
    commit.rejected = some error → commit.Recorded ref deadline → deadline ≤ commit.previousDeadline error ref
  /-- What the write has stored does not overrule a cooldown. -/
  survives : ∀ ref deadline storedAccount merged saved, commit.liveAccount = some ref → commit.plan = .writes storedAccount merged →
    commit.rejected = none → commit.Recorded ref deadline → merged.accounts.find? (hasRecordId storedAccount.recordId) = some saved →
      commit.recorded storedAccount = some ref →
        Survives (cooldownRow storedAccount) (cooldownRow saved) (cooldownRow (commit.later.object ref).row) deadline

end Commit

end

end CodexMultiAuth.RefreshCommit
