import CodexMultiAuth.AccountMatch
import CodexMultiAuth.SnapshotMerge

/-!
What a process does with the storage file. A manager keeps its pool in the shape
it is serialized in, and the snapshot that its last save proposed: the baseline
that the next save is merged against.
-/
namespace CodexMultiAuth

section
variable [Host]

/-- A number as text; the numbers here are whole milliseconds. -/
def numberText (value : ℚ) : String :=
  if value.den = 1 then toString value.num else toString value.num ++ "/" ++ toString value.den

def deriveAccountRecordId (account : AccountMetadataV3) : String :=
  let seed := String.intercalate "\u0000"
    [numberText (account.addedAt.getD 0),(account.accountId.map trim).getD "",
      (account.email.map (fun email => Host.toLowerCase (trim email))).getD "",(account.refreshToken.map trim).getD ""]
  "record:" ++ Host.sha256 seed

/-- The persisted identity, or the derived one of a legacy row. -/
def resolveAccountRecordId (account : AccountMetadataV3) : String :=
  (account.recordId.bind (fun stored => nonEmpty (trim stored))).getD (deriveAccountRecordId account)

def sanitizeEmail (email : Option String) : Option String :=
  email.bind (fun email => (nonEmpty (trim email)).bind (fun trimmed =>
    if trimmed.toList.contains '@' then some (Host.toLowerCase trimmed) else none))

/-- A refreshed credential. The account id and the email are the claims of its
    access token, trimmed and sanitized. -/
structure OAuthAuthDetails where
  access : String
  refresh : String
  expires : ℚ
  accountId : Option String := none
  email : Option String := none

def candidateKey (candidate : AccountLike) : String :=
  candidate.accountId.getD "" ++ "|" ++ candidate.email.getD "" ++ "|" ++ candidate.refreshToken.getD ""

def pushCandidate (candidates : List AccountLike) (candidate : AccountLike) : List AccountLike :=
  if candidates.any (fun other => decide (candidateKey other = candidateKey candidate)) then candidates
  else candidates ++ [candidate]

def buildAccountIdentityCandidates (source : AccountLike) (auth : OAuthAuthDetails) : List AccountLike :=
  [source,
    ⟨source.accountId.or auth.accountId,source.email.or auth.email,source.refreshToken⟩,
    ⟨auth.accountId.or source.accountId,auth.email.or source.email,source.refreshToken⟩,
    ⟨auth.accountId.or source.accountId,auth.email.or source.email,some auth.refresh⟩].foldl pushCandidate []

def findAccountIndexByIdentity (accounts : List AccountMetadataV3) (source : AccountLike) (auth : OAuthAuthDetails) : Option Nat :=
  (buildAccountIdentityCandidates source auth).findSome? (fun candidate => findMatchingAccountIndex accounts candidate true)

structure Manager where
  /-- The pool and the selection as `buildStorageSnapshot` serializes them. -/
  live : AccountStorageV3
  persistenceBaseline : Option AccountStorageV3
  hadPersistedStorage : Bool := true

def loadAccount (account : AccountMetadataV3) : AccountMetadataV3 :=
  (account.put "recordId" (.str (resolveAccountRecordId account))).assign "email" ((sanitizeEmail account.email).map Json.str)

def hasRefreshToken (account : AccountMetadataV3) : Bool :=
  ((account.refreshToken.bind (fun token => nonEmpty (trim token)))).isSome

/-- The manager that a process loads, without a fallback credential. What else the
    constructor normalizes is neither an identity nor a credential. -/
def loadManager (stored : AccountStorageV3) : Manager where
  live := { stored with accounts := (stored.accounts.filter hasRefreshToken).map loadAccount,restoreReason := none }
  persistenceBaseline := some stored

/-- The last row of each identity key. -/
def diskByIdentity (accounts : List AccountMetadataV3) : OrderedMap String AccountMetadataV3 :=
  accounts.foldl (fun map account =>
    match getAccountIdentityKey account with
    | none => map
    | some key => map.put key account) []

/-- A valid invalidation mark of a row. -/
def authInvalidation (account : AccountMetadataV3) : Option Json :=
  if 0 < (account.number "authInvalidatedAt").getD 0 then account.find "authInvalidatedAt" else none

/-- A row of the pool with the token of the disk's row where that expires later,
    and with an invalidation that only the disk has. -/
def reconcileAccount (disk account : AccountMetadataV3) : AccountMetadataV3 :=
  let account :=
    if account.expiresAt.getD 0 < disk.expiresAt.getD 0 ∧ (disk.refreshToken.bind nonEmpty).isSome then
      ((account.assign "refreshToken" (disk.find "refreshToken")).assign "accessToken" (disk.find "accessToken")).assign
        "expiresAt" (disk.find "expiresAt")
    else account
  if (authInvalidation disk).isSome ∧ (authInvalidation account).isNone then
    let marked : AccountMetadataV3 := account.assign "authInvalidatedAt" (authInvalidation disk)
    if ((disk.text "authInvalidationErrorCode").bind nonEmpty).isSome then
      marked.assign "authInvalidationErrorCode" (disk.find "authInvalidationErrorCode")
    else marked
  else account

def reconcileTokensFromDisk (snapshot : AccountStorageV3) (current : Option AccountStorageV3) : AccountStorageV3 :=
  match current with
  | none => snapshot
  | some current =>
    { snapshot with
      accounts := snapshot.accounts.map (fun account =>
        match (getAccountIdentityKey account).bind (fun key => (diskByIdentity current.accounts).find key) with
        | none => account
        | some disk => reconcileAccount disk account) }

def updateFirst (matching : AccountMetadataV3 → Bool) (update : AccountMetadataV3 → AccountMetadataV3) :
    List AccountMetadataV3 → List AccountMetadataV3
  | [] => []
  | row :: rest => if matching row then update row :: rest else row :: updateFirst matching update rest

def hasRecordId (recordId : Option String) (row : AccountMetadataV3) : Bool := decide (row.recordId = recordId)

def withCooldown (row : AccountMetadataV3) (cooldown : Option Json × Option Json) : AccountMetadataV3 :=
  (row.assign "coolingDownUntil" cooldown.1).assign "cooldownReason" cooldown.2

def authFields : List String :=
  ["accessToken","refreshToken","expiresAt","accountId","accountIdSource","email","authInvalidatedAt","authInvalidationErrorCode",
    "coolingDownUntil","cooldownReason"]

def withAuthFields (refreshed row : AccountMetadataV3) : AccountMetadataV3 :=
  authFields.foldl (fun row field => row.assign field (refreshed.find field)) (row.assign "recordId" (refreshed.find "recordId"))

/-- A rotated credential is saved alone when an unrelated edit conflicts. -/
def rescueAuth (baseline current : AccountStorageV3) (refreshed : AccountMetadataV3) : Option (AccountStorageV3 × AccountStorageV3) :=
  let matching := fun row => decide (some (resolveAccountRecordId row) = refreshed.recordId)
  match baseline.accounts.find? matching, current.accounts.find? matching with
  | some prior, some disk =>
    if disk.find "refreshToken" ≠ prior.find "refreshToken" ∨ disk.find "enabled" = some (.bool false) ∨
        (disk.number "authInvalidatedAt").getD 0 ≠ 0 then none
    else
      let cooldown := mergeAccountCooldown (cooldownRow prior) (cooldownRow disk) (cooldownRow refreshed)
      some
        ({ current with
            accounts := updateFirst matching (fun row => withCooldown (withAuthFields refreshed row) cooldown) current.accounts },
          { baseline with accounts := updateFirst matching (withAuthFields refreshed) baseline.accounts })
  | _, _ => none

/-- The manager after a snapshot was persisted. The baseline stays in this
    manager's own inventory; after a refresh the blockers that were merged are
    known to the pool and to the baseline. -/
def persisted (manager : Manager) (baseline merged : AccountStorageV3) (refreshed : Option AccountMetadataV3) : Manager :=
  match refreshed with
  | none => { manager with persistenceBaseline := some baseline,hadPersistedStorage := true }
  | some refreshed =>
    match merged.accounts.find? (hasRecordId refreshed.recordId) with
    | none => { manager with persistenceBaseline := some baseline,hadPersistedStorage := true }
    | some saved =>
      { manager with
        live := { manager.live with
          accounts := updateFirst (hasRecordId refreshed.recordId) (fun row =>
            withCooldown row (mergeAccountCooldown (cooldownRow refreshed) (cooldownRow saved) (cooldownRow row))) manager.live.accounts }
        persistenceBaseline := some { baseline with
          accounts := updateFirst (hasRecordId refreshed.recordId) (fun row =>
            withCooldown row (saved.find "coolingDownUntil",saved.find "cooldownReason")) baseline.accounts }
        hadPersistedStorage := true }

/-- What is written to the file, and the manager after the write. -/
def persistSnapshot (manager : Manager) (current : Option AccountStorageV3) (proposed : AccountStorageV3)
    (refreshed : Option AccountMetadataV3) (runtimeOnConflict : Bool) : Except StorageError (AccountStorageV3 × Manager) :=
  match current with
  | none => .ok (proposed,persisted manager proposed proposed refreshed)
  | some current =>
    match mergeAccountSnapshot manager.persistenceBaseline (some current) proposed with
    | .ok merged => .ok (merged,persisted manager proposed merged refreshed)
    | .error e =>
      match manager.persistenceBaseline with
      | none => .error e
      | some baseline =>
        if runtimeOnConflict then
          match mergeAccountRuntimeObservations baseline current proposed with
          | .error e => .error e
          | .ok merged => .ok (merged,{ manager with hadPersistedStorage := true })
        else
          match refreshed.bind (fun refreshed => (storedRecordId refreshed).bind (fun _ => rescueAuth baseline current refreshed)) with
          | none => .error e
          | some (merged,rescuedBaseline) => .ok (merged,persisted manager rescuedBaseline merged refreshed)

def storageRemoved : StorageError := ⟨"Account storage was removed; reload before saving.","ESTALE"⟩

/-- A routine save. `synced` is the pool once the selection and the workspaces
    of the disk are folded into it. -/
def saveToDisk (manager : Manager) (synced : AccountStorageV3) (current : Option AccountStorageV3) (runtimeOnConflict : Bool) :
    Except StorageError (AccountStorageV3 × Manager) :=
  if current.isNone ∧ manager.hadPersistedStorage then .error storageRemoved
  else
    persistSnapshot { manager with live := synced } current (reconcileTokensFromDisk synced current) none runtimeOnConflict

def shouldUpdateAccountIdFromToken (account : AccountMetadataV3) : Bool :=
  ((account.accountId.bind nonEmpty).isNone || ((account.text "accountIdSource").bind nonEmpty).isNone) ||
    (decide (account.text "accountIdSource" = some "token") || decide (account.text "accountIdSource" = some "id_token"))

/-- An account with a refreshed credential, enabled and without an invalidation. -/
def updateFromAuth (auth : OAuthAuthDetails) (account : AccountMetadataV3) : AccountMetadataV3 :=
  let credential : AccountMetadataV3 :=
    ((account.put "refreshToken" (.str auth.refresh)).put "accessToken" (.str auth.access)).put "expiresAt" (.num auth.expires)
  let identified : AccountMetadataV3 :=
    match auth.accountId with
    | some accountId =>
      if shouldUpdateAccountIdFromToken account then
        (credential.put "accountId" (.str accountId)).put "accountIdSource" (.str "token")
      else credential
    | none => credential
  let named : AccountMetadataV3 :=
    match auth.email with
    | some email => identified.put "email" (.str email)
    | none => identified
  ((named.remove "enabled").remove "authInvalidatedAt").remove "authInvalidationErrorCode"

/-- A live backoff that a rotation does not clear. -/
def preservesCooldown (now : ℚ) (account : AccountMetadataV3) : Bool :=
  (account.find "cooldownReason").isSome && decide (account.cooldownReason ≠ some "auth-failure") &&
    decide (now < (account.number "coolingDownUntil").getD 0)

/-- What a commit proposes: the snapshot with the refreshed account, that
    account's row, and the pool with the refreshed live account. Nothing when the
    account cannot be resolved. -/
def refreshSnapshot (now : ℚ) (synced : AccountStorageV3) (current : Option AccountStorageV3) (source : AccountLike)
    (auth : OAuthAuthDetails) : Option (AccountStorageV3 × AccountMetadataV3 × AccountStorageV3) :=
  let nextStorage := reconcileTokensFromDisk synced current
  (findAccountIndexByIdentity nextStorage.accounts source auth).bind (fun storageIndex =>
    nextStorage.accounts[storageIndex]?.map (fun storedAccount =>
      let liveIndex := findAccountIndexByIdentity synced.accounts source auth
      let liveAccount := liveIndex.bind (fun i => synced.accounts[i]?)
      let preserved := liveAccount.filter (preservesCooldown now)
      let stored := withCooldown (updateFromAuth auth storedAccount)
        ((preserved.bind (fun row => row.find "coolingDownUntil")),(preserved.bind (fun row => row.find "cooldownReason")))
      let refreshLive := fun row =>
        if preserved.isSome then updateFromAuth auth row else withCooldown (updateFromAuth auth row) (none,none)
      ({ nextStorage with accounts := nextStorage.accounts.set storageIndex stored },stored,
        match liveIndex with
        | none => synced
        | some i => { synced with accounts := synced.accounts.modify i refreshLive })))

/-- Saves a refreshed credential: the file and the manager after it, or nothing
    when the account cannot be resolved. The live account is changed only when
    the write succeeds. -/
def commitRefreshedAuth (now : ℚ) (manager : Manager) (synced : AccountStorageV3) (current : Option AccountStorageV3)
    (source : AccountLike) (auth : OAuthAuthDetails) : Except StorageError (Option (AccountStorageV3 × Manager)) :=
  if current.isNone ∧ manager.hadPersistedStorage then .error storageRemoved
  else
    match refreshSnapshot now synced current source auth with
    | none => .ok none
    | some (nextStorage,stored,live) =>
      match persistSnapshot { manager with live := live } current nextStorage (some stored) false with
      | .error e => .error e
      | .ok written => .ok (some written)

end

/-- Two rows that differ at most in some fields. -/
def SameBut (keys : List String) (row after : AccountMetadataV3) : Prop := ∀ k, k ∉ keys → after.find k = row.find k

variable {keys : List String} {row after : AccountMetadataV3}

theorem SameBut.refl (keys : List String) (row : AccountMetadataV3) : SameBut keys row row := fun _ _ => rfl

theorem SameBut.trans {last : AccountMetadataV3} (first : SameBut keys row after) (second : SameBut keys after last) :
    SameBut keys row last :=
  fun k other => (second k other).trans (first k other)

theorem sameBut_assign {key : String} (member : key ∈ keys) (row : AccountMetadataV3) (value : Option Json) :
    SameBut keys row (row.assign key value) := by
  intro k other
  rw [OrderedMap.find_assign,if_neg]
  rintro rfl; exact other member

theorem sameBut_put {key : String} (member : key ∈ keys) (row : AccountMetadataV3) (value : Json) :
    SameBut keys row (row.put key value) := by
  intro k other
  rw [OrderedMap.find_put,if_neg]
  rintro rfl; exact other member

theorem sameBut_remove {key : String} (member : key ∈ keys) (row : AccountMetadataV3) : SameBut keys row (row.remove key) := by
  intro k other
  rw [OrderedMap.find_remove,if_neg]
  rintro rfl; exact other member

def cooldownKeys : List String := ["coolingDownUntil","cooldownReason"]

theorem withCooldown_sameBut (row : AccountMetadataV3) (cooldown : Option Json × Option Json) :
    SameBut cooldownKeys row (withCooldown row cooldown) :=
  (sameBut_assign (by simp [cooldownKeys]) _ _).trans (sameBut_assign (by simp [cooldownKeys]) _ _)

theorem find_withAuthFields (refreshed row : AccountMetadataV3) (k : String) :
    (withAuthFields refreshed row).find k = if k ∈ "recordId" :: authFields then refreshed.find k else row.find k := by
  rw [withAuthFields,OrderedMap.find_foldl_assign,OrderedMap.find_assign]
  by_cases auth : k ∈ authFields
  · simp [auth]
  · by_cases record : "recordId" = k
    · subst record; simp
    · simp [auth,record,Ne.symm record]

/-- What a reconciled row takes from the disk's. -/
def reconciledKeys : List String := ["refreshToken","accessToken","expiresAt","authInvalidatedAt","authInvalidationErrorCode"]

theorem reconcileAccount_sameBut (disk account : AccountMetadataV3) : SameBut reconciledKeys account (reconcileAccount disk account) := by
  have taken : ∀ key ∈ reconciledKeys, ∀ (row : AccountMetadataV3) value, SameBut reconciledKeys row (row.assign key value) :=
    fun key member row value => sameBut_assign member row value
  have marked : ∀ row : AccountMetadataV3, SameBut reconciledKeys row
      (if (authInvalidation disk).isSome ∧ (authInvalidation row).isNone then
        if ((disk.text "authInvalidationErrorCode").bind nonEmpty).isSome then
          (row.assign "authInvalidatedAt" (authInvalidation disk)).assign "authInvalidationErrorCode" (disk.find "authInvalidationErrorCode")
        else row.assign "authInvalidatedAt" (authInvalidation disk)
      else row) := by
    intro row
    split
    · split
      · exact (taken "authInvalidatedAt" (by simp [reconciledKeys]) _ _).trans
          (taken "authInvalidationErrorCode" (by simp [reconciledKeys]) _ _)
      · exact taken "authInvalidatedAt" (by simp [reconciledKeys]) _ _
    · exact SameBut.refl _ _
  refine SameBut.trans ?_ (marked _)
  split
  · exact ((taken "refreshToken" (by simp [reconciledKeys]) _ _).trans (taken "accessToken" (by simp [reconciledKeys]) _ _)).trans
      (taken "expiresAt" (by simp [reconciledKeys]) _ _)
  · exact SameBut.refl _ _

/-- What a refresh writes to a row. -/
def refreshedKeys : List String :=
  ["refreshToken","accessToken","expiresAt","accountId","accountIdSource","email","enabled","authInvalidatedAt","authInvalidationErrorCode"]

end CodexMultiAuth
