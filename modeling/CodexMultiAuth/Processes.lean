import CodexMultiAuth.Manager
import CodexMultiAuth.MergeContract
import CodexMultiAuth.InventoryLaw
import CodexMultiAuth.Runs

/-!
One storage file and any number of processes. Each transaction holds the file's
lock, so an action is a whole load, save or commit of one process. Whatever else
a process does to its pool leaves the identities and the credentials alone.
-/
namespace CodexMultiAuth

/-- What authenticates an account. -/
structure Credential where
  refreshToken : Option Json
  accessToken : Option Json
  expiresAt : Option Json
  deriving DecidableEq

def credential (row : AccountMetadataV3) : Credential := ⟨row.find "refreshToken",row.find "accessToken",row.find "expiresAt"⟩

def OAuthAuthDetails.credential (auth : OAuthAuthDetails) : Credential :=
  ⟨some (.str auth.refresh),some (.str auth.access),some (.num auth.expires)⟩

def Credential.expires (credential : Credential) : ℚ := (credential.expiresAt.bind Json.asNumber).getD 0

structure System where
  disk : AccountStorageV3
  managers : List Manager
  /-- The last credential committed for each account, by record id. -/
  latest : String → Option Credential

/-- The fields that only a load or a commit changes. -/
def settledKeys : List String := ["recordId","accountId","accountIdSource","email","refreshToken","accessToken","expiresAt"]

/-- A pool after anything but a load or a commit: rate limits, cooldowns,
    switches, workspaces, the selection. -/
def Touched (live synced : AccountStorageV3) : Prop :=
  List.Forall₂ (fun account after : AccountMetadataV3 => ∀ k ∈ settledKeys, after.find k = account.find k) live.accounts synced.accounts

theorem Touched.refl (live : AccountStorageV3) : Touched live live := List.forall₂_same.mpr (fun _ _ _ _ => rfl)

inductive Action where
  | load (synced : AccountStorageV3)
  | touch (process : Nat) (synced : AccountStorageV3)
  | save (process : Nat) (synced : AccountStorageV3) (runtimeOnConflict : Bool)
  /-- `account` is the record whose credential was spent for `auth`. -/
  | commit (process : Nat) (synced : AccountStorageV3) (account : String) (source : AccountLike) (auth : OAuthAuthDetails) (now : ℚ)

section
variable [Host]

/-- The system after an action; an action that fails leaves the file as it is. -/
def System.step (s : System) : Action → System
  | .load synced => { s with managers := s.managers ++ [{ loadManager s.disk with live := synced }] }
  | .touch process synced => { s with managers := s.managers.modify process (fun m => { m with live := synced }) }
  | .save process synced runtimeOnConflict =>
    match s.managers[process]? with
    | none => s
    | some m =>
      match saveToDisk m synced (some s.disk) runtimeOnConflict with
      | .error _ => { s with managers := s.managers.set process { m with live := synced } }
      | .ok (disk,m) => { s with disk := disk,managers := s.managers.set process m }
  | .commit process synced account source auth now =>
    match s.managers[process]? with
    | none => s
    | some m =>
      match commitRefreshedAuth now m synced (some s.disk) source auth with
      | .error _ => { s with managers := s.managers.set process { m with live := synced } }
      | .ok none => { s with managers := s.managers.set process { m with live := synced } }
      | .ok (some (disk,m)) =>
        { disk := disk
          managers := s.managers.set process m
          latest := fun id => if id = account then some auth.credential else s.latest id }

/-- What a process can do. A commit spends the account's last credential, which
    the process has, for one that expires later. -/
def Enabled (s : System) : Action → Prop
  | .load synced => Touched (loadManager s.disk).live synced
  | .touch process synced => ∃ m, s.managers[process]? = some m ∧ Touched m.live synced
  | .save process synced _ => ∃ m, s.managers[process]? = some m ∧ Touched m.live synced
  | .commit process synced account source auth _ =>
    ∃ m, s.managers[process]? = some m ∧ Touched m.live synced ∧
      ∃ row ∈ synced.accounts, resolveAccountRecordId row = account ∧ s.latest account = some (credential row) ∧
        source.refreshToken = row.refreshToken ∧ (credential row).expires < auth.expires

def start (disk : AccountStorageV3) : System where
  disk := disk
  managers := []
  latest id := (disk.accounts.find? (fun row => decide (resolveAccountRecordId row = id))).map credential

/-- The account id and the email that a row is recognized by. -/
def identityParts (row : AccountMetadataV3) : Option String × Option String :=
  (normalizeAccountIdKey row.accountId,normalizeEmailKey row.email)

/-- A stored row that a load takes over as it is: it has a token, its record id
    has no outer white space, and its email reads back. -/
def Reads (row : AccountMetadataV3) : Prop :=
  hasRefreshToken row = true ∧ trim (resolveAccountRecordId row) = resolveAccountRecordId row ∧
    identityParts (loadAccount row) = identityParts row

/-- The merge takes two rows for one account exactly when they are. -/
def Identified (base current loc : AccountStorageV3) : Prop :=
  ∀ x ∈ base.accounts ++ current.accounts ++ loc.accounts, ∀ y ∈ base.accounts ++ current.accounts ++ loc.accounts,
    mergeIdentity base current loc x = mergeIdentity base current loc y ↔ resolveAccountRecordId x = resolveAccountRecordId y

instance Identified.decidable (base current loc : AccountStorageV3) : Decidable (Identified base current loc) :=
  inferInstanceAs (Decidable (∀ x ∈ base.accounts ++ current.accounts ++ loc.accounts, ∀ y ∈ base.accounts ++ current.accounts ++ loc.accounts,
    mergeIdentity base current loc x = mergeIdentity base current loc y ↔ resolveAccountRecordId x = resolveAccountRecordId y))

/-- The row that an identity key finds is the account's own. -/
def OwnKeys (synced current : AccountStorageV3) : Prop :=
  ∀ account ∈ synced.accounts, ∀ disk,
    (getAccountIdentityKey account).bind (fun key => (diskByIdentity current.accounts).find key) = some disk →
      resolveAccountRecordId disk = resolveAccountRecordId account

/-- The refreshed account is resolved to its own rows. -/
def CommitsOwn (synced current : AccountStorageV3) (account : String) (source : AccountLike) (auth : OAuthAuthDetails) : Prop :=
  ((findAccountIndexByIdentity (reconcileTokensFromDisk synced (some current)).accounts source auth).bind (fun i =>
      (reconcileTokensFromDisk synced (some current)).accounts[i]?)).map resolveAccountRecordId = some account ∧
    ((findAccountIndexByIdentity synced.accounts source auth).bind (fun i => synced.accounts[i]?)).map resolveAccountRecordId = some account

/-- Every lookup of the action finds the account's own row. -/
def FindsOwn (s : System) : Action → Prop
  | .load _ => ∀ row ∈ s.disk.accounts, Reads row
  | .touch _ _ => True
  | .save process synced _ =>
    ∀ m base, s.managers[process]? = some m → m.persistenceBaseline = some base →
      Identified base s.disk (reconcileTokensFromDisk synced (some s.disk)) ∧ OwnKeys synced s.disk
  | .commit process synced account source auth now =>
    ∀ m base, s.managers[process]? = some m → m.persistenceBaseline = some base →
      (∀ next stored live, refreshSnapshot now synced (some s.disk) source auth = some (next,stored,live) →
        Identified base s.disk next) ∧ OwnKeys synced s.disk ∧ CommitsOwn synced s.disk account source auth

end
end CodexMultiAuth
