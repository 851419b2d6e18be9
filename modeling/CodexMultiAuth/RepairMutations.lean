import CodexMultiAuth.Manager
import CodexMultiAuth.Runs

/-!
How a repair run writes its changes back. The run works on a copy of the stores
that it loaded long before; at the end each change looks its row up again among
the rows that are stored by then, and rewrites or removes what it found.
-/
namespace CodexMultiAuth.RepairMutations

/-- A row as the run loaded it and as the run left it. -/
structure AccountStorageMutation where
  before : AccountMetadataV3
  after : AccountMetadataV3
  deriving DecidableEq

/-- What every change writes, whether the run changed it or not. -/
def copiedFields : List String := ["refreshToken","accessToken","expiresAt","email","accountId","accountIdSource","enabled"]

def comparedFields : List String :=
  copiedFields ++ ["accountLabel","currentWorkspaceIndex","workspaces","codexCliMirror"]

namespace AccountStorageMutation

def changes (mutation : AccountStorageMutation) (k : String) : Bool := decide (mutation.before.find k ≠ mutation.after.find k)

def movesWorkspace (mutation : AccountStorageMutation) : Bool :=
  mutation.changes "currentWorkspaceIndex" || mutation.changes "workspaces"

end AccountStorageMutation

def hasAccountStorageMutation (mutation : AccountStorageMutation) : Bool := comparedFields.any mutation.changes

def collectAccountStorageMutations (beforeAccounts afterAccounts : List AccountMetadataV3) : List AccountStorageMutation :=
  ((beforeAccounts.zip afterAccounts).map (fun rows => ⟨rows.1,rows.2⟩)).filter hasAccountStorageMutation

def isTruthy : Json → Bool
  | .null => false
  | .bool value => value
  | .num value => decide (value ≠ 0)
  | .str value => decide (value ≠ "")
  | .arr _ => true
  | .obj _ => true

/-- The pointer that goes with the workspaces: its own if it points into them,
    else the place of the workspace that the account id names. -/
def workspacePointer (after : AccountMetadataV3) : Option Json :=
  match (after.find "workspaces").bind Json.asItems with
  | none => after.find "currentWorkspaceIndex"
  | some workspaces =>
    if (after.number "currentWorkspaceIndex").any (fun pointer => decide (0 ≤ pointer ∧ pointer < (workspaces.length : ℚ))) then
      after.find "currentWorkspaceIndex"
    else
      let named := fun workspace : Json => decide ((workspace.asRecord.bind (fun fields => fields.find "id")) = after.find "accountId")
      some (.num ((workspaces.findIdx? named).getD 0 : Nat))

/-- The matched row with the change written into it. -/
def writeMutation (mutation : AccountStorageMutation) (target : AccountMetadataV3) : AccountMetadataV3 :=
  let copied := copiedFields.foldl (fun row key => row.assign key (mutation.after.find key)) target
  let labelled := if mutation.changes "accountLabel" then copied.assign "accountLabel" (mutation.after.find "accountLabel") else copied
  let mirrored :=
    if mutation.changes "codexCliMirror" then
      labelled.assign "codexCliMirror" ((mutation.after.find "codexCliMirror").filter isTruthy)
    else labelled
  -- The pointer indexes the list, so the two move together.
  if mutation.movesWorkspace then
    (mirrored.assign "workspaces" (mutation.after.find "workspaces")).assign "currentWorkspaceIndex" (workspacePointer mutation.after)
  else mirrored

section
variable [Host]

/-- One round of the loop over the changes. -/
def applyAccountStorageMutation (storage : AccountStorageV3) (mutation : AccountStorageMutation) : AccountStorageV3 :=
  match (findMatchingAccountIndex storage.accounts mutation.before.toAccountLike true).or
      (findMatchingAccountIndex storage.accounts mutation.after.toAccountLike true) with
  | none => storage
  | some targetIndex => { storage with accounts := storage.accounts.modify targetIndex (writeMutation mutation) }

def applyAccountStorageMutations (storage : AccountStorageV3) (mutations : List AccountStorageMutation) : AccountStorageV3 :=
  mutations.foldl applyAccountStorageMutation storage

abbrev FlaggedAccountMetadataV1 := Record

/-- A flagged row as the run loaded it and as the run left it; without the latter it is restored. -/
structure FlaggedStorageMutation where
  before : FlaggedAccountMetadataV1
  after : Option FlaggedAccountMetadataV1
  deriving DecidableEq

/-- The account ids agree, and the emails unless the target has none; or, without
    an account id in common, the emails agree. -/
def hasStableIdentity (target account : FlaggedAccountMetadataV1) : Bool :=
  let targetEmail := sanitizeEmail (target.text "email")
  if (target.text "accountId").any (fun id => decide (id ≠ "")) && decide (account.text "accountId" = target.text "accountId") then
    targetEmail.isNone || decide (sanitizeEmail (account.text "email") = targetEmail)
  else targetEmail.isSome && decide (sanitizeEmail (account.text "email") = targetEmail)

def matchesFlagged (target account : FlaggedAccountMetadataV1) : Bool :=
  decide (account.text "refreshToken" = target.text "refreshToken") || hasStableIdentity target account

def findMatchingFlaggedAccountIndex (accounts : List FlaggedAccountMetadataV1) (target : FlaggedAccountMetadataV1) : Option Nat :=
  accounts.findIdx? (matchesFlagged target)

/-- Another token stands in the row of the target's stable identity. -/
def hasFlaggedRefreshTokenDrift (accounts : List FlaggedAccountMetadataV1) (target : FlaggedAccountMetadataV1) : Bool :=
  (accounts.find? (hasStableIdentity target)).any (fun current => decide (current.text "refreshToken" ≠ target.text "refreshToken"))

/-- The rows with one row replaced or taken out. -/
def replaceFlagged (accounts : List FlaggedAccountMetadataV1) (targetIndex : Nat) : Option FlaggedAccountMetadataV1 → List FlaggedAccountMetadataV1
  | some after => accounts.set targetIndex after
  | none => accounts.eraseIdx targetIndex

/-- One round of the loop over the flagged changes. -/
def applyFlaggedStorageMutation (accounts : List FlaggedAccountMetadataV1) (mutation : FlaggedStorageMutation) : List FlaggedAccountMetadataV1 :=
  match findMatchingFlaggedAccountIndex accounts mutation.before with
  | none => accounts
  | some targetIndex => replaceFlagged accounts targetIndex mutation.after

/-- The changes that a run commits: those whose row has still the token it was loaded with. -/
def safeFlaggedMutations (accounts : List FlaggedAccountMetadataV1) (mutations : List FlaggedStorageMutation) : List FlaggedStorageMutation :=
  mutations.filter (fun mutation => !hasFlaggedRefreshTokenDrift accounts mutation.before)

end
end CodexMultiAuth.RepairMutations
