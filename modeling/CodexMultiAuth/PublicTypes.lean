import CodexMultiAuth.Json

/-!
The account documents. A row is kept as the JSON object it is, so that fields no
rule mentions are carried along; the accessors read the fields that rules do
mention.
-/
namespace CodexMultiAuth

/-- One account as it is stored. -/
abbrev AccountMetadataV3 := Record

namespace AccountMetadataV3
def recordId (row : AccountMetadataV3) : Option String := row.text "recordId"
def accountId (row : AccountMetadataV3) : Option String := row.text "accountId"
def email (row : AccountMetadataV3) : Option String := row.text "email"
def refreshToken (row : AccountMetadataV3) : Option String := row.text "refreshToken"
def accessToken (row : AccountMetadataV3) : Option String := row.text "accessToken"
def expiresAt (row : AccountMetadataV3) : Option ℚ := row.number "expiresAt"
def cooldownReason (row : AccountMetadataV3) : Option String := row.text "cooldownReason"
def lastUsed (row : AccountMetadataV3) : Option ℚ := row.number "lastUsed"
def addedAt (row : AccountMetadataV3) : Option ℚ := row.number "addedAt"
end AccountMetadataV3

/-- One workspace of an account. -/
abbrev Workspace := Record

def Workspace.id (row : Workspace) : Option String := row.text "id"

/-- The stored document. `fields` holds every property that has no field of its
    own here, such as the version and the affinity generation. -/
structure AccountStorageV3 where
  accounts : List AccountMetadataV3
  activeIndex : ℚ
  activeIndexByFamily : Option (OrderedMap String ℚ) := none
  pinnedAccountIndex : Option ℚ := none
  restoreReason : Option String := none
  fields : Record := []

/-- What a failed operation throws. -/
structure StorageError where
  message : String
  code : String
  deriving DecidableEq, Repr

/-- The element at a JavaScript number: absent unless the number is a valid index. -/
def item {α : Type} (rows : List α) (index : ℚ) : Option α :=
  if index.den = 1 ∧ 0 ≤ index.num then rows[index.num.toNat]? else none

@[simp] theorem item_natCast {α : Type} (rows : List α) (n : Nat) : item rows (n : ℚ) = rows[n]? := by
  simp [item]

theorem item_map {α β : Type} (f : α → β) (rows : List α) (index : ℚ) : item (rows.map f) index = (item rows index).map f := by
  unfold item
  split
  · exact List.getElem?_map
  · rfl

theorem item_some {α : Type} {rows : List α} {index : ℚ} {a : α} (found : item rows index = some a) :
    ∃ n : Nat, index = n ∧ rows[n]? = some a := by
  simp only [item] at found
  split at found
  · rename_i whole
    refine ⟨index.num.toNat,?_,found⟩
    have value : index = (index.num : ℚ) := (Rat.den_eq_one_iff index).mp whole.1 |>.symm
    have back : ((index.num.toNat : ℤ) : ℚ) = (index.num : ℚ) := by rw [Int.toNat_of_nonneg whole.2]
    rw [value]; exact_mod_cast back.symm
  · simp at found

end CodexMultiAuth
