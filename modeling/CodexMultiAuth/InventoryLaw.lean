import CodexMultiAuth.MergeInventory

/-!
Which accounts a merge leaves. A merged row is identified by its merged ids, and
these need not resolve to the identity the account was matched by: a record id
that one side dropped leaves the row with the ids of the other.
-/
namespace CodexMultiAuth
open List
set_option linter.unusedSectionVars false

def identifyingKeys : List String := ["recordId","accountId","email","refreshToken"]

def mergedIds (base disk loc : AccountMetadataV3) : AccountMetadataV3 :=
  identifyingKeys.filterMap (fun k => (pickField (base.find k) (disk.find k) (loc.find k)).map (fun v => (k,v)))

section
variable (identity : AccountMetadataV3 → Option String) (base current loc : List AccountMetadataV3)

/-- Whom the merged ids of a row of the disk resolve to. -/
def mergedIdentity (row : AccountMetadataV3) : Option String :=
  match rowOf identity base (identity row), rowOf identity loc (identity row) with
  | some b, some l => identity (mergedIds b row l)
  | _, _ => identity row

/-- The identities a merge should leave, in its order. -/
def expectedIdentities : List (Option String) :=
  (remaining identity base current loc).map identity ++ (additions identity base current loc).map identity

/-- The identities that the merged rows resolve to. -/
def resolvedIdentities : List (Option String) :=
  (remaining identity base current loc).map (mergedIdentity identity base loc) ++ (additions identity base current loc).map identity

variable {identity base current loc}

theorem mem_expectedIdentities {id : Option String} : id ∈ expectedIdentities identity base current loc ↔
    (id ∈ current.map identity ∧ (id ∈ loc.map identity ∨ id ∉ base.map identity)) ∨
      (id ∈ loc.map identity ∧ id ∉ base.map identity ∧ id ∉ current.map identity) := by
  simp only [expectedIdentities,remaining,additions,survives,mem_append,mem_map,mem_filter,Bool.or_eq_true,
    Bool.and_eq_true,Option.isNone_iff_eq_none,rowOf_eq_none,rowOf_isSome]
  constructor
  · rintro (⟨row,⟨member,fresh | here⟩,rfl⟩ | ⟨row,⟨member,notBase,notDisk⟩,rfl⟩)
    · exact .inl ⟨⟨row,member,rfl⟩,.inr (by simpa using fresh)⟩
    · exact .inl ⟨⟨row,member,rfl⟩,.inl (by simpa using here)⟩
    · exact .inr ⟨⟨row,member,rfl⟩,by simpa using notBase,by simpa using notDisk⟩
  · rintro (⟨⟨row,member,rfl⟩,here | fresh⟩ | ⟨⟨row,member,rfl⟩,notBase,notDisk⟩)
    · exact .inl ⟨row,⟨member,.inr (by simpa using here)⟩,rfl⟩
    · exact .inl ⟨row,⟨member,.inl (by simpa using fresh)⟩,rfl⟩
    · exact .inr ⟨row,⟨member,by simpa using notBase,by simpa using notDisk⟩,rfl⟩

theorem nodup_expectedIdentities (onDisk : (current.map identity).Nodup) (onLocal : (loc.map identity).Nodup) :
    (expectedIdentities identity base current loc).Nodup := by
  refine nodup_append.mpr ⟨onDisk.sublist (filter_sublist.map _),onLocal.sublist (filter_sublist.map _),?_⟩
  rintro id kept id' added rfl
  obtain ⟨row,member,rfl⟩ := mem_map.mp kept
  obtain ⟨other,member',same⟩ := mem_map.mp added
  have fresh := (mem_filter.mp member').2
  simp only [Bool.and_eq_true,Option.isNone_iff_eq_none,rowOf_eq_none] at fresh
  exact fresh.2 (mem_map.mpr ⟨row,(mem_filter.mp member).1,same.symm⟩)

end

section
variable [Host]

theorem identifying_congr {row other : AccountMetadataV3} (same : ∀ k ∈ identifyingKeys, row.text k = other.text k) :
    getAccountIdentityKey row = getAccountIdentityKey other ∧ storedRecordId row = storedRecordId other := by
  have recordId := same "recordId" (by simp [identifyingKeys])
  have accountId := same "accountId" (by simp [identifyingKeys])
  have email := same "email" (by simp [identifyingKeys])
  have refreshToken := same "refreshToken" (by simp [identifyingKeys])
  constructor
  · simp only [getAccountIdentityKey,AccountMetadataV3.toAccountLike,AccountMetadataV3.accountId,AccountMetadataV3.email,
      AccountMetadataV3.refreshToken,accountId,email,refreshToken]
  · rw [storedRecordId,storedRecordId,AccountMetadataV3.recordId,AccountMetadataV3.recordId,recordId]

theorem rowIdentity_congr {rows : List AccountMetadataV3} {row other : AccountMetadataV3}
    (same : ∀ k ∈ identifyingKeys, row.text k = other.text k) : rowIdentity rows row = rowIdentity rows other := by
  obtain ⟨key,recordId⟩ := identifying_congr same
  rw [rowIdentity,rowIdentity,key,recordId]

private theorem identifying_owned {disk loc : AccountMetadataV3} {k : String} (member : k ∈ identifyingKeys) : UserOwned disk loc k := by
  simp only [identifyingKeys,mem_cons,not_mem_nil,or_false] at member
  refine ⟨?_,fun _ => ?_⟩ <;> rcases member with rfl | rfl | rfl | rfl <;> simp [observationKeys,workspaceKeys]

theorem MergedRow.identity {rows base loc : List AccountMetadataV3} {row merged : AccountMetadataV3}
    (merge : MergedRow (rowIdentity rows) base loc row merged) :
    rowIdentity rows merged = mergedIdentity (rowIdentity rows) base loc row := by
  cases inBase : rowOf (rowIdentity rows) base (rowIdentity rows row) with
  | none =>
    simp only [MergedRow,mergedIdentity,inBase] at merge ⊢
    rw [merge]
  | some b =>
    cases inLocal : rowOf (rowIdentity rows) loc (rowIdentity rows row) with
    | none =>
      simp only [MergedRow,mergedIdentity,inBase,inLocal] at merge ⊢
      rw [merge]
    | some l =>
      simp only [MergedRow,mergedIdentity,inBase,inLocal] at merge ⊢
      refine rowIdentity_congr (fun k member => ?_)
      have text := mergeValue_pick (merge.userOwned k (identifying_owned member))
      have read : (mergedIds b row l).find k = pickField (b.find k) (row.find k) (l.find k) := by
        rw [mergedIds,OrderedMap.find_tabulate,if_pos member]
      rw [Record.text,Record.text,read,text]

theorem DocumentsMerged.identities {base current loc result : AccountStorageV3} (merge : DocumentsMerged base current loc result) :
    result.accounts.map (mergeIdentity base current loc) =
      resolvedIdentities (mergeIdentity base current loc) base.accounts current.accounts loc.accounts := by
  obtain ⟨kept,accounts,rows⟩ := merge.accounts
  rw [accounts,map_append,resolvedIdentities]
  congr 1
  exact forall₂_map_eq (rows.imp (fun _ _ row => row.identity))

/-- The identities of a merge: what neither side removed and what either side added, each once. -/
structure InventoryLaw (identity : AccountMetadataV3 → Option String) (base current loc result : List AccountMetadataV3) : Prop where
  exact : ∀ id, id ∈ result.map identity ↔
    (id ∈ current.map identity ∧ (id ∈ loc.map identity ∨ id ∉ base.map identity)) ∨
      (id ∈ loc.map identity ∧ id ∉ base.map identity ∧ id ∉ current.map identity)
  once : (result.map identity).Nodup

/-- The merged ids of the accounts that stay resolve, taken together, to these accounts. -/
def IdentitiesKept (identity : AccountMetadataV3 → Option String) (base current loc : List AccountMetadataV3) : Prop :=
  ((remaining identity base current loc).map (mergedIdentity identity base loc)).Perm
    ((remaining identity base current loc).map identity)

theorem identitiesKept_of_each {identity : AccountMetadataV3 → Option String} {base current loc : List AccountMetadataV3}
    (each : ∀ row ∈ remaining identity base current loc, mergedIdentity identity base loc row = identity row) :
    IdentitiesKept identity base current loc := by
  rw [IdentitiesKept,map_congr_left each]

/-- The inventory law holds exactly where the merged ids still resolve to the accounts that stay. -/
theorem inventory_iff {base current : Option AccountStorageV3} {loc result : AccountStorageV3}
    (distinct : DistinctDocuments (base.getD emptyStorage) (current.getD emptyStorage) loc)
    (done : mergeAccountSnapshot base current loc = .ok result) :
    InventoryLaw (mergeIdentity (base.getD emptyStorage) (current.getD emptyStorage) loc)
        (base.getD emptyStorage).accounts (current.getD emptyStorage).accounts loc.accounts result.accounts ↔
      IdentitiesKept (mergeIdentity (base.getD emptyStorage) (current.getD emptyStorage) loc)
        (base.getD emptyStorage).accounts (current.getD emptyStorage).accounts loc.accounts := by
  have identities : result.accounts.map (mergeIdentity (base.getD emptyStorage) (current.getD emptyStorage) loc) =
      resolvedIdentities (mergeIdentity (base.getD emptyStorage) (current.getD emptyStorage) loc)
        (base.getD emptyStorage).accounts (current.getD emptyStorage).accounts loc.accounts := by
    rcases mergeAccountSnapshot_ok done with ⟨rfl,rfl,rfl⟩ | merged
    · simp [resolvedIdentities,remaining,additions,rowOf,emptyStorage]
    · exact (mergeDocuments_merged merged).identities
  have expected := @nodup_expectedIdentities _ (base.getD emptyStorage).accounts _ _ distinct.inCurrent.distinct
    distinct.inLocal.distinct
  have together : IdentitiesKept (mergeIdentity (base.getD emptyStorage) (current.getD emptyStorage) loc)
        (base.getD emptyStorage).accounts (current.getD emptyStorage).accounts loc.accounts ↔
      (result.accounts.map (mergeIdentity (base.getD emptyStorage) (current.getD emptyStorage) loc)).Perm
        (expectedIdentities (mergeIdentity (base.getD emptyStorage) (current.getD emptyStorage) loc)
          (base.getD emptyStorage).accounts (current.getD emptyStorage).accounts loc.accounts) := by
    rw [identities,resolvedIdentities,expectedIdentities,perm_append_right_iff]; rfl
  rw [together]
  constructor
  · intro law
    refine (perm_ext_iff_of_nodup law.once expected).mpr (fun id => ?_)
    rw [law.exact,mem_expectedIdentities]
  · intro same
    refine ⟨fun id => ?_,same.nodup_iff.mpr expected⟩
    rw [same.mem_iff,mem_expectedIdentities]

end
section
attribute [local instance] asciiHost

def sampleRow (recordId : Option String) (accountId refreshToken : String) : AccountMetadataV3 :=
  ((recordId.map (fun id => ("recordId",Json.str id))).toList) ++
    [("accountId",.str accountId),("refreshToken",.str refreshToken),("addedAt",.num 0),("lastUsed",.num 0)]

def sampleDocument (accounts : List AccountMetadataV3) (pin : Option ℚ) : AccountStorageV3 where
  accounts := accounts
  activeIndex := 0
  pinnedAccountIndex := pin

/-- Two records share an account id with a row that has none. -/
def ambiguousBase : AccountStorageV3 :=
  sampleDocument [sampleRow (some "r") "a" "x",sampleRow none "b" "y",sampleRow (some "s") "b" "z"] none

/-- The disk dropped the record id of the first account. -/
def ambiguousDisk (pin : Option ℚ) : AccountStorageV3 := sampleDocument [sampleRow none "a" "x",sampleRow none "b" "y"] pin

/-- The writer moved the first account to the shared account id. -/
def ambiguousLocal : AccountStorageV3 := sampleDocument [sampleRow (some "r") "b" "x",sampleRow none "b" "y"] none

/-- Two rows of the result are one account. -/
theorem merged_account_twice : DistinctDocuments ambiguousBase (ambiguousDisk none) ambiguousLocal ∧
    ∃ result, mergeAccountSnapshot (some ambiguousBase) (some (ambiguousDisk none)) ambiguousLocal = .ok result ∧
      ¬ InventoryLaw (mergeIdentity ambiguousBase (ambiguousDisk none) ambiguousLocal) ambiguousBase.accounts
        (ambiguousDisk none).accounts ambiguousLocal.accounts result.accounts := by
  refine ⟨⟨⟨?_,?_⟩,⟨?_,?_⟩,⟨?_,?_⟩⟩,?_⟩
  iterate 6 decide
  have value : (mergeAccountSnapshot (some ambiguousBase) (some (ambiguousDisk none)) ambiguousLocal).toOption.map (fun result =>
      result.accounts.map (mergeIdentity ambiguousBase (ambiguousDisk none) ambiguousLocal)) =
        some [some "account:b",some "account:b"] := by decide
  cases done : mergeAccountSnapshot (some ambiguousBase) (some (ambiguousDisk none)) ambiguousLocal with
  | error e => rw [done] at value; cases value
  | ok result =>
    rw [done] at value
    have same : result.accounts.map (mergeIdentity ambiguousBase (ambiguousDisk none) ambiguousLocal) =
      [some "account:b",some "account:b"] := Option.some.inj value
    refine ⟨result,rfl,fun law => ?_⟩
    have once := law.once
    rw [same] at once
    exact absurd once (by decide)

private def grownBase : AccountStorageV3 := sampleDocument [sampleRow (some "r") "a" "x"] none
private def grownDisk : AccountStorageV3 := sampleDocument [sampleRow (some "s") "b" "y",sampleRow (some "r") "a" "x"] none
private def grownLocal : AccountStorageV3 := sampleDocument [sampleRow (some "r") "c" "x",sampleRow (some "t") "b" "z"] none

/-- An account that only the disk has and one that only the writer has are both there. -/
theorem inventory_iff_two : ∃ result, mergeAccountSnapshot (some grownBase) (some grownDisk) grownLocal = .ok result ∧
    InventoryLaw (mergeIdentity grownBase grownDisk grownLocal) grownBase.accounts grownDisk.accounts grownLocal.accounts
      result.accounts := by
  have succeeds : (mergeAccountSnapshot (some grownBase) (some grownDisk) grownLocal).isOk = true := by decide
  cases done : mergeAccountSnapshot (some grownBase) (some grownDisk) grownLocal with
  | error e => rw [done] at succeeds; cases succeeds
  | ok result =>
    refine ⟨result,rfl,(inventory_iff ⟨⟨?_,?_⟩,⟨?_,?_⟩,⟨?_,?_⟩⟩ done).mpr (identitiesKept_of_each ?_)⟩
    all_goals decide

end
end CodexMultiAuth
