import CodexMultiAuth.InventoryLaw

/-!
The pointers of a merged document. A pointer is moved to where its account is
looked up among the merged rows, by the identity their merged ids resolve to;
the account itself is where it was merged.
-/
namespace CodexMultiAuth
open Option
set_option linter.unusedSectionVars false

def place (ids : List (Option String)) (id : String) : Option Nat := ids.findIdx? (fun other => decide (other = some id))

variable {ids : List (Option String)}
variable {id : String}

theorem place_isSome : (place ids id).isSome ↔ some id ∈ ids := by
  simp [place,List.findIdx?_isSome]

theorem place_getElem {i : Nat} (found : place ids id = some i) : ids[i]? = some (some id) := by
  obtain ⟨bound,hit,-⟩ := List.findIdx?_eq_some_iff_getElem.mp found
  rw [List.getElem?_eq_getElem bound]
  simpa using hit

theorem place_unique (distinct : ids.Nodup) {i : Nat} :
    ids[i]? = some (some id) ↔ place ids id = some i := by
  refine ⟨fun here => ?_,place_getElem⟩
  obtain ⟨j,found⟩ := isSome_iff_exists.mp (place_isSome.mpr (List.mem_of_getElem? here))
  have there := place_getElem found
  rw [found,← (List.getElem?_inj (List.getElem?_eq_some_iff.mp here).1 distinct).mp (here.trans there.symm)]

def denotes (ids : List (Option String)) (index : ℚ) (id : String) : Prop := item ids index = some (some id)

theorem denotes_natCast (distinct : ids.Nodup) {i : Nat} :
    denotes ids (i : ℚ) id ↔ place ids id = some i := by
  rw [denotes,item_natCast,place_unique distinct]

section
variable [Host] (base current loc : AccountStorageV3)

/-- Whom a merged pointer should denote: the writer's account where the writer
    moved the pointer, the disk's account elsewhere. -/
def pointerTarget (before onDisk next : Option ℚ) : Option String :=
  if pointer (mergeIdentity base current loc) loc next ≠ pointer (mergeIdentity base current loc) base before then
    pointer (mergeIdentity base current loc) loc next
  else pointer (mergeIdentity base current loc) current onDisk

def expectedAccounts : List (Option String) :=
  expectedIdentities (mergeIdentity base current loc) base.accounts current.accounts loc.accounts

def resolvedAccounts : List (Option String) :=
  resolvedIdentities (mergeIdentity base current loc) base.accounts current.accounts loc.accounts

/-- The pointers of a result denote the accounts they should. -/
structure PointersLaw (result : AccountStorageV3) : Prop where
  active : ∀ id, pointerTarget base current loc (some base.activeIndex) (some current.activeIndex) (some loc.activeIndex) = some id →
    some id ∈ expectedAccounts base current loc → denotes (expectedAccounts base current loc) result.activeIndex id
  family : ∀ family id, pointerTarget base current loc (familyIndex base family) (familyIndex current family) (familyIndex loc family) = some id →
    some id ∈ expectedAccounts base current loc →
    ∃ index, familyIndex result family = some index ∧ denotes (expectedAccounts base current loc) index id
  pin : ∀ id, pointerTarget base current loc base.pinnedAccountIndex current.pinnedAccountIndex loc.pinnedAccountIndex = some id →
    some id ∈ expectedAccounts base current loc →
    ∃ index, result.pinnedAccountIndex = some index ∧ denotes (expectedAccounts base current loc) index id
  pinDropped : ∀ id, pointerTarget base current loc base.pinnedAccountIndex current.pinnedAccountIndex loc.pinnedAccountIndex = some id →
    some id ∉ expectedAccounts base current loc → result.pinnedAccountIndex = none
  pinOther : ∀ index id, result.pinnedAccountIndex = some index → denotes (expectedAccounts base current loc) index id →
    pointerTarget base current loc base.pinnedAccountIndex current.pinnedAccountIndex loc.pinnedAccountIndex = some id

/-- Each pointer's account is first resolved to at its own row. -/
structure TargetsResolve : Prop where
  /-- An account that no row resolves to is looked for at the first row. -/
  active : ∀ id, pointerTarget base current loc (some base.activeIndex) (some current.activeIndex) (some loc.activeIndex) = some id →
    some id ∈ expectedAccounts base current loc → some ((place (resolvedAccounts base current loc) id).getD 0) = place (expectedAccounts base current loc) id
  family : ∀ family id, pointerTarget base current loc (familyIndex base family) (familyIndex current family) (familyIndex loc family) = some id →
    some id ∈ expectedAccounts base current loc → some ((place (resolvedAccounts base current loc) id).getD 0) = place (expectedAccounts base current loc) id
  pin : ∀ id, pointerTarget base current loc base.pinnedAccountIndex current.pinnedAccountIndex loc.pinnedAccountIndex = some id →
    place (resolvedAccounts base current loc) id = place (expectedAccounts base current loc) id

variable {base current loc}

theorem targetsResolve_of_same (same : resolvedAccounts base current loc = expectedAccounts base current loc) :
    TargetsResolve base current loc := by
  have found : ∀ id, some id ∈ expectedAccounts base current loc →
      some ((place (resolvedAccounts base current loc) id).getD 0) = place (expectedAccounts base current loc) id := by
    intro id stays
    obtain ⟨i,here⟩ := isSome_iff_exists.mp (place_isSome.mpr stays)
    rw [same,here]; rfl
  exact ⟨fun id _ => found id,fun _ id _ => found id,fun id _ => by rw [same]⟩

theorem targetsResolve_of_each (each : ∀ row ∈ remaining (mergeIdentity base current loc) base.accounts current.accounts loc.accounts,
      mergedIdentity (mergeIdentity base current loc) base.accounts loc.accounts row = mergeIdentity base current loc row) :
    TargetsResolve base current loc :=
  targetsResolve_of_same (by
    rw [resolvedAccounts,expectedAccounts,resolvedIdentities,expectedIdentities,List.map_congr_left each])

variable {result : AccountStorageV3}

section
variable (merge : DocumentsMerged base current loc result)
include merge

private theorem pick_place (before onDisk next : Option ℚ) :
    pick (mergeIdentity base current loc) result.accounts base current loc before onDisk next =
      (pointerTarget base current loc before onDisk next).map (fun id =>
        (place (resolvedAccounts base current loc) id).elim (-1) (fun i => (i : ℤ))) := by
  have position : ∀ id, result.accounts.findIdx? (fun row => decide (mergeIdentity base current loc row = some id)) =
      place (resolvedAccounts base current loc) id := by
    intro id
    rw [place,resolvedAccounts,← merge.identities,List.findIdx?_map]; rfl
  simp only [pick,CodexMultiAuth.position,position,pointerTarget]
  congr 1
  funext id
  cases place (resolvedAccounts base current loc) id <;> rfl

private theorem pickedIndex_place
    {before onDisk next : Option ℚ} {id : String} (aims : pointerTarget base current loc before onDisk next = some id) :
    pickedIndex (pick (mergeIdentity base current loc) result.accounts base current loc before onDisk next) =
      (((place (resolvedAccounts base current loc) id).getD 0 : Nat) : ℚ) := by
  rw [pick_place merge,aims]
  cases found : place (resolvedAccounts base current loc) id <;> simp [pickedIndex,found]

theorem pickedPin_place
    (before onDisk next : Option ℚ) :
    pickedPin (pick (mergeIdentity base current loc) result.accounts base current loc before onDisk next) =
      ((pointerTarget base current loc before onDisk next).bind (place (resolvedAccounts base current loc))).map (fun i : Nat => (i : ℚ)) := by
  rw [pick_place merge]
  cases pointerTarget base current loc before onDisk next with
  | none => rfl
  | some id => cases found : place (resolvedAccounts base current loc) id <;> simp [pickedPin,found]

private theorem familyIndex_place {family id : String}
    (aims : pointerTarget base current loc (familyIndex base family) (familyIndex current family) (familyIndex loc family) = some id) :
    familyIndex result family = some (((place (resolvedAccounts base current loc) id).getD 0 : Nat) : ℚ) := by
  have known : family ∈ OrderedMap.unionKeys [familyKeys base,familyKeys current,familyKeys loc] := by
    by_contra unknown
    have absent : ∀ storage : AccountStorageV3, family ∉ familyKeys storage → familyIndex storage family = none := by
      intro storage outside
      rw [familyKeys,← OrderedMap.find_eq_none] at outside
      unfold familyIndex
      cases map : storage.activeIndexByFamily with
      | none => rfl
      | some entries => simpa [map] using outside
    simp only [OrderedMap.mem_unionKeys,List.mem_cons,List.not_mem_nil,or_false,exists_eq_or_imp,exists_eq_left,not_or] at unknown
    simp [pointerTarget,pointer,absent _ unknown.1,absent _ unknown.2.1,absent _ unknown.2.2] at aims
  rw [← pickedIndex_place merge aims,familyIndex,merge.activeIndexByFamily,bind_some,
    OrderedMap.find_mapKeys (fun family => pickedIndex (pick (mergeIdentity base current loc) result.accounts base current loc
      (familyIndex base family) (familyIndex current family) (familyIndex loc family))),if_pos known]

theorem DocumentsMerged.pointers :
    PointersLaw base current loc result ↔ TargetsResolve base current loc := by
  have distinct : (expectedAccounts base current loc).Nodup :=
    nodup_expectedIdentities merge.distinct.inCurrent.distinct merge.distinct.inLocal.distinct
  have pinned := merge.pinnedAccountIndex
  rw [pickedPin_place merge] at pinned
  constructor
  · intro law
    refine ⟨fun id aims stays => ?_,fun family id aims stays => ?_,fun id aims => ?_⟩
    · have there := law.active id aims stays
      rw [merge.activeIndex,pickedIndex_place merge aims,denotes_natCast distinct] at there
      exact there.symm
    · obtain ⟨index,value,there⟩ := law.family family id aims stays
      rw [familyIndex_place merge aims,Option.some.injEq] at value
      rw [← value,denotes_natCast distinct] at there
      exact there.symm
    · rw [aims,bind_some] at pinned
      by_cases stays : some id ∈ expectedAccounts base current loc
      · obtain ⟨index,value,there⟩ := law.pin id aims stays
        rw [value] at pinned
        cases found : place (resolvedAccounts base current loc) id with
        | none => rw [found] at pinned; cases pinned
        | some i =>
          rw [found,map_some,Option.some.injEq] at pinned
          rw [pinned,denotes_natCast distinct] at there
          exact there.symm
      · rw [law.pinDropped id aims stays] at pinned
        have gone : place (expectedAccounts base current loc) id = none := by
          rw [← not_isSome_iff_eq_none,place_isSome]; exact stays
        rw [gone]
        cases found : place (resolvedAccounts base current loc) id with
        | none => rfl
        | some i => rw [found] at pinned; cases pinned
  · intro resolve
    refine ⟨fun id aims stays => ?_,fun family id aims stays => ?_,fun id aims stays => ?_,fun id aims gone => ?_,
      fun index id value there => ?_⟩
    · rw [merge.activeIndex,pickedIndex_place merge aims,denotes_natCast distinct]
      exact (resolve.active id aims stays).symm
    · refine ⟨_,familyIndex_place merge aims,?_⟩
      rw [denotes_natCast distinct]
      exact (resolve.family family id aims stays).symm
    · rw [aims,bind_some,resolve.pin id aims] at pinned
      obtain ⟨i,here⟩ := isSome_iff_exists.mp (place_isSome.mpr stays)
      rw [here] at pinned
      exact ⟨(i : ℚ),pinned,(denotes_natCast distinct).mpr here⟩
    · have nowhere : place (expectedAccounts base current loc) id = none := by
        rw [← not_isSome_iff_eq_none,place_isSome]; exact gone
      rw [aims,bind_some,resolve.pin id aims,nowhere] at pinned
      exact pinned
    · rw [value] at pinned
      cases aims : pointerTarget base current loc base.pinnedAccountIndex current.pinnedAccountIndex loc.pinnedAccountIndex with
      | none => rw [aims] at pinned; cases pinned
      | some aim =>
        rw [aims,bind_some,resolve.pin aim aims] at pinned
        cases found : place (expectedAccounts base current loc) aim with
        | none => rw [found] at pinned; cases pinned
        | some i =>
          rw [found,map_some,Option.some.injEq] at pinned
          rw [pinned,denotes,item_natCast,place_getElem found] at there
          exact Option.some.inj there

end

theorem denotes_pointer {identity : AccountMetadataV3 → Option String} {storage : AccountStorageV3} {index : ℚ} {id : String} :
    denotes (storage.accounts.map identity) index id ↔ pointer identity storage (some index) = some id := by
  rw [denotes,item_map,pointer,bind_some]
  cases item storage.accounts index <;> simp

private theorem firstSave_pointers : PointersLaw emptyStorage emptyStorage loc loc := by
  have identity : mergeIdentity emptyStorage emptyStorage loc = rowIdentity loc.accounts := by simp [mergeIdentity,emptyStorage]
  have accounts : expectedAccounts emptyStorage emptyStorage loc = loc.accounts.map (rowIdentity loc.accounts) := by
    rw [expectedAccounts,identity]
    simp [expectedIdentities,remaining,additions,emptyStorage,rowOf]
  have nobody : ∀ value, pointer (mergeIdentity emptyStorage emptyStorage loc) emptyStorage value = none := by
    intro value
    cases value with
    | none => rfl
    | some index => simp [pointer,emptyStorage,item]
  have aims : ∀ before onDisk next, pointerTarget emptyStorage emptyStorage loc before onDisk next =
      pointer (mergeIdentity emptyStorage emptyStorage loc) loc next := by
    intro before onDisk next
    simp only [pointerTarget,nobody]
    by_cases same : pointer (mergeIdentity emptyStorage emptyStorage loc) loc next = none <;> simp [same]
  have read : ∀ index id, denotes (expectedAccounts emptyStorage emptyStorage loc) index id ↔
      pointer (mergeIdentity emptyStorage emptyStorage loc) loc (some index) = some id := by
    intro index id
    rw [accounts,identity]
    exact denotes_pointer
  refine ⟨?_,?_,?_,?_,?_⟩
  · intro id aim _
    rw [aims] at aim
    exact (read _ _).mpr aim
  · intro family id aim _
    rw [aims] at aim
    cases value : familyIndex loc family with
    | none => simp [pointer,value] at aim
    | some index => exact ⟨index,rfl,(read _ _).mpr (value ▸ aim)⟩
  · intro id aim _
    rw [aims] at aim
    cases value : loc.pinnedAccountIndex with
    | none => simp [pointer,value] at aim
    | some index => exact ⟨index,rfl,(read _ _).mpr (value ▸ aim)⟩
  · intro id aim gone
    rw [aims] at aim
    cases value : loc.pinnedAccountIndex with
    | none => rfl
    | some index =>
      rw [value] at aim
      have there := (read _ _).mpr aim
      obtain ⟨i,-,hit⟩ := item_some there
      exact absurd (List.mem_of_getElem? hit) gone
  · intro index id value there
    rw [aims,value]
    exact (read _ _).mp there

end

section
variable [Host]

/-- The pointers of a merge denote the accounts they should exactly where these
    accounts are resolved to at their own rows. -/
theorem pointers_iff {base current : Option AccountStorageV3} {loc result : AccountStorageV3}
    (done : mergeAccountSnapshot base current loc = .ok result) :
    PointersLaw (base.getD emptyStorage) (current.getD emptyStorage) loc result ↔
      TargetsResolve (base.getD emptyStorage) (current.getD emptyStorage) loc := by
  rcases mergeAccountSnapshot_ok done with ⟨rfl,rfl,rfl⟩ | merged
  · exact ⟨fun _ => targetsResolve_of_each (by simp [remaining,emptyStorage]),fun _ => firstSave_pointers⟩
  · exact (mergeDocuments_merged merged).pointers

end

section
attribute [local instance] asciiHost

/-- The pin of the second account moves to the first, which resolves to it as well. -/
theorem pin_moves_with_merged_ids : DistinctDocuments ambiguousBase (ambiguousDisk (some 1)) ambiguousLocal ∧
    ∃ result, mergeAccountSnapshot (some ambiguousBase) (some (ambiguousDisk (some 1))) ambiguousLocal = .ok result ∧
      result.pinnedAccountIndex = some 0 ∧
      result.accounts.map (fun row => row.text "refreshToken") = [some "x",some "y"] ∧
      ¬ PointersLaw ambiguousBase (ambiguousDisk (some 1)) ambiguousLocal result := by
  refine ⟨⟨⟨?_,?_⟩,⟨?_,?_⟩,⟨?_,?_⟩⟩,?_⟩
  iterate 6 decide
  have value : (mergeAccountSnapshot (some ambiguousBase) (some (ambiguousDisk (some 1))) ambiguousLocal).toOption.map (fun result =>
      (result.pinnedAccountIndex,result.accounts.map (fun row => row.text "refreshToken"))) =
        some (some 0,[some "x",some "y"]) := by decide
  cases done : mergeAccountSnapshot (some ambiguousBase) (some (ambiguousDisk (some 1))) ambiguousLocal with
  | error e => rw [done] at value; cases value
  | ok result =>
    rw [done] at value
    obtain ⟨pin,tokens⟩ := Prod.mk.injEq .. ▸ Option.some.inj value
    refine ⟨result,rfl,pin,tokens,fun law => ?_⟩
    obtain ⟨index,moved,there⟩ := law.pin "account:b" (by decide) (by decide)
    rw [pin] at moved
    cases moved
    exact absurd there (by unfold denotes; decide)

private def pinnedBase : AccountStorageV3 := sampleDocument [sampleRow (some "r") "a" "x"] none
private def pinnedDisk : AccountStorageV3 := sampleDocument [sampleRow (some "s") "b" "y",sampleRow (some "r") "a" "x"] (some 1)
private def pinnedLocal : AccountStorageV3 := sampleDocument [sampleRow (some "r") "c" "x",sampleRow (some "t") "b" "z"] none

/-- A pin that the writer left alone follows its account on the disk. -/
theorem pointers_iff_two : ∃ result, mergeAccountSnapshot (some pinnedBase) (some pinnedDisk) pinnedLocal = .ok result ∧
    PointersLaw pinnedBase pinnedDisk pinnedLocal result := by
  have succeeds : (mergeAccountSnapshot (some pinnedBase) (some pinnedDisk) pinnedLocal).isOk = true := by decide
  cases done : mergeAccountSnapshot (some pinnedBase) (some pinnedDisk) pinnedLocal with
  | error e => rw [done] at succeeds; cases succeeds
  | ok result => exact ⟨result,rfl,(pointers_iff done).mpr (targetsResolve_of_each (by decide))⟩

end
end CodexMultiAuth
