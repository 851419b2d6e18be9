import CodexMultiAuth.MergePointers
import CodexMultiAuth.MergeContract

/-!
The fallback of a save that conflicted. It puts the writer's observations on the
base and merges that, so that the user's fields have not changed since the base
and cannot conflict.
-/
namespace CodexMultiAuth
open List
set_option linter.unusedSectionVars false

/-- The fields that the fallback takes from the writer's row. -/
def observedKeys : List String := ["rateLimitResetTimes","coolingDownUntil","cooldownReason","lastSwitchReason"]

variable (prior next : AccountMetadataV3)

private theorem find_observeAccount (k : String) :
    (observeAccount prior next).find k =
      if k = "workspaces" then
        (prior.workspaces.map (fun rows => Json.arr (rows.map (fun row => .obj (observeWorkspace (next.workspaces.getD []) row))))).or
          (prior.find "workspaces")
      else if k ∈ observedKeys then next.find k
      else if k = "lastUsed" then some (lastUse prior next)
      else prior.find k := by
  have observed : ∀ k, k ≠ "workspaces" →
      OrderedMap.find (["rateLimitResetTimes","coolingDownUntil","cooldownReason","lastSwitchReason"].foldl
          (fun row field => OrderedMap.assign row field (next.find field)) (prior.put "lastUsed" (lastUse prior next))) k =
        if k ∈ observedKeys then next.find k else if k = "lastUsed" then some (lastUse prior next) else prior.find k := by
    intro k other
    rw [OrderedMap.find_foldl_assign,OrderedMap.find_put,observedKeys]
    simp only [eq_comm]
  unfold observeAccount
  cases list : prior.workspaces with
  | none =>
    by_cases same : k = "workspaces"
    · subst same; simp
    · rw [if_neg same]; exact observed k same
  | some rows =>
    by_cases same : k = "workspaces"
    · subst same; simp
    · rw [if_neg same,← observed k same]
      simp [Ne.symm same,lastUse]

private theorem observeAccount_kept {k : String} (other : k ∉ observedKeys) (list : k ≠ "workspaces")
    (used : k ≠ "lastUsed") : (observeAccount prior next).find k = prior.find k := by
  rw [find_observeAccount,if_neg list,if_neg other,if_neg used]

theorem observeAccount_limit (k : String) : limit (observeAccount prior next) k = limit next k := by
  have limits : (observeAccount prior next).find "rateLimitResetTimes" = next.find "rateLimitResetTimes" := by
    rw [find_observeAccount]; simp [observedKeys]
  simp only [limit,AccountMetadataV3.rateLimitResetTimes,Record.record,limits]

private theorem workspaces_observeAccount :
    AccountMetadataV3.workspaces (observeAccount prior next) =
      prior.workspaces.map (List.map (observeWorkspace (next.workspaces.getD []))) := by
  rw [AccountMetadataV3.workspaces,Record.records,find_observeAccount,if_pos rfl]
  cases list : prior.workspaces with
  | none => simpa [AccountMetadataV3.workspaces,Record.records] using list
  | some rows =>
    have items : rows.map (fun row => Json.obj (observeWorkspace (next.workspaces.getD []) row)) =
        (rows.map (observeWorkspace (next.workspaces.getD []))).map Json.obj := by rw [map_map]; rfl
    simp only [Option.map_some,Option.some_or,Option.bind_some,Json.asItems,items,filterMap_asRecord]

private theorem observeWorkspace_id (next : List Workspace) (row : Workspace) : (observeWorkspace next row).id = row.id := by
  unfold observeWorkspace
  split
  · rfl
  · simp [Workspace.id,Record.text,find_withState]

private theorem byId_map {f : Workspace → Workspace} (keeps : ∀ row, (f row).id = row.id) (rows : List Workspace) (id : Option String) :
    (byId (rows.map f)).find id = ((byId rows).find id).map f := by
  induction rows using List.reverseRecOn with
  | nil => rfl
  | append_singleton rows last ih =>
    rw [map_append,map_singleton,byId_append,byId_append,OrderedMap.find_put,OrderedMap.find_put,ih,keeps]
    split <;> rfl

private theorem workspaceOf_observeAccount (id : Option String) :
    workspaceOf (observeAccount prior next) id = (workspaceOf prior id).map (observeWorkspace (next.workspaces.getD [])) := by
  rw [workspaceOf,workspaces_observeAccount,workspaceOf,← byId_map (observeWorkspace_id _)]
  cases prior.workspaces <;> rfl

private theorem currentWorkspaceId_observeAccount :
    currentWorkspaceId (observeAccount prior next) = currentWorkspaceId prior := by
  have index : (observeAccount prior next).find "currentWorkspaceIndex" = prior.find "currentWorkspaceIndex" :=
    observeAccount_kept prior next (by simp [observedKeys]) (by simp) (by simp)
  rw [currentWorkspaceId,currentWorkspaceId,workspaces_observeAccount,Record.number,index]
  cases prior.workspaces with
  | none => rfl
  | some rows =>
    simp only [Option.map_some,Option.bind_some,item_map]
    rw [← Record.number]
    cases item rows ((Record.number prior "currentWorkspaceIndex").getD 0) <;> simp [observeWorkspace_id]

theorem observeAccount_observes (prior disk next : AccountMetadataV3) : Observes prior disk (observeAccount prior next) where
  field k owned := by
    obtain ⟨other,untouched⟩ := owned
    simp only [observationKeys,mem_cons,not_mem_nil,or_false,not_or] at other
    by_cases same : k = "workspaces"
    · subst same
      cases list : prior.workspaces with
      | none => rw [find_observeAccount,if_pos rfl,list]; rfl
      | some rows => exact absurd (by simp [workspaceKeys]) (untouched (.inr (by simp [workspaces_observeAccount,list])))
    · exact observeAccount_kept prior next (by simp [observedKeys,other]) same other.1
  enabled := by
    rw [isDisabled,observeAccount_kept prior next (by simp [observedKeys]) (by simp) (by simp)]; rfl
  workspace id := by rw [workspaceOf_observeAccount]; cases workspaceOf prior id <;> rfl
  workspaceField id k other := by
    rw [workspaceOf_observeAccount]
    cases workspaceOf prior id with
    | none => rfl
    | some row =>
      simp only [stateKeys,mem_cons,not_mem_nil,or_false,not_or] at other
      simp only [workspaceField,Option.map_some,Option.bind_some,observeWorkspace]
      split
      · rfl
      · rw [find_withState,if_neg other.1,if_neg other.2]
  selection := currentWorkspaceId_observeAccount prior next

private theorem Observes.agrees {base disk loc : AccountMetadataV3} (observes : Observes base disk loc) : ¬ AccountDiverged base disk loc := by
  rintro (⟨k,owned,-,apart,-⟩ | ⟨id,k,other,-,-,-,apart,-⟩)
  · exact apart (observes.field k owned).symm
  · exact apart (observes.workspaceField id k other).symm

/-- What the fallback carries of the writer's row to the merged one: each limit,
    workspace state and cooldown that the disk did not change. A lowered cooldown
    is not carried, nor an auth failure of a credential that the disk replaced. -/
structure ObservationsCarried (base disk next merged : AccountMetadataV3) : Prop where
  rateLimit : ∀ k, limit disk k = limit base k → limit merged k = limit next k
  raised : (next.find "cooldownReason" = some (.str "auth-failure") → disk.find "refreshToken" = base.find "refreshToken") →
    disk.find "coolingDownUntil" = base.find "coolingDownUntil" → next.find "coolingDownUntil" ≠ none →
    numberOrZero (base.find "coolingDownUntil") < numberOrZero (next.find "coolingDownUntil") →
    merged.find "coolingDownUntil" = next.find "coolingDownUntil" ∧ merged.find "cooldownReason" = next.find "cooldownReason"
  cleared : (next.find "cooldownReason" = some (.str "auth-failure") → disk.find "refreshToken" = base.find "refreshToken") →
    disk.find "coolingDownUntil" = base.find "coolingDownUntil" → base.find "coolingDownUntil" ≠ none →
    next.find "coolingDownUntil" = none → merged.find "coolingDownUntil" = none ∧ merged.find "cooldownReason" = none
  state : ∀ id updated, (next.workspaces.getD []).find? (fun row => decide (row.id = id)) = some updated →
    (workspaceOf base id).isSome → (workspaceOf disk id).isSome →
    stateOf (workspaceOf disk id) = stateOf (workspaceOf base id) → stateOf (workspaceOf merged id) = workspaceState updated

theorem observeAccount_carried {base disk next merged : AccountMetadataV3} (merge : AccountMerged base disk (observeAccount base next) merged) :
    ObservationsCarried base disk next merged := by
  have token : (observeAccount base next).find "refreshToken" = base.find "refreshToken" :=
    observeAccount_kept base next (by simp [observedKeys]) (by simp) (by simp)
  have deadline : (observeAccount base next).find "coolingDownUntil" = next.find "coolingDownUntil" := by
    rw [find_observeAccount]; simp [observedKeys]
  have reason : (observeAccount base next).find "cooldownReason" = next.find "cooldownReason" := by
    rw [find_observeAccount]; simp [observedKeys]
  have rules : (next.find "cooldownReason" = some (.str "auth-failure") → disk.find "refreshToken" = base.find "refreshToken") →
      CooldownMerged (cooldownRow base) (cooldownRow disk) (cooldownRow (observeAccount base next))
        (merged.find "coolingDownUntil",merged.find "cooldownReason") := by
    intro fresh
    rw [merge.cooldown]
    refine mergeAccountCooldown_merged token (fun failed => fresh ?_)
    rw [← reason]; exact failed
  refine ⟨fun k same => ?_,fun fresh same known raised => ?_,fun fresh same known gone => ?_,fun id updated found inBase onDisk same => ?_⟩
  · rw [merge.rateLimit,(mergeRateLimit_threeWay _ _ _).diskKept same]
    exact observeAccount_limit base next k
  · have later := (rules fresh).locRaised same (by simpa only [cooldownRow,deadline] using known)
      (by simpa only [cooldownRow,deadline] using raised)
    simpa only [cooldownRow,deadline,reason,Prod.mk.injEq] using later
  · have clear := (rules fresh).cleared known (.inr ⟨by simpa only [cooldownRow,deadline] using gone,same⟩)
    simpa only [Prod.mk.injEq] using clear
  · have tracked : disk.workspaces.isSome := by
      by_contra untracked
      simp [workspaceOf_untracked (by simpa using untracked)] at onDisk
    have observedState : stateOf (workspaceOf (observeAccount base next) id) = workspaceState updated := by
      obtain ⟨row,here⟩ := Option.isSome_iff_exists.mp inBase
      have ids : row.id = id := (byId_sound here).2
      rw [workspaceOf_observeAccount,here]
      simp [stateOf,observeWorkspace,ids,found,workspaceState,find_withState]
    have unit := ((merge.workspace (.inl tracked)).2 id).state onDisk (by rw [workspaceOf_observeAccount]; simpa using inBase)
    rw [unit.diskKept same,observedState]

/-! ### The documents -/

section
variable [Host]

/-- A row of the base with the observations of the writer's first matching row. -/
def observed (loc : AccountStorageV3) (prior : AccountMetadataV3) : AccountMetadataV3 :=
  match loc.accounts.find? (observationMatches prior) with
  | none => prior
  | some next => observeAccount prior next

variable (loc : AccountStorageV3)

theorem observed_observes (prior disk : AccountMetadataV3) : Observes prior disk (observed loc prior) := by
  unfold observed
  split
  · exact Observes.refl prior disk
  · exact observeAccount_observes prior disk _

private theorem observed_text (prior : AccountMetadataV3) :
    ∀ k ∈ identifyingKeys, (observed loc prior).text k = prior.text k := by
  intro k member
  simp only [identifyingKeys,mem_cons,not_mem_nil,or_false] at member
  unfold observed
  split
  · rfl
  · rw [Record.text,observeAccount_kept] <;> rcases member with rfl | rfl | rfl | rfl <;> simp [observedKeys,Record.text]

private theorem aliasIds_observed (base current : List AccountMetadataV3) (key : String) :
    aliasIds (base ++ current ++ base.map (observed loc)) key = aliasIds (base ++ current) key := by
  have each : (base.map (observed loc)).filterMap (fun row => if getAccountIdentityKey row = some key then storedRecordId row else none) =
      base.filterMap (fun row => if getAccountIdentityKey row = some key then storedRecordId row else none) := by
    rw [filterMap_map]
    refine filterMap_congr (fun row _ => ?_)
    obtain ⟨sameKey,sameId⟩ := identifying_congr (observed_text loc row)
    rw [Function.comp_apply,sameKey,sameId]
  simp only [aliasIds,filterMap_append,each]
  rw [eraseDups_append]
  have nothing : List.removeAll (base.filterMap (fun row => if getAccountIdentityKey row = some key then storedRecordId row else none))
      (base.filterMap (fun row => if getAccountIdentityKey row = some key then storedRecordId row else none) ++
        current.filterMap (fun row => if getAccountIdentityKey row = some key then storedRecordId row else none)) = [] := by
    refine filter_eq_nil_iff.mpr (fun id member => ?_)
    simp only [elem_eq_mem,mem_append,member,true_or,decide_true,Bool.not_true,Bool.false_eq_true,not_false_eq_true]
  rw [nothing]
  simp

variable (base current loc : AccountStorageV3)

theorem mergeIdentity_observed :
    mergeIdentity base current (observedBase base loc) = rowIdentity (base.accounts ++ current.accounts) := by
  have accounts : (observedBase base loc).accounts = base.accounts.map (observed loc) := rfl
  funext row
  rw [mergeIdentity,accounts,rowIdentity,rowIdentity]
  simp only [aliasIds_observed]

private theorem observedBase_ids (rows : List AccountMetadataV3) (base loc : AccountStorageV3) :
    (observedBase base loc).accounts.map (rowIdentity rows) = base.accounts.map (rowIdentity rows) := by
  have accounts : (observedBase base loc).accounts = base.accounts.map (observed loc) := rfl
  rw [accounts,map_map]
  exact map_congr_left (fun row _ => rowIdentity_congr (observed_text loc row))

private theorem rowOf_observedBase (rows : List AccountMetadataV3) (base loc : AccountStorageV3) (id : Option String) :
    rowOf (rowIdentity rows) (observedBase base loc).accounts id = (rowOf (rowIdentity rows) base.accounts id).map (observed loc) := by
  have accounts : (observedBase base loc).accounts = base.accounts.map (observed loc) := rfl
  have each : (fun row => decide (rowIdentity rows row = id)) ∘ observed loc = fun row => decide (rowIdentity rows row = id) := by
    funext row
    rw [Function.comp_apply,rowIdentity_congr (observed_text loc row)]
  rw [accounts,rowOf,List.find?_map,each,rowOf]

private theorem pointerTarget_observed (before onDisk : Option ℚ) :
    pointerTarget base current (observedBase base loc) before onDisk before =
      pointer (rowIdentity (base.accounts ++ current.accounts)) current onDisk := by
  have same : pointer (rowIdentity (base.accounts ++ current.accounts)) (observedBase base loc) before =
      pointer (rowIdentity (base.accounts ++ current.accounts)) base before := by
    have accounts : (observedBase base loc).accounts = base.accounts.map (observed loc) := rfl
    cases before with
    | none => rfl
    | some index =>
      simp only [pointer,Option.bind_some,accounts,item_map]
      cases item base.accounts index with
      | none => rfl
      | some row => exact rowIdentity_congr (observed_text loc row)
  rw [pointerTarget,mergeIdentity_observed,same,if_neg (fun moved => moved rfl)]

/-- What the fallback does to a document. -/
structure ObservationsOnly (base current loc result : AccountStorageV3) : Prop where
  accounts : result.accounts.map (rowIdentity (base.accounts ++ current.accounts)) =
    current.accounts.map (rowIdentity (base.accounts ++ current.accounts))
  user : List.Forall₂ UserFieldsKept current.accounts result.accounts
  fields : result.fields = current.fields
  /-- An index that denotes an account stays; a pin that denotes nobody is dropped. -/
  active : ∀ id, pointer (rowIdentity (base.accounts ++ current.accounts)) current (some current.activeIndex) = some id →
    result.activeIndex = current.activeIndex
  family : ∀ family id, pointer (rowIdentity (base.accounts ++ current.accounts)) current (familyIndex current family) = some id →
    familyIndex result family = familyIndex current family
  pin : result.pinnedAccountIndex =
    if (pointer (rowIdentity (base.accounts ++ current.accounts)) current current.pinnedAccountIndex).isSome then
      current.pinnedAccountIndex
    else none
  carried : List.Forall₂ (fun row merged => ∀ prior next,
      rowOf (rowIdentity (base.accounts ++ current.accounts)) base.accounts (rowIdentity (base.accounts ++ current.accounts) row) = some prior →
      loc.accounts.find? (observationMatches prior) = some next → ObservationsCarried prior row next merged)
    current.accounts result.accounts

theorem observations_rows {base current loc result : AccountStorageV3}
    (merge : DocumentsMerged base current (observedBase base loc) result) :
    List.Forall₂ (MergedRow (rowIdentity (base.accounts ++ current.accounts)) base.accounts (observedBase base loc).accounts)
      current.accounts result.accounts := by
  obtain ⟨kept,accounts,rows⟩ := merge.accounts
  rw [mergeIdentity_observed,additions_same (observedBase_ids _ base loc),append_nil] at accounts
  rw [mergeIdentity_observed,remaining_same (observedBase_ids _ base loc)] at rows
  rw [accounts]
  exact rows

theorem observations_account {rows : List AccountMetadataV3} {base loc : AccountStorageV3} {row merged : AccountMetadataV3}
    (merge : MergedRow (rowIdentity rows) base.accounts (observedBase base loc).accounts row merged) :
    merged = row ∧ rowOf (rowIdentity rows) base.accounts (rowIdentity rows row) = none ∨
      ∃ prior, rowOf (rowIdentity rows) base.accounts (rowIdentity rows row) = some prior ∧
        AccountMerged prior row (observed loc prior) merged := by
  cases inBase : rowOf (rowIdentity rows) base.accounts (rowIdentity rows row) with
  | none =>
    simp only [MergedRow,inBase] at merge
    exact .inl ⟨merge,rfl⟩
  | some prior =>
    simp only [MergedRow,rowOf_observedBase,inBase,Option.map_some] at merge
    exact .inr ⟨prior,rfl,merge⟩

private theorem merged_identity {rows : List AccountMetadataV3} {base loc : AccountStorageV3} {row merged : AccountMetadataV3}
    (merge : MergedRow (rowIdentity rows) base.accounts (observedBase base loc).accounts row merged) :
    rowIdentity rows merged = rowIdentity rows row := by
  rcases observations_account merge with ⟨rfl,-⟩ | ⟨prior,-,account⟩
  · rfl
  · refine rowIdentity_congr (fun k member => ?_)
    have kept := (account.userFieldsKept (observed_observes loc prior row)).field k
    simp only [identifyingKeys,mem_cons,not_mem_nil,or_false] at member
    rw [Record.text,kept,Record.text] <;> rcases member with rfl | rfl | rfl | rfl <;> simp [observationKeys,workspaceKeys]

private theorem denotes_inj {ids : List (Option String)} (distinct : ids.Nodup) {a b : ℚ} {id : String}
    (first : denotes ids a id) (second : denotes ids b id) : a = b := by
  obtain ⟨i,rfl,hitA⟩ := item_some first
  obtain ⟨j,rfl,hitB⟩ := item_some second
  rw [(List.getElem?_inj (List.getElem?_eq_some_iff.mp hitA).1 distinct).mp (hitA.trans hitB.symm)]

private theorem denotes_member {ids : List (Option String)} {index : ℚ} {id : String} (here : denotes ids index id) : some id ∈ ids := by
  obtain ⟨i,-,hit⟩ := item_some here
  exact mem_of_getElem? hit

/-- The fallback never conflicts, leaves the inventory and the user's fields as
    the disk has them, and carries the observations. -/
theorem observations_only
    (inBase : DistinctIdentities (rowIdentity (base.accounts ++ current.accounts)) base.accounts)
    (inCurrent : DistinctIdentities (rowIdentity (base.accounts ++ current.accounts)) current.accounts) :
    ∃ result, mergeAccountRuntimeObservations base current loc = .ok result ∧ ObservationsOnly base current loc result := by
  have ids := observedBase_ids (base.accounts ++ current.accounts) base loc
  have distinct : DistinctDocuments base current (observedBase base loc) := by
    refine ⟨by rw [mergeIdentity_observed]; exact inBase,by rw [mergeIdentity_observed]; exact inCurrent,?_⟩
    rw [mergeIdentity_observed]
    refine ⟨fun row member => ?_,ids ▸ inBase.distinct⟩
    obtain ⟨prior,there,rfl⟩ := mem_map.mp member
    have known := inBase.known prior there
    rw [← rowIdentity_congr (observed_text loc prior)] at known
    exact known
  have accounts : ¬ AccountsDiverged (mergeIdentity base current (observedBase base loc)) base.accounts current.accounts
      (observedBase base loc).accounts := by
    rw [mergeIdentity_observed]
    rintro ⟨row,-,⟨prior,next,known,here,diverged⟩ | ⟨unknown,next,here,-⟩⟩
    · rw [rowOf_observedBase,known,Option.map_some,Option.some.injEq] at here
      subst here
      exact (observed_observes loc prior row).agrees diverged
    · rw [rowOf_observedBase,unknown] at here
      cases here
  obtain ⟨result,done⟩ := mergeDocuments_succeeds distinct accounts (fun k diverged => diverged.2.1 rfl)
  have merge := mergeDocuments_merged done
  have rows := observations_rows merge
  have same : result.accounts.map (rowIdentity (base.accounts ++ current.accounts)) =
      current.accounts.map (rowIdentity (base.accounts ++ current.accounts)) :=
    forall₂_map_eq (rows.imp (fun _ _ row => merged_identity row))
  have expects : expectedAccounts base current (observedBase base loc) =
      current.accounts.map (rowIdentity (base.accounts ++ current.accounts)) := by
    rw [expectedAccounts,expectedIdentities,mergeIdentity_observed,remaining_same ids,additions_same ids]; simp
  have resolves : resolvedAccounts base current (observedBase base loc) =
      current.accounts.map (rowIdentity (base.accounts ++ current.accounts)) := by
    rw [resolvedAccounts,← merge.identities,mergeIdentity_observed,same]
  have law := merge.pointers.mpr (targetsResolve_of_same (resolves.trans expects.symm))
  refine ⟨result,done,same,?_,?_,?_,?_,?_,?_⟩
  · refine rows.imp (fun row merged each => ?_)
    rcases observations_account each with ⟨rfl,-⟩ | ⟨prior,-,account⟩
    · exact UserFieldsKept.refl _
    · exact account.userFieldsKept (observed_observes loc prior row)
  · have kept := merge.fields
    have fields : (observedBase base loc).fields = base.fields := rfl
    rw [fields,mergeRecord_kept,Except.ok.injEq] at kept
    exact kept.symm
  · intro id aims
    have there := law.active id ((pointerTarget_observed base current loc (some base.activeIndex) _).trans aims)
    rw [expects] at there
    have here := denotes_pointer.mpr aims
    exact denotes_inj inCurrent.distinct (there (denotes_member here)) here
  · intro family id aims
    cases value : familyIndex current family with
    | none => rw [value] at aims; cases aims
    | some index =>
      have there := law.family family id ((pointerTarget_observed base current loc (familyIndex base family) _).trans aims)
      rw [expects] at there
      have here := denotes_pointer.mpr (value ▸ aims)
      obtain ⟨index',stored,denoted⟩ := there (denotes_member here)
      rw [stored,denotes_inj inCurrent.distinct denoted here]
  · have pinned := merge.pinnedAccountIndex
    rw [pickedPin_place merge] at pinned
    have aims := pointerTarget_observed base current loc base.pinnedAccountIndex current.pinnedAccountIndex
    have pins : (observedBase base loc).pinnedAccountIndex = base.pinnedAccountIndex := rfl
    rw [pins,aims,resolves] at pinned
    cases denoted : pointer (rowIdentity (base.accounts ++ current.accounts)) current current.pinnedAccountIndex with
    | none => rw [denoted] at pinned; simpa using pinned
    | some id =>
      cases value : current.pinnedAccountIndex with
      | none => rw [value] at denoted; cases denoted
      | some index =>
        have here := denotes_pointer.mpr (value ▸ denoted)
        obtain ⟨i,rfl,hit⟩ := item_some here
        rw [denoted,Option.bind_some,(place_unique inCurrent.distinct).mp hit] at pinned
        simpa using pinned
  · refine rows.imp (fun row merged each prior next inBase found => ?_)
    rcases observations_account each with ⟨-,unknown⟩ | ⟨prior',known,account⟩
    · rw [unknown] at inBase; cases inBase
    · rw [known,Option.some.injEq] at inBase
      subst inBase
      rw [observed,found] at account
      exact observeAccount_carried account

end
section
attribute [local instance] asciiHost

private def cooled (deadline : ℚ) : AccountStorageV3 where
  accounts := [[("recordId",.str "a"),("refreshToken",.str "r"),("lastUsed",.num 0),("coolingDownUntil",.num deadline),
    ("cooldownReason",.str "network-error")]]
  activeIndex := 0

/-- A cooldown that the writer lowered and the disk left alone is not carried, and a selection
    and a pin of the disk that denote no account are not kept. -/
theorem lowered_cooldown_stays :
    (mergeAccountRuntimeObservations (cooled 500) (cooled 500) (cooled 300)).toOption.map
        (fun result => result.accounts.map (fun row => row.number "coolingDownUntil")) = some [some 500] ∧
      (mergeAccountRuntimeObservations (cooled 500) { cooled 500 with activeIndex := 5,pinnedAccountIndex := some 7 } (cooled 500)).toOption.map
        (fun result => (result.activeIndex,result.pinnedAccountIndex)) = some (0,none) := by
  constructor <;> decide

/-- A raised cooldown is carried. -/
theorem observations_only_raised : ∃ result, mergeAccountRuntimeObservations (cooled 500) (cooled 500) (cooled 900) = .ok result ∧
    ObservationsOnly (cooled 500) (cooled 500) (cooled 900) result :=
  observations_only (cooled 500) (cooled 500) (cooled 900) ⟨by decide,by decide⟩ ⟨by decide,by decide⟩

end
end CodexMultiAuth
