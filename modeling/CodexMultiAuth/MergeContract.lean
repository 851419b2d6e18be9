import CodexMultiAuth.MergeInventory

/-!
What the merge promises of the fields of accounts and documents.
-/
namespace CodexMultiAuth

/-- The three-way merge of an account, with the rules of its observations. -/
structure ThreeWayAccount (base disk loc merged : AccountMetadataV3) : Prop where
  userOwned : ∀ k, UserOwned disk loc k → ThreeWay (base.find k) (disk.find k) (loc.find k) (merged.find k)
  /-- Omitted and true are the same. -/
  enabled : ThreeWay (isDisabled base) (isDisabled disk) (isDisabled loc) (isDisabled merged)
  rateLimit : ∀ k, ThreeWay (limit base k) (limit disk k) (limit loc k) (limit merged k)
  cooldown : CooldownMerged (cooldownRow base) (cooldownRow disk) (cooldownRow loc)
    (merged.find "coolingDownUntil",merged.find "cooldownReason")
  /-- The writer's reason is preferred. -/
  lastSwitchReason : merged.find "lastSwitchReason" = (loc.find "lastSwitchReason").or (disk.find "lastSwitchReason")
  workspace : disk.workspaces.isSome ∨ loc.workspaces.isSome →
    ∀ id, WorkspaceMerged (workspaceOf base id) (workspaceOf disk id) (workspaceOf loc id) (workspaceOf merged id)
  selection : disk.workspaces.isSome ∨ loc.workspaces.isSome →
    (workspaceOf merged (chosenWorkspace base disk loc)).isSome → currentWorkspaceId merged = chosenWorkspace base disk loc

theorem AccountMerged.threeWay {base disk loc merged : AccountMetadataV3} (merge : AccountMerged base disk loc merged)
    (onDisk : disk.find "refreshToken" = base.find "refreshToken") (onLocal : loc.find "refreshToken" = base.find "refreshToken") :
    ThreeWayAccount base disk loc merged where
  userOwned k owned := mergeValue_threeWay (merge.userOwned k owned)
  enabled := merge.enabled
  rateLimit k := by rw [merge.rateLimit]; exact mergeRateLimit_threeWay _ _ _
  cooldown := by rw [merge.cooldown]; exact mergeAccountCooldown_merged onLocal (fun _ => onDisk)
  lastSwitchReason := merge.lastSwitchReason
  workspace tracked := (merge.workspace tracked).2
  selection := merge.selection

/-- The user's fields of a row are those of another; a selected workspace that is
    there stays selected. -/
structure UserFieldsKept (row merged : AccountMetadataV3) : Prop where
  field : ∀ k, k ∉ observationKeys → k ∉ workspaceKeys → merged.find k = row.find k
  enabled : isDisabled merged = isDisabled row
  workspace : ∀ id, (workspaceOf merged id).isSome = (workspaceOf row id).isSome
  workspaceField : ∀ id k, k ∉ stateKeys → workspaceField (workspaceOf merged id) k = workspaceField (workspaceOf row id) k
  selection : (workspaceOf row (currentWorkspaceId row)).isSome → currentWorkspaceId merged = currentWorkspaceId row

/-- A side that differs from the base in its observations only. -/
structure Observes (base disk loc : AccountMetadataV3) : Prop where
  field : ∀ k, UserOwned disk loc k → loc.find k = base.find k
  enabled : isDisabled loc = isDisabled base
  workspace : ∀ id, (workspaceOf loc id).isSome = (workspaceOf base id).isSome
  workspaceField : ∀ id k, k ∉ stateKeys → workspaceField (workspaceOf loc id) k = workspaceField (workspaceOf base id) k
  selection : currentWorkspaceId loc = currentWorkspaceId base

theorem Observes.refl (base disk : AccountMetadataV3) : Observes base disk base :=
  ⟨fun _ _ => rfl,rfl,fun _ => rfl,fun _ _ _ => rfl,rfl⟩

theorem AccountMerged.userFieldsKept {base disk loc merged : AccountMetadataV3} (merge : AccountMerged base disk loc merged)
    (observes : Observes base disk loc) : UserFieldsKept disk merged := by
  have field : ∀ k, UserOwned disk loc k → merged.find k = disk.find k :=
    fun k owned => (mergeValue_threeWay (merge.userOwned k owned)).locKept (observes.field k owned)
  by_cases tracked : disk.workspaces.isSome ∨ loc.workspaces.isSome
  · have merges := (merge.workspace tracked).2
    have here : ∀ id, (workspaceOf merged id).isSome = (workspaceOf disk id).isSome := by
      intro id
      have three := present_threeWay ((workspaceOf base id).isSome = true) ((workspaceOf disk id).isSome = true)
        ((workspaceOf loc id).isSome = true)
      have same := three.locKept (by rw [observes.workspace])
      rw [Bool.eq_iff_iff,(merges id).here,same]
    refine ⟨fun k other apart => field k ⟨other,fun _ => apart⟩,merge.enabled.locKept observes.enabled,here,?_,?_⟩
    · intro id k other
      cases onDisk : workspaceOf disk id with
      | none =>
        have gone : workspaceOf merged id = none := by simpa [onDisk] using here id
        rw [gone]
      | some d =>
        cases onLocal : workspaceOf loc id with
        | none =>
          have fresh : workspaceOf base id = none := by simpa [onLocal] using (observes.workspace id).symm
          rw [(merges id).fromDisk fresh onLocal,onDisk]
        | some l =>
          rw [((merges id).field (by simp [onDisk]) (by simp [onLocal]) k other).locKept (observes.workspaceField id k other),onDisk]
    · intro there
      have chosen : chosenWorkspace base disk loc = currentWorkspaceId disk := by simp [chosenWorkspace,observes.selection]
      rw [← chosen]
      exact merge.selection tracked (by rw [here,chosen]; exact there)
  · have untracked : disk.workspaces = none := by
      cases list : disk.workspaces with
      | none => rfl
      | some rows => exact absurd (.inl (by simp [list])) tracked
    have list : merged.workspaces = none := by
      have := field "workspaces" ⟨by simp [observationKeys],fun here => absurd here tracked⟩
      rw [AccountMetadataV3.workspaces,Record.records,this]
      exact untracked
    refine ⟨fun k other _ => field k ⟨other,fun here => absurd here tracked⟩,merge.enabled.locKept observes.enabled,?_,?_,?_⟩
    · intro id; rw [workspaceOf_untracked untracked,workspaceOf_untracked list]
    · intro id k _; rw [workspaceOf_untracked untracked,workspaceOf_untracked list]
    · intro there; simp [workspaceOf_untracked untracked] at there

/-- What a writer that changed nothing leaves of a row. -/
structure Untouched (row merged : AccountMetadataV3) : Prop where
  user : UserFieldsKept row merged
  rateLimit : ∀ k, limit merged k = limit row k
  state : ∀ id, stateOf (workspaceOf merged id) = stateOf (workspaceOf row id)

theorem AccountMerged.untouched {base disk merged : AccountMetadataV3} (merge : AccountMerged base disk base merged) :
    Untouched disk merged := by
  have user := merge.userFieldsKept (Observes.refl base disk)
  refine ⟨user,fun k => ?_,fun id => ?_⟩
  · rw [merge.rateLimit]
    exact (mergeRateLimit_threeWay _ _ _).locKept rfl
  · cases onDisk : workspaceOf disk id with
    | none =>
      have gone : workspaceOf merged id = none := by simpa [onDisk] using user.workspace id
      rw [gone]
    | some d =>
      have tracked : disk.workspaces.isSome := by
        by_contra untracked
        simp [workspaceOf_untracked (by simpa using untracked)] at onDisk
      have merges := (merge.workspace (.inl tracked)).2 id
      cases before : workspaceOf base id with
      | none => rw [merges.fromDisk before before,onDisk]
      | some b => rw [(merges.state (by simp [onDisk]) (by simp [before])).locKept rfl,onDisk]

section
variable (identity : AccountMetadataV3 → Option String) (base loc : List AccountMetadataV3)

/-- An account with one refresh token in all three documents is merged three ways. -/
def FieldsMerged (row merged : AccountMetadataV3) : Prop :=
  ∀ b l, rowOf identity base (identity row) = some b → rowOf identity loc (identity row) = some l →
    row.find "refreshToken" = b.find "refreshToken" → l.find "refreshToken" = b.find "refreshToken" → ThreeWayAccount b row l merged

variable {identity base loc}

private theorem MergedRow.fields {row merged : AccountMetadataV3} (merge : MergedRow identity base loc row merged) :
    FieldsMerged identity base loc row merged := by
  intro b l inBase inLocal onDisk onLocal
  simp only [MergedRow,inBase,inLocal] at merge
  exact merge.threeWay onDisk onLocal

theorem UserFieldsKept.refl (row : AccountMetadataV3) : UserFieldsKept row row :=
  ⟨fun _ _ _ => rfl,rfl,fun _ => rfl,fun _ _ _ => rfl,fun _ => rfl⟩

private theorem MergedRow.untouched {row merged : AccountMetadataV3} (merge : MergedRow identity base base row merged) :
    Untouched row merged := by
  cases inBase : rowOf identity base (identity row) with
  | none =>
    simp only [MergedRow,inBase] at merge
    subst merge
    exact ⟨UserFieldsKept.refl _,fun _ => rfl,fun _ => rfl⟩
  | some b =>
    simp only [MergedRow,inBase] at merge
    exact merge.untouched

theorem remaining_same (same : loc.map identity = base.map identity) (current : List AccountMetadataV3) :
    remaining identity base current loc = current := by
  refine List.filter_eq_self.mpr (fun row _ => ?_)
  rw [survives,Bool.or_eq_true,Option.isNone_iff_eq_none,rowOf_eq_none,rowOf_isSome,same]
  exact (Classical.em _).symm

theorem additions_same (same : loc.map identity = base.map identity) (current : List AccountMetadataV3) :
    additions identity base current loc = [] := by
  refine List.filter_eq_nil_iff.mpr (fun row member => ?_)
  have known : (rowOf identity base (identity row)).isSome := by
    rw [rowOf_isSome,← same]
    exact List.mem_map.mpr ⟨row,member,rfl⟩
  simp [Option.isSome_iff_ne_none.mp known]

end

section
variable [Host]

/-- The merge of a snapshot, field by field: every account of the disk that
    survives is merged three ways, a writer that changed no account changes
    none, and a conflict means that an account or a field of the document was
    changed on both sides. -/
theorem snapshot_threeWay (base current : Option AccountStorageV3) (loc : AccountStorageV3) :
    (∀ result, mergeAccountSnapshot base current loc = .ok result →
      (∃ kept, result.accounts = kept ++ additions (mergeIdentity (base.getD emptyStorage) (current.getD emptyStorage) loc)
          (base.getD emptyStorage).accounts (current.getD emptyStorage).accounts loc.accounts ∧
        List.Forall₂ (FieldsMerged (mergeIdentity (base.getD emptyStorage) (current.getD emptyStorage) loc)
            (base.getD emptyStorage).accounts loc.accounts)
          (remaining (mergeIdentity (base.getD emptyStorage) (current.getD emptyStorage) loc)
            (base.getD emptyStorage).accounts (current.getD emptyStorage).accounts loc.accounts) kept) ∧
      (loc.accounts = (base.getD emptyStorage).accounts →
        List.Forall₂ Untouched (current.getD emptyStorage).accounts result.accounts)) ∧
    ∀ e, mergeAccountSnapshot base current loc = .error e → current.isSome →
      DistinctDocuments (base.getD emptyStorage) (current.getD emptyStorage) loc →
        AccountsDiverged (mergeIdentity (base.getD emptyStorage) (current.getD emptyStorage) loc)
            (base.getD emptyStorage).accounts (current.getD emptyStorage).accounts loc.accounts ∨
          ∃ k, Diverged ((base.getD emptyStorage).fields.find k) ((current.getD emptyStorage).fields.find k) (loc.fields.find k) := by
  refine ⟨fun result done => ?_,fun e failed there distinct => ?_⟩
  · rcases mergeAccountSnapshot_ok done with ⟨rfl,rfl,rfl⟩ | merged
    · refine ⟨⟨[],?_,by simp [remaining,emptyStorage]⟩,?_⟩
      · simp [additions,emptyStorage,rowOf]
      · intro same
        rw [same]; exact .nil
    · obtain ⟨kept,accounts,rows⟩ := (mergeDocuments_merged merged).accounts
      refine ⟨⟨kept,accounts,rows.imp (fun _ _ merge => merge.fields)⟩,fun same => ?_⟩
      rw [same,additions_same rfl,List.append_nil] at accounts
      rw [same,remaining_same rfl] at rows
      rw [accounts]
      exact rows.imp (fun _ _ merge => merge.untouched)
  · obtain ⟨current,rfl⟩ := Option.isSome_iff_exists.mp there
    exact mergeDocuments_error (by cases base <;> simpa [mergeAccountSnapshot] using failed) distinct

end

section
attribute [local instance] asciiHost

private def noted (fields : Record) : AccountStorageV3 where
  accounts := [[("recordId",.str "a"),("refreshToken",.str "r"),("lastUsed",.num 0)] ++ fields]
  activeIndex := 0

private def switched (reason : String) : AccountStorageV3 := noted [("lastSwitchReason",.str reason)]

private def parked (deadline : ℚ) : AccountStorageV3 := noted [("coolingDownUntil",.num deadline),("cooldownReason",.str "network-error")]

private def workspace (fields : Record) : AccountStorageV3 := noted [("workspaces",.arr [.obj (("id",.str "w") :: fields)])]

/-- A writer that changed nothing puts its old switch reason and a cooldown that the disk has
    lowered back, one that changed `disabledAt` the `enabled` beside it; and two that add the
    same account with another cooldown conflict. -/
theorem stale_reason_returns :
    (mergeAccountSnapshot (some (switched "rotation")) (some (switched "best")) (switched "rotation")).toOption.map
        (fun result => result.accounts.map (fun row => row.find "lastSwitchReason")) = some [some (.str "rotation")] ∧
      (mergeAccountSnapshot (some (parked 500)) (some (parked 300)) (parked 500)).toOption.map
        (fun result => result.accounts.map (fun row => row.number "coolingDownUntil")) = some [some 500] ∧
      (mergeAccountSnapshot (some (workspace [("enabled",.bool true)])) (some (workspace [("enabled",.bool false)]))
          (workspace [("enabled",.bool true),("disabledAt",.num 7)])).toOption.map
        (fun result => result.accounts.map (fun row => row.find "workspaces")) =
          some [some (.arr [.obj [("id",.str "w"),("enabled",.bool true),("disabledAt",.num 7)]])] ∧
      (mergeAccountSnapshot (some { accounts := [],activeIndex := 0 }) (some (parked 300)) (parked 500)).isOk = false := by
  refine ⟨?_,?_,?_,?_⟩ <;> decide

private def labelled (label : String) : AccountStorageV3 := noted [("label",.str label)]

private theorem labelled_distinct : DistinctDocuments (labelled "x") (labelled "y") (labelled "z") := by
  refine ⟨⟨?_,?_⟩,⟨?_,?_⟩,⟨?_,?_⟩⟩ <;> decide

/-- The disk's label is kept by a writer that did not change it, and two new labels conflict. -/
theorem snapshot_threeWay_labels :
    (∃ result, mergeAccountSnapshot (some (labelled "x")) (some (labelled "y")) (labelled "x") = .ok result ∧
      List.Forall₂ Untouched (labelled "y").accounts result.accounts) ∧
    ∃ e, mergeAccountSnapshot (some (labelled "x")) (some (labelled "y")) (labelled "z") = .error e ∧
      (AccountsDiverged (mergeIdentity (labelled "x") (labelled "y") (labelled "z"))
          (labelled "x").accounts (labelled "y").accounts (labelled "z").accounts ∨
        ∃ k, Diverged ((labelled "x").fields.find k) ((labelled "y").fields.find k) ((labelled "z").fields.find k)) := by
  constructor
  · have succeeds : (mergeAccountSnapshot (some (labelled "x")) (some (labelled "y")) (labelled "x")).isOk = true := by
      decide
    cases done : mergeAccountSnapshot (some (labelled "x")) (some (labelled "y")) (labelled "x") with
    | error e => rw [done] at succeeds; cases succeeds
    | ok result =>
      exact ⟨result,rfl,((snapshot_threeWay (some (labelled "x")) (some (labelled "y")) (labelled "x")).1 result done).2 rfl⟩
  · have fails : (mergeAccountSnapshot (some (labelled "x")) (some (labelled "y")) (labelled "z")).isOk = false := by
      decide
    cases done : mergeAccountSnapshot (some (labelled "x")) (some (labelled "y")) (labelled "z") with
    | ok result => rw [done] at fails; cases fails
    | error e =>
      exact ⟨e,rfl,(snapshot_threeWay (some (labelled "x")) (some (labelled "y")) (labelled "z")).2 e done rfl
        labelled_distinct⟩

end
end CodexMultiAuth
