import CodexMultiAuth.InventoryLaw

/-!
Whether the observations of two writers depend on who saves first. They do only
where a rule chooses between two values that it ranks the same: it keeps the
disk's.
-/
namespace CodexMultiAuth
open List
set_option linter.unusedSectionVars false

theorem mergeRateLimit_comm (base disk loc : Option Json) : mergeRateLimit base disk loc = mergeRateLimit base loc disk := by
  unfold mergeRateLimit
  by_cases onDisk : disk = base
  · by_cases onLocal : loc = base
    · rw [onDisk,onLocal]
    · subst onDisk
      by_cases gone : loc = none <;> by_cases known : disk = none <;> simp_all
  · by_cases onLocal : loc = base
    · subst onLocal
      by_cases gone : disk = none <;> by_cases known : loc = none <;> simp_all
    · simp only [onDisk,onLocal,if_false,false_and,false_or,and_comm,max_comm]

/-- The token that the cooldown rule takes for the kept one. -/
def keptToken (base disk loc : CooldownRow) : Option Json :=
  if loc.refreshToken = base.refreshToken then disk.refreshToken else loc.refreshToken

def currentDeadline (kept : Option Json) (row : CooldownRow) : Option Json :=
  if row.cooldownReason = some (.str "auth-failure") ∧ row.refreshToken ≠ kept then none else row.coolingDownUntil

/-- A side cleared the base's deadline and the other has no new one. -/
def Cleared (base disk loc : Option Json) : Prop :=
  base ≠ none ∧ ((disk = none ∧ (loc = none ∨ loc = base)) ∨ (loc = none ∧ disk = base))

instance (base disk loc : Option Json) : Decidable (Cleared base disk loc) := inferInstanceAs (Decidable (_ ∧ _))

theorem cleared_comm {base disk loc : Option Json} : Cleared base disk loc ↔ Cleared base loc disk := by
  unfold Cleared
  refine and_congr_right (fun _ => ?_)
  constructor
  · rintro (⟨gone,none | kept⟩ | both)
    · exact .inl ⟨none,.inl gone⟩
    · exact .inr ⟨gone,kept⟩
    · exact .inl ⟨both.1,.inr both.2⟩
  · rintro (⟨gone,none | kept⟩ | both)
    · exact .inl ⟨none,.inl gone⟩
    · exact .inr ⟨gone,kept⟩
    · exact .inl ⟨both.1,.inr both.2⟩

/-- Two deadlines that count the same and are stored differently: an absent one
    and a zero. -/
def CooldownTie (base disk loc : CooldownRow) : Prop :=
  numberOrZero (currentDeadline (keptToken base disk loc) disk) = numberOrZero (currentDeadline (keptToken base disk loc) loc) ∧
    currentDeadline (keptToken base disk loc) disk ≠ currentDeadline (keptToken base disk loc) loc ∧
    ¬ Cleared base.coolingDownUntil (currentDeadline (keptToken base disk loc) disk) (currentDeadline (keptToken base disk loc) loc)

theorem mergeAccountCooldown_deadline (base disk loc : CooldownRow) :
    (mergeAccountCooldown base disk loc).1 =
      if Cleared base.coolingDownUntil (currentDeadline (keptToken base disk loc) disk) (currentDeadline (keptToken base disk loc) loc) then none
      else if numberOrZero (currentDeadline (keptToken base disk loc) loc) ≤ numberOrZero (currentDeadline (keptToken base disk loc) disk) then
        currentDeadline (keptToken base disk loc) disk
      else currentDeadline (keptToken base disk loc) loc := by
  have deadline : ∀ kept (row : CooldownRow),
      (if row.cooldownReason = some (.str "auth-failure") ∧ row.refreshToken ≠ kept then
        { row with coolingDownUntil := none,cooldownReason := none } else row).coolingDownUntil = currentDeadline kept row := by
    intro kept row
    unfold currentDeadline
    split <;> rfl
  unfold mergeAccountCooldown
  simp only
  rw [← keptToken]
  simp only [deadline]
  by_cases cleared : Cleared base.coolingDownUntil (currentDeadline (keptToken base disk loc) disk)
      (currentDeadline (keptToken base disk loc) loc)
  · rw [if_pos cleared]
    unfold Cleared at cleared
    rw [if_pos cleared]
  · rw [if_neg cleared]
    unfold Cleared at cleared
    rw [if_neg cleared]
    split <;> exact deadline _ _

theorem keptToken_comm {base disk loc : CooldownRow} (settled : ¬ Diverged base.refreshToken disk.refreshToken loc.refreshToken) :
    keptToken base disk loc = keptToken base loc disk := by
  unfold keptToken
  by_cases onLocal : loc.refreshToken = base.refreshToken
  · by_cases onDisk : disk.refreshToken = base.refreshToken
    · rw [if_pos onLocal,if_pos onDisk,onLocal,onDisk]
    · rw [if_pos onLocal,if_neg onDisk]
  · by_cases onDisk : disk.refreshToken = base.refreshToken
    · rw [if_neg onLocal,if_pos onDisk]
    · rw [if_neg onLocal,if_neg onDisk]
      by_contra apart
      exact settled ⟨Ne.symm onDisk,Ne.symm onLocal,Ne.symm apart⟩

theorem mergeAccountCooldown_comm_iff {base disk loc : CooldownRow}
    (settled : ¬ Diverged base.refreshToken disk.refreshToken loc.refreshToken) :
    (mergeAccountCooldown base disk loc).1 = (mergeAccountCooldown base loc disk).1 ↔ ¬ CooldownTie base disk loc := by
  rw [mergeAccountCooldown_deadline,mergeAccountCooldown_deadline,CooldownTie,← keptToken_comm settled]
  generalize currentDeadline (keptToken base disk loc) disk = d
  generalize currentDeadline (keptToken base disk loc) loc = l
  by_cases cleared : Cleared base.coolingDownUntil d l
  · rw [if_pos cleared,if_pos (cleared_comm.mp cleared)]
    exact ⟨fun _ tie => tie.2.2 cleared,fun _ => rfl⟩
  · rw [if_neg cleared,if_neg (fun swapped => cleared (cleared_comm.mp swapped))]
    rcases lt_trichotomy (numberOrZero d) (numberOrZero l) with earlier | same | later
    · rw [if_neg (not_le.mpr earlier),if_pos earlier.le]
      exact ⟨fun _ tie => absurd tie.1 earlier.ne,fun _ => rfl⟩
    · rw [if_pos same.ge,if_pos same.le]
      exact ⟨fun equal tie => tie.2.1 equal,fun noTie => by_contra (fun apart => noTie ⟨same,apart,cleared⟩)⟩
    · rw [if_pos later.le,if_neg (not_le.mpr later)]
      exact ⟨fun _ tie => absurd tie.1 later.ne',fun _ => rfl⟩

/-- Two new states of a workspace that the rule ranks the same: both enabled, or
    both disabled at the same time. -/
def WorkspaceTie (base : Option Workspace) (disk loc : Workspace) : Prop :=
  stateOf base ≠ workspaceState disk ∧ stateOf base ≠ workspaceState loc ∧ workspaceState disk ≠ workspaceState loc ∧
    ((isEnabled disk = true ∧ isEnabled loc = true) ∨
      (isEnabled disk = false ∧ isEnabled loc = false ∧ disk.find "disabledAt" ≠ none ∧ loc.find "disabledAt" ≠ none ∧
        (disk.number "disabledAt").getD 0 = (loc.number "disabledAt").getD 0))

theorem stateSource_comm_iff (base : Option Workspace) (disk loc : Workspace) :
    workspaceState (stateSource base disk loc) = workspaceState (stateSource base loc disk) ↔ ¬ WorkspaceTie base disk loc := by
  unfold stateSource WorkspaceTie stateOf
  generalize (base.map workspaceState).getD (none,none) = before
  simp only
  by_cases onLocal : before = workspaceState loc
  · by_cases onDisk : before = workspaceState disk
    · simp [← onLocal,← onDisk]
    · simp [← onLocal,onDisk]
  by_cases onDisk : before = workspaceState disk
  · simp [← onDisk,onLocal]
  simp only [if_neg onLocal,if_neg onDisk]
  cases first : isEnabled disk <;> cases second : isEnabled loc
  · -- Both are disabled: an operator's exclusion, or the later time.
    have disabled : workspaceState disk = workspaceState loc ↔ disk.find "disabledAt" = loc.find "disabledAt" := by
      simp only [isEnabled,decide_eq_false_iff_not,not_not] at first second
      simp [workspaceState,first,second]
    by_cases noDisk : disk.find "disabledAt" = none
    · by_cases noLocal : loc.find "disabledAt" = none
      · simp [noDisk,noLocal,disabled]
      · simp [noDisk,noLocal]
    · by_cases noLocal : loc.find "disabledAt" = none
      · simp [noDisk,noLocal]
      · simp only [Bool.false_eq_true,if_false,if_neg noDisk,if_neg noLocal]
        rcases lt_trichotomy ((disk.number "disabledAt").getD 0) ((loc.number "disabledAt").getD 0) with earlier | same | later
        · simp [not_le.mpr earlier,earlier.le,earlier.ne]
        · simp [same,onLocal,onDisk,noDisk,noLocal]
        · simp [not_le.mpr later,later.le,later.ne']
  · simp
  · simp
  · simp [onLocal,onDisk]

/-- Two rows with the same observations. -/
structure SameObservations (row other : AccountMetadataV3) : Prop where
  rateLimit : ∀ k, limit row k = limit other k
  coolingDownUntil : row.find "coolingDownUntil" = other.find "coolingDownUntil"
  lastUsed : row.find "lastUsed" = other.find "lastUsed"
  workspace : ∀ id, (workspaceOf row id).map workspaceState = (workspaceOf other id).map workspaceState

theorem SameObservations.refl (row : AccountMetadataV3) : SameObservations row row := ⟨fun _ => rfl,rfl,rfl,fun _ => rfl⟩

/-- Neither a cooldown nor a workspace of an account is tied. -/
def Untied (base disk loc : AccountMetadataV3) : Prop :=
  ¬ CooldownTie (cooldownRow base) (cooldownRow disk) (cooldownRow loc) ∧
    ∀ id d l, workspaceOf disk id = some d → workspaceOf loc id = some l → ¬ WorkspaceTie (workspaceOf base id) d l

private theorem workspace_oneSided {base disk loc left right : Option Workspace} (first : WorkspaceMerged base disk loc left)
    (second : WorkspaceMerged base loc disk right) (oneSided : disk = none ∨ loc = none) : left = right := by
  cases base with
  | none =>
    rcases oneSided with rfl | rfl
    · rw [first.fromLocal rfl rfl,second.fromDisk rfl rfl]
    · rw [first.fromDisk rfl rfl,second.fromLocal rfl rfl]
  | some b =>
    have gone : ∀ {disk loc merged : Option Workspace}, WorkspaceMerged (some b) disk loc merged → (disk = none ∨ loc = none) →
        merged = none := by
      intro disk loc merged merge lacking
      have here := merge.here.trans (present_base (show (some b).isSome = true from rfl))
      cases merged with
      | none => rfl
      | some row => rcases lacking with rfl | rfl <;> simp at here
    rw [gone first oneSided,gone second oneSided.symm]

private theorem workspaces_untracked {base disk loc merged : AccountMetadataV3} (merge : AccountMerged base disk loc merged)
    (untracked : ¬ (disk.workspaces.isSome ∨ loc.workspaces.isSome)) : merged.workspaces = none := by
  have onDisk : disk.workspaces = none := by simpa using fun here => untracked (.inl here)
  have onLocal : loc.workspaces = none := by simpa using fun here => untracked (.inr here)
  unfold AccountMetadataV3.workspaces Record.records at onDisk onLocal ⊢
  rcases mergeValue_cases (merge.userOwned "workspaces" ⟨by simp [observationKeys],fun here => absurd here untracked⟩) with
    ⟨-,same⟩ | ⟨-,same⟩ | ⟨m,d,l,same,-⟩
  · rw [same,onDisk]
  · rw [same,onLocal]
  · rw [same]; rfl

section
variable {base disk loc left right : AccountMetadataV3}

private theorem workspaces_comm_iff
    (first : mergeRuntimeAccount base (disk.put "lastUsed" (lastUse disk loc)) (loc.put "lastUsed" (lastUse disk loc)) = .ok left)
    (second : mergeRuntimeAccount base (loc.put "lastUsed" (lastUse loc disk)) (disk.put "lastUsed" (lastUse loc disk)) = .ok right)
    (id : Option String) :
    (workspaceOf left id).map workspaceState = (workspaceOf right id).map workspaceState ↔
      ∀ d l, workspaceOf disk id = some d → workspaceOf loc id = some l → ¬ WorkspaceTie (workspaceOf base id) d l := by
  by_cases both : (workspaceOf disk id).isSome ∧ (workspaceOf loc id).isSome
  · obtain ⟨d,onDisk⟩ := Option.isSome_iff_exists.mp both.1
    obtain ⟨l,onLocal⟩ := Option.isSome_iff_exists.mp both.2
    rw [mergeAccount_state first onDisk onLocal,mergeAccount_state second onLocal onDisk,Option.some_inj,stateSource_comm_iff,
      onDisk,onLocal]
    simp
  · have oneSided : workspaceOf disk id = none ∨ workspaceOf loc id = none := by
      rcases not_and_or.mp both with lacking | lacking
      · exact .inl (by simpa using lacking)
      · exact .inr (by simpa using lacking)
    have alike : workspaceOf left id = workspaceOf right id := by
      by_cases tracked : disk.workspaces.isSome ∨ loc.workspaces.isSome
      · exact workspace_oneSided (((mergeAccount_merged first).workspace tracked).2 id)
          (((mergeAccount_merged second).workspace tracked.symm).2 id) oneSided
      · rw [workspaceOf_untracked (workspaces_untracked (mergeAccount_merged first) tracked),
          workspaceOf_untracked (workspaces_untracked (mergeAccount_merged second) (fun here => tracked here.symm))]
    rw [alike]
    refine iff_of_true rfl (fun d l onDisk onLocal => ?_)
    rcases oneSided with none | none
    · rw [none] at onDisk; cases onDisk
    · rw [none] at onLocal; cases onLocal

theorem sameObservations_iff
    (first : mergeRuntimeAccount base (disk.put "lastUsed" (lastUse disk loc)) (loc.put "lastUsed" (lastUse disk loc)) = .ok left)
    (second : mergeRuntimeAccount base (loc.put "lastUsed" (lastUse loc disk)) (disk.put "lastUsed" (lastUse loc disk)) = .ok right)
    (token : disk.record "refreshToken" = none) : SameObservations left right ↔ Untied base disk loc := by
  have ours := mergeAccount_merged first
  have theirs := mergeAccount_merged second
  have owned : UserOwned disk loc "refreshToken" := ⟨by simp [observationKeys],fun _ => by simp [workspaceKeys]⟩
  have settled := mergeValue_plain (ours.userOwned _ owned) token
  have cooldown : left.find "coolingDownUntil" = right.find "coolingDownUntil" ↔
      ¬ CooldownTie (cooldownRow base) (cooldownRow disk) (cooldownRow loc) := by
    rw [← mergeAccountCooldown_comm_iff settled,← ours.cooldown,← theirs.cooldown]
  constructor
  · intro same
    exact ⟨cooldown.mp same.coolingDownUntil,fun id d l => (workspaces_comm_iff first second id).mp (same.workspace id) d l⟩
  · rintro ⟨deadlines,states⟩
    refine ⟨fun k => ?_,cooldown.mpr deadlines,?_,fun id => (workspaces_comm_iff first second id).mpr (fun d l => states id d l)⟩
    · rw [ours.rateLimit,theirs.rateLimit,mergeRateLimit_comm]
    · rw [ours.lastUsed,theirs.lastUsed,max_comm]

end

/-! ### Documents -/

section
variable [Host]

/-- The rows of a merged document with the accounts that they were matched by. -/
def mergedAccounts (base current loc result : AccountStorageV3) : List (Option String × AccountMetadataV3) :=
  (expectedIdentities (mergeIdentity base current loc) base.accounts current.accounts loc.accounts).zip result.accounts

private theorem aliasIds_perm {rows other : List AccountMetadataV3} (perm : rows.Perm other) (key : String) :
    (aliasIds rows key).Perm (aliasIds other key) := by
  refine (perm_ext_iff_of_nodup (OrderedMap.nodup_eraseDups _) (OrderedMap.nodup_eraseDups _)).mpr (fun id => ?_)
  simp only [mem_eraseDups]
  exact (perm.filterMap _).mem_iff

theorem mergeIdentity_comm (base current loc : AccountStorageV3) : mergeIdentity base current loc = mergeIdentity base loc current := by
  funext row
  have perm : (base.accounts ++ current.accounts ++ loc.accounts).Perm (base.accounts ++ loc.accounts ++ current.accounts) := by
    rw [append_assoc,append_assoc]
    exact perm_append_comm.append_left _
  unfold mergeIdentity rowIdentity
  congr 1
  refine congrArg (fun f => Option.map f (getAccountIdentityKey row)) (funext (fun key => ?_))
  have alike := aliasIds_perm perm key
  generalize aliasIds (base.accounts ++ current.accounts ++ loc.accounts) key = ids at alike ⊢
  generalize aliasIds (base.accounts ++ loc.accounts ++ current.accounts) key = others at alike ⊢
  match ids, others, alike with
  | [], others, alike => rw [nil_perm.mp alike]
  | [id], others, alike => rw [singleton_perm.mp alike]
  | a :: b :: rest, others, alike =>
    have longer := alike.length_eq
    match others, longer with
    | c :: d :: more, _ => rfl

private theorem zip_of_forall₂ {α β : Type} {R : α → β → Prop} {as : List α} {bs : List β} (rows : List.Forall₂ R as bs) {a : α}
    (member : a ∈ as) : ∃ b, R a b ∧ (a,b) ∈ as.zip bs := by
  induction rows with
  | nil => cases member
  | cons made _ ih =>
    rcases mem_cons.mp member with rfl | later
    · exact ⟨_,made,by simp⟩
    · obtain ⟨b,made,there⟩ := ih later
      exact ⟨b,made,by simp [there]⟩

section
variable {base current loc result : AccountStorageV3} (done : mergeDocuments base current loc = .ok result)
include done

private theorem mergedAccounts_eq : ∃ kept,
    List.Forall₂ (RowMade (mergeIdentity base current loc) base.accounts loc.accounts)
      (remaining (mergeIdentity base current loc) base.accounts current.accounts loc.accounts) kept ∧
    mergedAccounts base current loc result =
      ((remaining (mergeIdentity base current loc) base.accounts current.accounts loc.accounts).zip kept).map
          (Prod.map (mergeIdentity base current loc) id) ++
        (additions (mergeIdentity base current loc) base.accounts current.accounts loc.accounts).map
          (fun row => (mergeIdentity base current loc row,row)) := by
  obtain ⟨kept,accounts,made⟩ := mergeDocuments_made done
  refine ⟨kept,made,?_⟩
  rw [mergedAccounts,accounts,expectedIdentities,zip_append (by rw [length_map,made.length_eq]),zip_map_left]
  congr 1
  rw [zip_map_left,zip_eq_zipWith,zipWith_self,map_map]
  rfl

private theorem mergedAccounts_sound {id : Option String} {row : AccountMetadataV3}
    (member : (id,row) ∈ mergedAccounts base current loc result) :
    (∃ disk ∈ current.accounts, mergeIdentity base current loc disk = id ∧
        RowMade (mergeIdentity base current loc) base.accounts loc.accounts disk row) ∨
      (row ∈ loc.accounts ∧ mergeIdentity base current loc row = id ∧
        rowOf (mergeIdentity base current loc) base.accounts id = none ∧
        rowOf (mergeIdentity base current loc) current.accounts id = none) := by
  obtain ⟨kept,made,rows⟩ := mergedAccounts_eq done
  rw [rows,mem_append] at member
  rcases member with old | added
  · obtain ⟨⟨disk,merged⟩,pair,same⟩ := mem_map.mp old
    obtain ⟨rfl,rfl⟩ := Prod.mk.inj same
    exact .inl ⟨disk,(mem_filter.mp (of_mem_zip pair).1).1,rfl,(forall₂_iff_zip.mp made).2 pair⟩
  · obtain ⟨row,there,same⟩ := mem_map.mp added
    obtain ⟨rfl,rfl⟩ := Prod.mk.inj same
    obtain ⟨there,fresh⟩ := mem_filter.mp there
    simp only [Bool.and_eq_true,Option.isNone_iff_eq_none] at fresh
    exact .inr ⟨there,rfl,fresh⟩

private theorem mergedAccounts_complete {row : AccountMetadataV3}
    (stays : row ∈ remaining (mergeIdentity base current loc) base.accounts current.accounts loc.accounts) :
    ∃ merged, RowMade (mergeIdentity base current loc) base.accounts loc.accounts row merged ∧
      (mergeIdentity base current loc row,merged) ∈ mergedAccounts base current loc result := by
  obtain ⟨kept,made,rows⟩ := mergedAccounts_eq done
  obtain ⟨merged,how,pair⟩ := zip_of_forall₂ made stays
  exact ⟨merged,how,by rw [rows]; exact mem_append_left _ (mem_map.mpr ⟨_,pair,rfl⟩)⟩

end

/-- Every account that both orders leave has the same observations in both. -/
def ObservationsCommute (base a b left right : AccountStorageV3) : Prop :=
  ∀ id row other, (id,row) ∈ mergedAccounts base a b left → (id,other) ∈ mergedAccounts base b a right → SameObservations row other

/-- Runtime observations commute exactly where nothing is tied in an account
    that all three documents have. -/
theorem observations_commute_iff {base : Option AccountStorageV3} {a b left right : AccountStorageV3}
    (first : mergeAccountSnapshot base (some a) b = .ok left) (second : mergeAccountSnapshot base (some b) a = .ok right)
    (tokens : ∀ row ∈ a.accounts, row.record "refreshToken" = none) :
    ObservationsCommute (base.getD emptyStorage) a b left right ↔
      ∀ id prior x y, rowOf (mergeIdentity (base.getD emptyStorage) a b) (base.getD emptyStorage).accounts id = some prior →
        rowOf (mergeIdentity (base.getD emptyStorage) a b) a.accounts id = some x →
        rowOf (mergeIdentity (base.getD emptyStorage) a b) b.accounts id = some y → Untied prior x y := by
  obtain ⟨-,gone,-⟩ | first := mergeAccountSnapshot_ok first
  · cases gone
  obtain ⟨-,gone,-⟩ | second := mergeAccountSnapshot_ok second
  · cases gone
  simp only [Option.getD_some] at first second
  generalize base.getD emptyStorage = base at first second ⊢
  have swap := mergeIdentity_comm base b a
  have distinctA := (mergeDocuments_merged first).distinct.inCurrent.distinct
  have distinctB := (mergeDocuments_merged first).distinct.inLocal.distinct
  generalize identify : mergeIdentity base a b = identity at swap distinctA distinctB ⊢
  have made : ∀ {id prior x y}, rowOf identity base.accounts id = some prior → rowOf identity a.accounts id = some x →
      rowOf identity b.accounts id = some y → ∀ {row other}, RowMade identity base.accounts b.accounts x row →
      RowMade identity base.accounts a.accounts y other → (SameObservations row other ↔ Untied prior x y) := by
    intro id prior x y inBase inA inB row other ours theirs
    obtain ⟨member,rfl⟩ := rowOf_sound inA
    obtain ⟨-,same⟩ := rowOf_sound inB
    simp only [RowMade,inBase,inB] at ours
    simp only [RowMade,same,inBase,inA] at theirs
    exact sameObservations_iff ours theirs (tokens x member)
  constructor
  · intro commute id prior x y inBase inA inB
    obtain ⟨memberA,rfl⟩ := rowOf_sound inA
    obtain ⟨memberB,same⟩ := rowOf_sound inB
    obtain ⟨row,ours,left⟩ := mergedAccounts_complete first
      (mem_filter.mpr ⟨memberA,by rw [identify,survives,inB]; simp⟩)
    obtain ⟨other,theirs,right⟩ := mergedAccounts_complete second
      (mem_filter.mpr ⟨memberB,by rw [swap,survives,same,inA]; simp⟩)
    rw [identify] at ours left
    rw [swap] at theirs right
    rw [same] at right
    exact (made inBase inA inB ours theirs).mp (commute _ row other left right)
  · intro untied id row other left right
    have ours := mergedAccounts_sound first left
    have theirs := mergedAccounts_sound second right
    rw [identify] at ours
    rw [swap] at theirs
    rcases ours with ⟨x,memberA,rfl,ours⟩ | ⟨memberB,rfl,notBase,notA⟩
    · have inA := rowOf_member distinctA memberA
      rcases theirs with ⟨y,memberB,same,theirs⟩ | ⟨memberA',same,notBase,notB⟩
      · have inB := rowOf_member distinctB memberB
        rw [same] at inB
        cases inBase : rowOf identity base.accounts (identity x) with
        | some prior => exact (made inBase inA inB ours theirs).mpr (untied _ prior x y inBase inA inB)
        | none =>
          simp only [RowMade,inBase,inB] at ours
          simp only [RowMade,same,inBase,inA] at theirs
          rw [ours.1,theirs.1,ours.2]
          exact SameObservations.refl y
      · have inA' := rowOf_member distinctA memberA'
        rw [same,inA,Option.some_inj] at inA'
        simp only [RowMade,notBase,notB] at ours
        rw [ours,inA']
        exact SameObservations.refl other
    · have inB := rowOf_member distinctB memberB
      rcases theirs with ⟨y,memberB',same,theirs⟩ | ⟨-,-,-,notB⟩
      · have inB' := rowOf_member distinctB memberB'
        rw [same,inB,Option.some_inj] at inB'
        simp only [RowMade,same,notBase,notA] at theirs
        rw [theirs,← inB']
        exact SameObservations.refl row
      · rw [inB] at notB; cases notB

end

section
attribute [local instance] asciiHost

private def observer (cooldown : List (String × Json)) (enabled : List (String × Json)) : AccountStorageV3 where
  accounts := [[("recordId",.str "a"),("refreshToken",.str "r"),("lastUsed",.num 0),
    ("workspaces",.arr [.obj (("id",.str "w") :: enabled)])] ++ cooldown]
  activeIndex := 0

private def disabledBase : AccountStorageV3 := observer [] [("enabled",.bool false),("disabledAt",.num 7)]
private def firstObserver : AccountStorageV3 := observer [("coolingDownUntil",.num 0)] [("enabled",.bool true)]
private def secondObserver : AccountStorageV3 := observer [] [("enabled",.bool true),("disabledAt",.num 7)]

private def leftOf (base a b : AccountStorageV3) : AccountStorageV3 :=
  (mergeAccountSnapshot (some base) (some a) b).toOption.getD emptyStorage

private theorem leftOf_ok {base a b : AccountStorageV3} (succeeds : (mergeAccountSnapshot (some base) (some a) b).isOk = true) :
    mergeAccountSnapshot (some base) (some a) b = .ok (leftOf base a b) := by
  unfold leftOf
  cases done : mergeAccountSnapshot (some base) (some a) b with
  | error e => rw [done] at succeeds; cases succeeds
  | ok result => rfl

/-- Both writers enabled the workspace again and one dropped its time; one stored
    a zero deadline. Who saves first decides what is stored. -/
theorem observations_depend_on_order : ∃ left right,
    mergeAccountSnapshot (some disabledBase) (some firstObserver) secondObserver = .ok left ∧
      mergeAccountSnapshot (some disabledBase) (some secondObserver) firstObserver = .ok right ∧
      left.accounts.map (fun row => row.find "coolingDownUntil") = [some (.num 0)] ∧
      right.accounts.map (fun row => row.find "coolingDownUntil") = [none] ∧
      left.accounts.map (fun row => workspaceField (workspaceOf row (some "w")) "disabledAt") = [none] ∧
      right.accounts.map (fun row => workspaceField (workspaceOf row (some "w")) "disabledAt") = [some (.num 7)] ∧
      ¬ ObservationsCommute disabledBase firstObserver secondObserver left right := by
  refine ⟨_,_,leftOf_ok (by decide),leftOf_ok (by decide),by decide,by decide,by decide,
    by decide,fun commute => ?_⟩
  have left := show (mergedAccounts disabledBase firstObserver secondObserver (leftOf disabledBase firstObserver secondObserver)).map
      (fun entry => (entry.1,entry.2.find "coolingDownUntil")) = [(some "a",some (.num 0))] by decide
  have right := show (mergedAccounts disabledBase secondObserver firstObserver (leftOf disabledBase secondObserver firstObserver)).map
      (fun entry => (entry.1,entry.2.find "coolingDownUntil")) = [(some "a",none)] by decide
  obtain ⟨⟨id,row⟩,here,same⟩ := mem_map.mp (by rw [left]; exact mem_singleton_self _)
  obtain ⟨⟨id',other⟩,there,same'⟩ := mem_map.mp (by rw [right]; exact mem_singleton_self _)
  obtain ⟨rfl,deadline⟩ := Prod.mk.inj same
  obtain ⟨rfl,absent⟩ := Prod.mk.inj same'
  have alike := (commute _ row other here there).coolingDownUntil
  simp only [deadline,absent] at alike
  cases alike

private def limited (until_ : ℚ) : AccountStorageV3 where
  accounts := [[("recordId",.str "a"),("refreshToken",.str "r"),("lastUsed",.num until_),("coolingDownUntil",.num until_)]]
  activeIndex := 0

private theorem limited_untied {id : Option String} {prior x y : AccountMetadataV3}
    (inBase : rowOf (mergeIdentity (limited 1) (limited 2) (limited 3)) (limited 1).accounts id = some prior)
    (inA : rowOf (mergeIdentity (limited 1) (limited 2) (limited 3)) (limited 2).accounts id = some x)
    (inB : rowOf (mergeIdentity (limited 1) (limited 2) (limited 3)) (limited 3).accounts id = some y) : Untied prior x y := by
  have base := mem_singleton.mp (rowOf_sound inBase).1
  have first := mem_singleton.mp (rowOf_sound inA).1
  have second := mem_singleton.mp (rowOf_sound inB).1
  subst base first second
  refine ⟨fun tie => ?_,fun id d l here => ?_⟩
  · exact absurd tie.1 (by decide)
  · rw [workspaceOf_untracked (by decide)] at here
    cases here

/-- Two new deadlines: the later one is kept in both orders. -/
theorem observations_commute_later : ∃ left right,
    mergeAccountSnapshot (some (limited 1)) (some (limited 2)) (limited 3) = .ok left ∧
      mergeAccountSnapshot (some (limited 1)) (some (limited 3)) (limited 2) = .ok right ∧
      ObservationsCommute (limited 1) (limited 2) (limited 3) left right := by
  have first : mergeAccountSnapshot (some (limited 1)) (some (limited 2)) (limited 3) = .ok _ := leftOf_ok (by decide)
  have second : mergeAccountSnapshot (some (limited 1)) (some (limited 3)) (limited 2) = .ok _ := leftOf_ok (by decide)
  refine ⟨_,_,first,second,(observations_commute_iff first second ?_).mpr ?_⟩
  · intro row member
    rw [mem_singleton.mp member]
    decide
  · intro id prior x y inBase inA inB
    exact limited_untied inBase inA inB

end
end CodexMultiAuth
