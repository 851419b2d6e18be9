import CodexMultiAuth.MergeFields

/-!
What the merge owes one account that is in all three documents. Workspaces are
merged by id; the observations have their own rules; every other field belongs
to the user and is merged three ways.
-/
namespace CodexMultiAuth

open List OrderedMap Option

theorem byId_append (rows : List Workspace) (row : Workspace) : byId (rows ++ [row]) = (byId rows).put row.id row := by
  simp [byId]

variable {id : Option String}

theorem byId_sound {rows : List Workspace} {row : Workspace} (found : (byId rows).find id = some row) :
    row ∈ rows ∧ row.id = id := by
  induction rows using List.reverseRecOn with
  | nil => simp [byId] at found
  | append_singleton rows last ih =>
    rw [byId_append,find_put] at found
    split at found
    · rename_i same
      cases found; exact ⟨by simp,same⟩
    · exact ⟨mem_append_left _ (ih found).1,(ih found).2⟩

private theorem byId_nodup (rows : List Workspace) : (byId rows).keys.Nodup := by
  induction rows using List.reverseRecOn with
  | nil => simp [byId,OrderedMap.keys]
  | append_singleton rows last ih => rw [byId_append]; exact nodup_put ih _ _

theorem byId_distinct {rows : List Workspace} (distinct : (rows.map Workspace.id).Nodup) :
    byId rows = rows.map (fun row => (row.id,row)) := by
  induction rows using List.reverseRecOn with
  | nil => rfl
  | append_singleton rows last ih =>
    rw [map_append,nodup_append] at distinct
    rw [byId_append,ih distinct.1]
    have fresh : ∀ entries : List Workspace, (∀ row ∈ entries, row.id ≠ last.id) →
        OrderedMap.put (entries.map (fun row => (row.id,row))) last.id last = (entries ++ [last]).map (fun row => (row.id,row)) := by
      intro entries
      induction entries with
      | nil => intro; rfl
      | cons row entries ih =>
        intro other
        simp only [map_cons,cons_append,OrderedMap.put]
        rw [if_neg (other row (by simp)),ih (fun row member => other row (mem_cons_of_mem _ member))]
    exact fresh rows (fun row member same => distinct.2.2 _ (mem_map.mpr ⟨row,member,rfl⟩) _ (by simp) same)

/-- The last of a row's workspaces with an id. -/
def workspaceOf (row : AccountMetadataV3) (id : Option String) : Option Workspace := (byId (row.workspaces.getD [])).find id

theorem workspaceOf_untracked {row : AccountMetadataV3} (untracked : row.workspaces = none) (id : Option String) :
    workspaceOf row id = none := by
  simp [workspaceOf,untracked,byId]

/-- A field of a workspace that may be absent. -/
def workspaceField (row : Option Workspace) (k : String) : Option Json := row.bind (fun row => row.find k)

def stateOf (row : Option Workspace) : Option Json × Option Json := (row.map workspaceState).getD (none,none)

/-- The fields that move as one unit. -/
def stateKeys : List String := ["enabled","disabledAt"]

/-- What the merge owes one workspace. -/
structure WorkspaceMerged (base disk loc merged : Option Workspace) : Prop where
  /-- An addition survives, a removal wins. -/
  here : merged.isSome ↔ Present (base.isSome = true) (disk.isSome = true) (loc.isSome = true)
  fromDisk : base = none → loc = none → merged = disk
  fromLocal : base = none → disk = none → merged = loc
  field : disk.isSome → loc.isSome → ∀ k, k ∉ stateKeys →
    ThreeWay (workspaceField base k) (workspaceField disk k) (workspaceField loc k) (workspaceField merged k)
  state : disk.isSome → loc.isSome → ThreeWay (stateOf base) (stateOf disk) (stateOf loc) (stateOf merged)

theorem find_withState (source row : Workspace) (k : String) :
    (withState source row).find k =
      if k = "enabled" then source.find "enabled" else if k = "disabledAt" then source.find "disabledAt" else row.find k := by
  simp only [withState,find_assign]
  by_cases second : k = "disabledAt"
  · subst second; simp
  · by_cases first : k = "enabled"
    · subst first; simp
    · simp [first,second,Ne.symm first,Ne.symm second]

private theorem stateSource_threeWay (base : Option Workspace) (disk loc : Workspace) :
    ThreeWay (stateOf base) (workspaceState disk) (workspaceState loc) (workspaceState (stateSource base disk loc)) where
  locKept same := by simp [stateSource,stateOf] at same ⊢; simp [same]
  diskKept same := by
    simp only [stateSource,stateOf] at same ⊢
    by_cases kept : workspaceState disk = workspaceState loc
    · rw [if_pos (same.symm.trans kept)]; exact kept
    · rw [if_neg (fun equal => kept (same.trans equal)),if_pos same.symm]

private theorem withState_none {base : Option Workspace} {source : Workspace} {k : String} (other : k ∉ stateKeys) :
    (base.map (withState source)).bind (fun b => b.find k) = workspaceField base k := by
  simp only [stateKeys,mem_cons,not_mem_nil,or_false,not_or] at other
  cases base <;> simp [workspaceField,find_withState,other]

private theorem mergeWorkspace_ok {base merged : Option Workspace} {d l : Workspace}
    (done : mergeWorkspace base (some d) (some l) = .ok merged) :
    ∃ result, merged = some result ∧ ∀ k, mergeValue ((base.map (withState (stateSource base d l))).bind (fun b => b.find k))
      ((withState (stateSource base d l) d).find k) ((withState (stateSource base d l) l).find k) = .ok (result.find k) := by
  simp only [mergeWorkspace] at done
  split at done
  · cases done
  · rename_i value finished
    have merge := @mergeValue_objects_ok value (base.map (withState (stateSource base d l)))
      (withState (stateSource base d l) d) (withState (stateSource base d l) l)
    rw [Option.map_map] at merge
    obtain ⟨result,rfl,fields⟩ := merge finished
    cases done
    exact ⟨result,rfl,fields⟩

private theorem mergeWorkspace_state {base merged : Option Workspace} {d l : Workspace}
    (done : mergeWorkspace base (some d) (some l) = .ok merged) :
    merged.map workspaceState = some (workspaceState (stateSource base d l)) := by
  obtain ⟨result,rfl,fields⟩ := mergeWorkspace_ok done
  have first := fields "enabled"
  have second := fields "disabledAt"
  simp only [find_withState,if_true,mergeValue_same,Except.ok.injEq,String.reduceEq,if_false] at first second
  simp [workspaceState,first,second]

theorem mergeWorkspace_merged {base disk loc merged : Option Workspace} (done : mergeWorkspace base disk loc = .ok merged) :
    WorkspaceMerged base disk loc merged := by
  have oneSided : ∀ side : Option Workspace, (disk = none ∨ loc = none) → disk.or loc = side →
      merged = (if base.isNone then side else none) → WorkspaceMerged base disk loc merged := by
    rintro side lacking rfl rfl
    constructor
    · rcases lacking with rfl | rfl <;> cases base <;> simp [Present]
    · rintro rfl rfl; simp
    · rintro rfl rfl; simp
    · intro onDisk onLocal; rcases lacking with rfl | rfl <;> simp_all
    · intro onDisk onLocal; rcases lacking with rfl | rfl <;> simp_all
  cases disk with
  | none => simp only [mergeWorkspace,Except.ok.injEq] at done; exact oneSided _ (.inl rfl) rfl done.symm
  | some d =>
    cases loc with
    | none => simp only [mergeWorkspace,Except.ok.injEq] at done; exact oneSided _ (.inr rfl) rfl done.symm
    | some l =>
      have state := mergeWorkspace_state done
      obtain ⟨result,rfl,fields⟩ := mergeWorkspace_ok done
      have state : workspaceState result = workspaceState (stateSource base d l) := Option.some.inj state
      refine ⟨by simp [Present],by simp,by simp,?_,?_⟩
      · rintro - - k other
        have field := mergeValue_threeWay (fields k)
        rw [withState_none other] at field
        simp only [stateKeys,mem_cons,not_mem_nil,or_false,not_or] at other
        simpa [find_withState,other,workspaceField] using field
      · rintro - -
        have unit := stateSource_threeWay base d l
        rw [← state] at unit
        simpa [stateOf] using unit

theorem mergeWorkspace_error {base disk loc : Option Workspace} {e : StorageError} (failed : mergeWorkspace base disk loc = .error e) :
    disk.isSome ∧ loc.isSome ∧ ∃ k, k ∉ stateKeys ∧
      Diverged (workspaceField base k) (workspaceField disk k) (workspaceField loc k) := by
  cases disk with
  | none => simp [mergeWorkspace] at failed
  | some d =>
    cases loc with
    | none => simp [mergeWorkspace] at failed
    | some l =>
      refine ⟨rfl,rfl,?_⟩
      simp only [mergeWorkspace] at failed
      split at failed
      · rename_i e' bad
        have merge := @mergeValue_objects_error (base.map (withState (stateSource base d l)))
          (withState (stateSource base d l) d) (withState (stateSource base d l) l) e'
        rw [Option.map_map] at merge
        obtain ⟨k,bad⟩ := merge bad
        have other : k ∉ stateKeys := by
          -- Both sides carry the chosen state.
          simp only [stateKeys,mem_cons,not_mem_nil,or_false]
          rintro (rfl | rfl) <;> simp [find_withState,mergeValue_same] at bad
        refine ⟨k,other,?_⟩
        have diverged := mergeValue_error bad
        rw [withState_none other] at diverged
        simp only [stateKeys,mem_cons,not_mem_nil,or_false,not_or] at other
        simpa [find_withState,other,workspaceField] using diverged
      · cases failed

private theorem mergeWorkspace_id {base disk loc : Option Workspace} {row : Workspace}
    (onDisk : ∀ d, disk = some d → d.id = id) (onLocal : ∀ l, loc = some l → l.id = id)
    (done : mergeWorkspace base disk loc = .ok (some row)) : row.id = id := by
  have merged := mergeWorkspace_merged done
  cases disk with
  | none =>
    cases base with
    | none => exact onLocal row (merged.fromLocal rfl rfl).symm
    | some b => simpa [Present] using merged.here
  | some d =>
    cases loc with
    | none =>
      cases base with
      | none => exact onDisk row (merged.fromDisk rfl rfl).symm
      | some b => simpa [Present] using merged.here
    | some l =>
      obtain ⟨result,only,fields⟩ := mergeWorkspace_ok done
      cases only
      have same : d.id = l.id := (onDisk d rfl).trans (onLocal l rfl).symm
      rw [← onDisk d rfl]
      have text := mergeValue_text (fields "id") (by simpa [find_withState,Workspace.id,Record.text] using same)
      simpa [find_withState,Workspace.id,Record.text] using text

variable {base disk loc : AccountMetadataV3}

private theorem mergeWorkspaceRows_ok {workspaces : List Workspace}
    (done : mergeWorkspaceRows base disk loc = .ok workspaces) (id : Option String) :
    mergeWorkspace (workspaceOf base id) (workspaceOf disk id) (workspaceOf loc id) = .ok ((byId workspaces).find id) := by
  simp only [mergeWorkspaceRows] at done
  have keyed : ∀ id row, mergeWorkspace (workspaceOf base id) (workspaceOf disk id) (workspaceOf loc id) = .ok (some row) → row.id = id :=
    fun id row finished => mergeWorkspace_id (fun d found => (byId_sound found).2) (fun l found => (byId_sound found).2) finished
  have built := build_of_collect keyed done
  have order : ((byId (disk.workspaces.getD [])).keys ++ (byId (loc.workspaces.getD [])).keys.filter (fun id =>
      !(byId (disk.workspaces.getD [])).keys.contains id && !(byId (base.workspaces.getD [])).keys.contains id)).Nodup := by
    refine nodup_append.mpr ⟨byId_nodup _,(byId_nodup _).filter _,?_⟩
    rintro id onDisk id' fresh rfl
    simp only [mem_filter,contains_eq_mem,Bool.and_eq_true,Bool.not_eq_true',decide_eq_false_iff_not] at fresh
    exact fresh.2.1 onDisk
  have distinct : (workspaces.map Workspace.id).Nodup := by
    have := order.sublist (keys_build built)
    simpa [OrderedMap.keys,Function.comp_def] using this
  rw [byId_distinct distinct]
  obtain ⟨values,absent⟩ := build_ok order built
  by_cases known : id ∈ ((byId (disk.workspaces.getD [])).keys ++ (byId (loc.workspaces.getD [])).keys.filter (fun id =>
      !(byId (disk.workspaces.getD [])).keys.contains id && !(byId (base.workspaces.getD [])).keys.contains id))
  · exact values id known
  · -- An id that is not looked at is on no side, or was removed from the disk.
    rw [absent id known]
    simp only [mem_append,mem_filter,contains_eq_mem,Bool.and_eq_true,Bool.not_eq_true',decide_eq_false_iff_not,
      not_or,not_and,not_not] at known
    have gone : workspaceOf disk id = none := find_eq_none.mpr known.1
    simp only [gone,mergeWorkspace,none_or,Except.ok.injEq]
    split
    · rename_i fresh
      refine find_eq_none.mpr (fun member => ?_)
      have before : workspaceOf base id = none := by simpa using fresh
      exact find_eq_none.mp before (known.2 member known.1)
    · rfl

/-- The selected workspace is the one of the side that changed it. -/
def chosenWorkspace (base disk loc : AccountMetadataV3) : Option String :=
  if currentWorkspaceId loc ≠ currentWorkspaceId base then currentWorkspaceId loc else currentWorkspaceId disk

private theorem mergeWorkspaceSelection_chosen {workspaces : List Workspace}
    (there : ∃ row ∈ workspaces, row.id = chosenWorkspace base disk loc) :
    ((workspaces[(mergeWorkspaceSelection base disk loc workspaces).getD 0]?).bind Workspace.id) = chosenWorkspace base disk loc := by
  obtain ⟨row,member,same⟩ := there
  have position : ∃ i, workspaces.findIdx? (fun row => decide (row.id = chosenWorkspace base disk loc)) = some i := by
    cases found : workspaces.findIdx? (fun row => decide (row.id = chosenWorkspace base disk loc)) with
    | some i => exact ⟨i,rfl⟩
    | none => exact absurd same (by simpa using List.findIdx?_eq_none_iff.mp found row member)
  obtain ⟨i,found⟩ := position
  have value : (mergeWorkspaceSelection base disk loc workspaces).getD 0 = i := by
    unfold mergeWorkspaceSelection
    unfold chosenWorkspace at found
    simp only [found,getD_some]
    split
    · rename_i untracked; simp [untracked.2]
    · rfl
  rw [value]
  obtain ⟨bound,hit,-⟩ := List.findIdx?_eq_some_iff_getElem.mp found
  rw [List.getElem?_eq_getElem bound]
  simpa using hit

/-! ### The whole account -/

/-- The fields with a rule of their own. -/
def observationKeys : List String :=
  ["lastUsed","enabled","rateLimitResetTimes","coolingDownUntil","cooldownReason","lastSwitchReason"]

def workspaceKeys : List String := ["workspaces","currentWorkspaceIndex"]

/-- A field that belongs to the user. The list of workspaces does only where
    neither side has workspaces. -/
def UserOwned (disk loc : AccountMetadataV3) (k : String) : Prop :=
  k ∉ observationKeys ∧ (disk.workspaces.isSome ∨ loc.workspaces.isSome → k ∉ workspaceKeys)

def isDisabled (row : AccountMetadataV3) : Bool := decide (row.find "enabled" = some (.bool false))

def limit (row : AccountMetadataV3) (k : String) : Option Json := row.rateLimitResetTimes.find k

/-- What the merge owes one account. -/
structure AccountMerged (base disk loc merged : AccountMetadataV3) : Prop where
  userOwned : ∀ k, UserOwned disk loc k → mergeValue (base.find k) (disk.find k) (loc.find k) = .ok (merged.find k)
  enabled : ThreeWay (isDisabled base) (isDisabled disk) (isDisabled loc) (isDisabled merged)
  lastUsed : merged.find "lastUsed" = some (.num (max (disk.lastUsed.getD 0) (loc.lastUsed.getD 0)))
  rateLimit : ∀ k, limit merged k = mergeRateLimit (limit base k) (limit disk k) (limit loc k)
  cooldown : ((merged.find "coolingDownUntil",merged.find "cooldownReason")) =
    mergeAccountCooldown (cooldownRow base) (cooldownRow disk) (cooldownRow loc)
  lastSwitchReason : merged.find "lastSwitchReason" = (loc.find "lastSwitchReason").or (disk.find "lastSwitchReason")
  workspace : disk.workspaces.isSome ∨ loc.workspaces.isSome → merged.workspaces.isSome ∧
    ∀ id, WorkspaceMerged (workspaceOf base id) (workspaceOf disk id) (workspaceOf loc id) (workspaceOf merged id)
  /-- The chosen workspace stays selected where it is still there. -/
  selection : disk.workspaces.isSome ∨ loc.workspaces.isSome →
    (workspaceOf merged (chosenWorkspace base disk loc)).isSome → currentWorkspaceId merged = chosenWorkspace base disk loc

/-- What makes two sides of an account conflict. -/
def AccountDiverged (base disk loc : AccountMetadataV3) : Prop :=
  (∃ k, UserOwned disk loc k ∧ Diverged (base.find k) (disk.find k) (loc.find k)) ∨
    ∃ id k, k ∉ stateKeys ∧ (workspaceOf disk id).isSome ∧ (workspaceOf loc id).isSome ∧
      Diverged (workspaceField (workspaceOf base id) k) (workspaceField (workspaceOf disk id) k) (workspaceField (workspaceOf loc id) k)

/-- The overlay of a field, where there is one. -/
def RuntimeFields.observed (runtime : RuntimeFields) (k : String) : Option (Option Json) :=
  if k = "rateLimitResetTimes" then some runtime.rateLimitResetTimes
  else if k = "coolingDownUntil" then some runtime.coolingDownUntil
  else if k = "cooldownReason" then some runtime.cooldownReason
  else if k = "lastSwitchReason" then some runtime.lastSwitchReason
  else runtime.workspaces.bind (fun chosen =>
    if k = "workspaces" then some (some (.arr (chosen.1.map Json.obj)))
    else if k = "currentWorkspaceIndex" then some (chosen.2.map (fun index => .num index))
    else none)

private theorem find_overlay (runtime : RuntimeFields) (row : AccountMetadataV3) (k : String) :
    (runtime.overlay row).find k = (runtime.observed k).getD (row.find k) := by
  unfold RuntimeFields.overlay RuntimeFields.observed
  by_cases limits : k = "rateLimitResetTimes"
  · subst limits; cases runtime.workspaces <;> simp
  by_cases deadline : k = "coolingDownUntil"
  · subst deadline; cases runtime.workspaces <;> simp
  by_cases reason : k = "cooldownReason"
  · subst reason; cases runtime.workspaces <;> simp
  by_cases switch : k = "lastSwitchReason"
  · subst switch; cases runtime.workspaces <;> simp
  cases runtime.workspaces with
  | none => simp [limits,deadline,reason,switch,Ne.symm limits,Ne.symm deadline,Ne.symm reason,Ne.symm switch]
  | some chosen =>
    by_cases list : k = "workspaces"
    · subst list; simp
    by_cases index : k = "currentWorkspaceIndex"
    · subst index; simp
    simp [limits,deadline,reason,switch,list,index,Ne.symm limits,Ne.symm deadline,Ne.symm reason,Ne.symm switch,
      Ne.symm list,Ne.symm index]

private theorem find_normalizedEnabled (row : AccountMetadataV3) (k : String) :
    (normalizedEnabled row).find k = if k = "enabled" then (if isDisabled row then some (.bool false) else none) else row.find k := by
  simp only [normalizedEnabled,find_assign,isDisabled,decide_eq_true_eq]
  by_cases same : k = "enabled"
  · subst same; simp
  · simp [same,Ne.symm same]

variable {merged : AccountMetadataV3}

private theorem mergeRuntimeAccount_ok (done : mergeRuntimeAccount base disk loc = .ok merged) :
    ∃ runtime, mergeRuntimeFields base disk loc = .ok runtime ∧
      (∀ k v, runtime.observed k = some v → merged.find k = v) ∧
      ∀ k, runtime.observed k = none → mergeValue ((normalizedEnabled base).find k) ((normalizedEnabled disk).find k)
        ((normalizedEnabled loc).find k) = .ok (merged.find k) := by
  simp only [mergeRuntimeAccount] at done
  split at done
  · cases done
  · rename_i runtime computed
    refine ⟨runtime,computed,?_,?_⟩
    · intro k v seen
      have field := mergeRecord_ok done k
      rw [find_overlay,find_overlay,seen,getD_some,getD_some,mergeValue_same,Except.ok.injEq] at field
      exact field.symm
    · intro k silent
      have field := mergeRecord_ok done k
      rwa [find_overlay,find_overlay,silent,getD_none,getD_none] at field

variable {runtime : RuntimeFields}

private theorem mergeRuntimeFields_ok
    (done : mergeRuntimeFields base disk loc = .ok runtime) :
    runtime.rateLimitResetTimes =
        (let limits := mergeRateLimits base.rateLimitResetTimes disk.rateLimitResetTimes loc.rateLimitResetTimes
        if limits.isEmpty then none else some (.obj limits)) ∧
      (runtime.coolingDownUntil,runtime.cooldownReason) =
        mergeAccountCooldown (cooldownRow base) (cooldownRow disk) (cooldownRow loc) ∧
      runtime.lastSwitchReason = (loc.find "lastSwitchReason").or (disk.find "lastSwitchReason") ∧
      if disk.workspaces.isSome ∨ loc.workspaces.isSome then
        ∃ workspaces, mergeWorkspaceRows base disk loc = .ok workspaces ∧
          runtime.workspaces = some (workspaces,mergeWorkspaceSelection base disk loc workspaces)
      else runtime.workspaces = none := by
  simp only [mergeRuntimeFields] at done
  split at done
  · rename_i tracked
    split at done
    · cases done
    · rename_i workspaces finished
      cases done
      rw [if_pos tracked]
      exact ⟨rfl,rfl,rfl,workspaces,finished,rfl⟩
  · rename_i untracked
    cases done
    rw [if_neg untracked]
    exact ⟨rfl,rfl,rfl,rfl⟩

private theorem observed_runtime (runtime : RuntimeFields) :
    runtime.observed "rateLimitResetTimes" = some runtime.rateLimitResetTimes ∧
      runtime.observed "coolingDownUntil" = some runtime.coolingDownUntil ∧
      runtime.observed "cooldownReason" = some runtime.cooldownReason ∧
      runtime.observed "lastSwitchReason" = some runtime.lastSwitchReason := by
  simp [RuntimeFields.observed]

private theorem observed_workspaces {chosen : List Workspace × Option Nat}
    (here : runtime.workspaces = some chosen) :
    runtime.observed "workspaces" = some (some (.arr (chosen.1.map Json.obj))) ∧
      runtime.observed "currentWorkspaceIndex" = some (chosen.2.map (fun index => .num index)) := by
  obtain ⟨rows,selected⟩ := chosen
  cases selected <;> simp [RuntimeFields.observed,here]

private theorem observed_none {k : String}
    (other : k ∉ ["rateLimitResetTimes","coolingDownUntil","cooldownReason","lastSwitchReason"])
    (untouched : runtime.workspaces.isSome → k ∉ workspaceKeys) : runtime.observed k = none := by
  simp only [mem_cons,not_mem_nil,or_false,not_or] at other
  unfold RuntimeFields.observed
  cases list : runtime.workspaces with
  | none => simp [other]
  | some chosen =>
    have := untouched (by simp [list])
    simp only [workspaceKeys,mem_cons,not_mem_nil,or_false,not_or] at this
    simp [other,this]

theorem filterMap_asRecord (rows : List Workspace) : (rows.map Json.obj).filterMap Json.asRecord = rows := by
  induction rows with
  | nil => rfl
  | cons row rows ih => simp [Json.asRecord,ih]

private theorem stored_limits (limits : Record) :
    ((if limits.isEmpty then none else some (Json.obj limits)).bind Json.asRecord).getD [] = limits := by
  split
  · rename_i empty; simpa using (isEmpty_iff.mp empty).symm
  · simp [Json.asRecord]

private theorem mergeRuntimeAccount_merged (done : mergeRuntimeAccount base disk loc = .ok merged) {used : Json}
    (onDisk : disk.find "lastUsed" = some used) (onLocal : loc.find "lastUsed" = some used) :
    (∀ k, UserOwned disk loc k → mergeValue (base.find k) (disk.find k) (loc.find k) = .ok (merged.find k)) ∧
      ThreeWay (isDisabled base) (isDisabled disk) (isDisabled loc) (isDisabled merged) ∧
      merged.find "lastUsed" = some used ∧
      (∀ k, limit merged k = mergeRateLimit (limit base k) (limit disk k) (limit loc k)) ∧
      (merged.find "coolingDownUntil",merged.find "cooldownReason") =
        mergeAccountCooldown (cooldownRow base) (cooldownRow disk) (cooldownRow loc) ∧
      merged.find "lastSwitchReason" = (loc.find "lastSwitchReason").or (disk.find "lastSwitchReason") ∧
      (disk.workspaces.isSome ∨ loc.workspaces.isSome → ∃ workspaces,
        mergeWorkspaceRows base disk loc = .ok workspaces ∧ merged.workspaces = some workspaces ∧
        merged.number "currentWorkspaceIndex" = (mergeWorkspaceSelection base disk loc workspaces).map (fun index => (index : ℚ))) := by
  obtain ⟨runtime,computed,observed,silent⟩ := mergeRuntimeAccount_ok done
  obtain ⟨limits,cooldown,switched,workspaces⟩ := mergeRuntimeFields_ok computed
  obtain ⟨seenLimits,seenDeadline,seenReason,seenSwitch⟩ := observed_runtime runtime
  have list : runtime.workspaces.isSome → disk.workspaces.isSome ∨ loc.workspaces.isSome := by
    intro here
    by_contra untracked
    rw [if_neg untracked] at workspaces
    simp [workspaces] at here
  refine ⟨?_,?_,?_,?_,?_,?_,?_⟩
  · rintro k ⟨other,untouched⟩
    simp only [observationKeys,mem_cons,not_mem_nil,or_false,not_or] at other
    have field := silent k (observed_none (by simp [other]) (fun here => untouched (list here)))
    simpa only [find_normalizedEnabled,other,if_false] using field
  · have field := silent "enabled" (observed_none (by simp) (by simp [workspaceKeys]))
    simp only [find_normalizedEnabled,if_true] at field
    have rule := mergeValue_threeWay field
    have read : ∀ b : Bool, decide ((if b then some (Json.bool false) else none) = some (Json.bool false)) = b := by simp
    have three := rule.map (fun v => decide (v = some (Json.bool false)))
      (by simp only [read]; intro same; rw [same]) (by simp only [read]; intro same; rw [same])
    simp only [read] at three
    exact three
  · have field := silent "lastUsed" (observed_none (by simp) (by simp [workspaceKeys]))
    simp only [find_normalizedEnabled,String.reduceEq,if_false,onDisk,onLocal,mergeValue_same,Except.ok.injEq] at field
    exact field.symm
  · intro k
    have field := observed _ _ seenLimits
    have value : merged.rateLimitResetTimes = mergeRateLimits base.rateLimitResetTimes disk.rateLimitResetTimes loc.rateLimitResetTimes := by
      rw [AccountMetadataV3.rateLimitResetTimes,Record.record,field,limits]
      exact stored_limits _
    rw [limit,value,find_mergeRateLimits]; rfl
  · rw [observed _ _ seenDeadline,observed _ _ seenReason,cooldown]
  · rw [observed _ _ seenSwitch,switched]
  · intro tracked
    rw [if_pos tracked] at workspaces
    obtain ⟨rows,finished,here⟩ := workspaces
    obtain ⟨seenList,seenIndex⟩ := observed_workspaces here
    refine ⟨rows,finished,?_,?_⟩
    · simp only [AccountMetadataV3.workspaces,Record.records,observed _ _ seenList,bind_some,Json.asItems,
        map_some,filterMap_asRecord]
    · simp only [Record.number,observed _ _ seenIndex]
      cases mergeWorkspaceSelection base disk loc rows <;> simp [Json.asNumber]

/-! ### What the last use does not touch -/

section
variable (row : AccountMetadataV3) (used : Json)

@[simp] theorem workspaces_lastUsed : AccountMetadataV3.workspaces (row.put "lastUsed" used) = row.workspaces := by
  simp [AccountMetadataV3.workspaces,Record.records]

@[simp] theorem currentWorkspaceId_lastUsed : currentWorkspaceId (row.put "lastUsed" used) = currentWorkspaceId row := by
  simp [currentWorkspaceId,Record.number]

@[simp] theorem workspaceOf_lastUsed : workspaceOf (row.put "lastUsed" used) = workspaceOf row := by
  funext id; simp [workspaceOf]

@[simp] theorem isDisabled_lastUsed : isDisabled (row.put "lastUsed" used) = isDisabled row := by
  simp [isDisabled]

@[simp] theorem limit_lastUsed : limit (row.put "lastUsed" used) = limit row := by
  funext k; simp [limit,AccountMetadataV3.rateLimitResetTimes,Record.record]

@[simp] theorem cooldownRow_lastUsed : cooldownRow (row.put "lastUsed" used) = cooldownRow row := by
  simp [cooldownRow]

end

def lastUse (disk loc : AccountMetadataV3) : Json := .num (max (disk.lastUsed.getD 0) (loc.lastUsed.getD 0))

theorem mergeAccount_merged
    (done : mergeRuntimeAccount base (disk.put "lastUsed" (lastUse disk loc)) (loc.put "lastUsed" (lastUse disk loc)) = .ok merged) :
    AccountMerged base disk loc merged := by
  obtain ⟨userOwned,enabled,lastUsed,limits,cooldown,switched,list⟩ := mergeRuntimeAccount_merged done
    (find_put _ _ _ _) (find_put _ _ _ _)
  simp only [isDisabled_lastUsed,limit_lastUsed,cooldownRow_lastUsed,workspaces_lastUsed,find_put,String.reduceEq,
    if_false] at enabled limits cooldown switched list
  refine ⟨?_,enabled,lastUsed,limits,cooldown,switched,?_,?_⟩
  · rintro k ⟨other,untouched⟩
    have field := userOwned k ⟨other,by simpa using untouched⟩
    simp only [observationKeys,mem_cons,not_mem_nil,or_false,not_or] at other
    simpa [Ne.symm other.1] using field
  · intro tracked
    obtain ⟨rows,finished,here,-⟩ := list tracked
    have merge := fun id => mergeWorkspace_merged (mergeWorkspaceRows_ok finished id)
    simp only [workspaceOf_lastUsed] at merge
    refine ⟨by simp [here],fun id => ?_⟩
    simpa [workspaceOf,here] using merge id
  · intro tracked there
    obtain ⟨rows,finished,here,index⟩ := list tracked
    have same : chosenWorkspace base (disk.put "lastUsed" (lastUse disk loc)) (loc.put "lastUsed" (lastUse disk loc)) =
        chosenWorkspace base disk loc := by simp [chosenWorkspace]
    obtain ⟨row,found⟩ := isSome_iff_exists.mp there
    rw [workspaceOf,here,getD_some] at found
    have there : ∃ row ∈ rows, row.id = chosenWorkspace base (disk.put "lastUsed" (lastUse disk loc)) (loc.put "lastUsed" (lastUse disk loc)) := by
      rw [same]; exact ⟨row,byId_sound found⟩
    have chosen := mergeWorkspaceSelection_chosen there
    rw [currentWorkspaceId,here,index,← same,← chosen]
    cases mergeWorkspaceSelection base (disk.put "lastUsed" (lastUse disk loc)) (loc.put "lastUsed" (lastUse disk loc)) rows with
    | none => simpa using congrArg (fun row => Option.bind row Workspace.id) (item_natCast rows 0)
    | some i => simp

theorem mergeAccount_state
    (done : mergeRuntimeAccount base (disk.put "lastUsed" (lastUse disk loc)) (loc.put "lastUsed" (lastUse disk loc)) = .ok merged) {d l : Workspace} (onDisk : workspaceOf disk id = some d) (onLocal : workspaceOf loc id = some l) :
    (workspaceOf merged id).map workspaceState = some (workspaceState (stateSource (workspaceOf base id) d l)) := by
  obtain ⟨-,-,-,-,-,-,list⟩ := mergeRuntimeAccount_merged done (find_put _ _ _ _) (find_put _ _ _ _)
  have tracked : disk.workspaces.isSome := by
    by_contra untracked
    simp [workspaceOf_untracked (by simpa using untracked)] at onDisk
  obtain ⟨rows,finished,here,-⟩ := list (.inl (by simpa using tracked))
  have merge := mergeWorkspaceRows_ok finished id
  simp only [workspaceOf_lastUsed,onDisk,onLocal] at merge
  rw [workspaceOf,here,getD_some]
  exact mergeWorkspace_state merge

theorem mergeAccount_error {e : StorageError}
    (failed : mergeRuntimeAccount base (disk.put "lastUsed" (lastUse disk loc)) (loc.put "lastUsed" (lastUse disk loc)) = .error e) :
    AccountDiverged base disk loc := by
  simp only [mergeRuntimeAccount] at failed
  split at failed
  · -- The workspaces conflict.
    rename_i bad
    simp only [mergeRuntimeFields] at bad
    split at bad
    · split at bad
      · rename_i wrong
        obtain ⟨id,-,wrong⟩ := collect_error wrong
        obtain ⟨onDisk,onLocal,k,other,diverged⟩ := mergeWorkspace_error wrong
        refine .inr ⟨id,k,other,?_⟩
        simpa [workspaceOf] using And.intro onDisk (And.intro onLocal diverged)
      · cases bad
    · cases bad
  · rename_i runtime computed
    obtain ⟨-,-,-,workspaces⟩ := mergeRuntimeFields_ok computed
    obtain ⟨seenLimits,seenDeadline,seenReason,seenSwitch⟩ := observed_runtime runtime
    obtain ⟨k,bad⟩ := mergeRecord_error failed
    rw [find_overlay,find_overlay] at bad
    cases seen : runtime.observed k with
    | some v => simp [seen,mergeValue_same] at bad
    | none =>
      rw [seen,getD_none,getD_none,find_normalizedEnabled,find_normalizedEnabled,find_normalizedEnabled] at bad
      have flag : k ≠ "enabled" := by
        rintro rfl
        simp only [if_true,isDisabled_lastUsed] at bad
        obtain ⟨onDisk,onLocal,apart⟩ := mergeValue_error bad
        cases before : isDisabled base <;> cases onDisk' : isDisabled disk <;> cases onLocal' : isDisabled loc <;> simp_all
      have use : k ≠ "lastUsed" := by
        rintro rfl
        simp [mergeValue_same] at bad
      simp only [if_neg flag,find_put,if_neg (Ne.symm use)] at bad
      refine .inl ⟨k,⟨?_,?_⟩,mergeValue_error bad⟩
      · simp only [observationKeys,mem_cons,not_mem_nil,or_false,not_or]
        refine ⟨use,flag,?_,?_,?_,?_⟩ <;> rintro rfl <;> simp_all
      · intro tracked
        rw [if_pos (by simpa using tracked)] at workspaces
        obtain ⟨rows,-,here⟩ := workspaces
        obtain ⟨seenList,seenIndex⟩ := observed_workspaces here
        simp only [workspaceKeys,mem_cons,not_mem_nil,or_false,not_or]
        refine ⟨?_,?_⟩ <;> rintro rfl <;> simp_all

end CodexMultiAuth
