import CodexMultiAuth.Lists
import CodexMultiAuth.LoginResults

/-!
The two folds of a login. They do the same as long as no result goes to a stored account
that is disabled or invalidated, or whose email the plugin host would drop.
-/
namespace CodexMultiAuth.LoginResults
open List OrderedMap Option
set_option linter.unusedSectionVars false

section
variable [Host]

def enabledOf (row : AccountMetadataV3) : Json := (row.find "enabled").getD (.bool true)

/-- Two rows that differ in no more than how their email is spelled. -/
structure SameRow (row row' : AccountMetadataV3) : Prop where
  field : ∀ key, key ≠ "email" → key ≠ "enabled" → row.find key = row'.find key
  enabled : enabledOf row = enabledOf row'
  email : normalizeEmailKey row.email = normalizeEmailKey row'.email

structure Usable (row : AccountMetadataV3) : Prop where
  enabled : enabledOf row = .bool true
  valid : row.find "authInvalidatedAt" = none
  uncoded : row.find "authInvalidationErrorCode" = none

structure Holds (result : TokenSuccessWithAccount) (row : AccountMetadataV3) : Prop where
  refresh : row.find "refreshToken" = some (.str result.refresh)
  access : row.find "accessToken" = some (.str result.access)
  expires : row.find "expiresAt" = some (.num result.expires)

variable (claims : Claims) (now : ℚ)

/-- The row can be logged in to alike: it is usable, and a result without an email does
    not meet an email that is none. -/
structure Resumable (result : TokenSuccessWithAccount) (row : AccountMetadataV3) : Prop where
  usable : Usable row
  email : (resolveResult claims result).accountEmail = none → normalizeEmailKey row.email ≠ none → sanitizeEmail row.email ≠ none

/-- The fold of the command line, over the results as they are. -/
def applied : Upsert AccountMetadataV3 TokenSuccessWithAccount := applyUpsert.comap (resolvedWrite claims now)

variable (result : TokenSuccessWithAccount)

theorem persistInsert_holds : Holds result (persistInsert claims now result) := by
  constructor <;>
  · simp only [persistInsert]
    split <;> simp

theorem persistUpdate_holds (row : AccountMetadataV3) (result : TokenSuccessWithAccount) : Holds result (persistUpdate claims now row result) := by
  constructor <;> simp [persistUpdate]

theorem persistInsert_usable : Usable (persistInsert claims now result) := by
  constructor <;>
  · simp only [persistInsert,enabledOf]
    split <;> simp

theorem buildInserted_usable : Usable (buildInsertedAccount (resolvedWrite claims now result)) := by
  constructor <;>
  · simp only [buildInsertedAccount,enabledOf]
    split <;> simp

section
variable (row : AccountMetadataV3)
include row

variable (result : TokenSuccessWithAccount)

theorem buildUpdated_usable :
    Usable (buildUpdatedAccount row (resolvedWrite claims now result)) := by
  constructor <;> simp [buildUpdatedAccount,resolvedWrite,enabledOf]

/-- The plugin host leaves a disabled account disabled, and an invalidated one invalidated. -/
theorem persistUpdate_usable :
    Usable (persistUpdate claims now row result) ↔ Usable row := by
  constructor
  · rintro ⟨enabled,valid,uncoded⟩
    simp [persistUpdate,enabledOf] at enabled valid uncoded
    exact ⟨enabled,valid,uncoded⟩
  · rintro ⟨enabled,valid,uncoded⟩
    rw [enabledOf] at enabled
    constructor <;> simp [persistUpdate,enabledOf,enabled,valid,uncoded]

theorem persistUpdate_email :
    (persistUpdate claims now row result).email = (resolveResult claims result).accountEmail.or (sanitizeEmail row.email) := by
  rw [AccountMetadataV3.email,Record.text]
  simp only [persistUpdate,find_assign,find_put]
  cases (resolveResult claims result).accountEmail <;> cases sanitizeEmail row.email <;> simp [Json.asText]

theorem buildUpdated_email :
    AccountMetadataV3.email (buildUpdatedAccount row (resolvedWrite claims now result)) = (resolveResult claims result).accountEmail.or row.email := by
  rw [AccountMetadataV3.email,Record.text]
  simp only [buildUpdatedAccount,find_assign,find_put,find_remove,resolvedWrite]
  cases (resolveResult claims result).accountEmail <;> simp [Json.asText,AccountMetadataV3.email,Record.text]

end

variable {claims now}

theorem find_put_congr {one other : Record} {k key : String} {value : Json} (same : one.find key = other.find key) :
    OrderedMap.find (one.put k value) key = OrderedMap.find (other.put k value) key := by
  rw [find_put,find_put,same]

theorem find_assign_congr {one other : Record} {k key : String} {value : Option Json} (same : one.find key = other.find key) :
    OrderedMap.find (one.assign k value) key = OrderedMap.find (other.assign k value) key := by
  rw [find_assign,find_assign,same]

variable {key : String}

theorem unmarked {row enabled : Record} (other : enabled.find key = row.find key) (valid : row.find "authInvalidatedAt" = none)
    (uncoded : row.find "authInvalidationErrorCode" = none) :
    row.find key = ((enabled.remove "authInvalidatedAt").remove "authInvalidationErrorCode").find key := by
  rw [find_remove,find_remove,other]
  by_cases code : "authInvalidationErrorCode" = key
  · rw [if_pos code,← code,uncoded]
  · rw [if_neg code]
    by_cases marker : "authInvalidatedAt" = key
    · rw [if_pos marker,← marker,valid]
    · rw [if_neg marker]

variable {row row' : AccountMetadataV3}

section
variable (same : SameRow row row')
include same

theorem SameRow.workspaces : workspacesOf row = workspacesOf row' := by
  rw [workspacesOf,workspacesOf,Record.records,Record.records,same.field "workspaces" (by decide) (by decide)]

theorem SameRow.currentWorkspaceId : currentWorkspaceId row = currentWorkspaceId row' := by
  rw [LoginResults.currentWorkspaceId,LoginResults.currentWorkspaceId,same.workspaces,Record.number,Record.number,
    same.field "currentWorkspaceIndex" (by decide) (by decide)]

theorem SameRow.nextMirror (change : Change Record) :
    nextMirror change row = nextMirror change row' := by
  match change with
  | some none => rfl
  | some (some mirror) => rfl
  | none => exact same.field "codexCliMirror" (by decide) (by decide)

theorem SameRow.identityRef : identityRef row = identityRef row' := by
  have texts : ∀ key, key ≠ "email" → key ≠ "enabled" → Record.text row key = Record.text row' key := by
    intro key notEmail notEnabled
    rw [Record.text,Record.text,same.field key notEmail notEnabled]
  have id : row.accountId = row'.accountId := texts "accountId" (by decide) (by decide)
  have token : row.refreshToken = row'.refreshToken := texts "refreshToken" (by decide) (by decide)
  show toAccountIdentityRef ⟨row.accountId,row.email,row.refreshToken⟩ = toAccountIdentityRef ⟨row'.accountId,row'.email,row'.refreshToken⟩
  rw [toAccountIdentityRef,toAccountIdentityRef,id,token,same.email]

end

theorem initialWorkspaceIndex_same (workspaces : Option (List Workspace)) (accountId : Option String) :
    initialWorkspaceIndex workspaces accountId = insertedWorkspaceIndex workspaces accountId := by
  match workspaces with
  | none => rfl
  | some [] => rfl
  | some (first :: rest) =>
    rw [initialWorkspaceIndex,insertedWorkspaceIndex,pickInitialWorkspaceIndex]
    cases (accountId.bind nonEmpty).bind (fun id => (first :: rest).findIdx? (fun workspace => decide (workspace.id = some id))) <;> rfl

theorem inserted_same :
    SameRow (persistInsert claims now result) (buildInsertedAccount (resolvedWrite claims now result)) := by
  refine ⟨?_,(persistInsert_usable claims now result).enabled.trans (buildInserted_usable claims now result).enabled.symm,?_⟩
  · intro key notEmail notEnabled
    simp only [persistInsert,buildInsertedAccount,resolvedWrite,initialWorkspaceIndex_same]
    cases result.codexCliMirror.join with
    | none =>
      dsimp only
      refine find_assign_congr (find_assign_congr (find_put_congr (find_put_congr ?_)))
      refine unmarked ?_ ?_ ?_ <;> simp [Ne.symm notEnabled]
    | some mirror =>
      dsimp only
      refine find_put_congr (find_assign_congr (find_assign_congr (find_put_congr (find_put_congr ?_))))
      refine unmarked ?_ ?_ ?_ <;> simp [Ne.symm notEnabled]
  · congr 1
    rw [AccountMetadataV3.email,AccountMetadataV3.email,Record.text,Record.text]
    simp only [persistInsert,buildInsertedAccount,resolvedWrite]
    cases result.codexCliMirror.join with
    | none => simp
    | some mirror => simp

theorem mergedWorkspaces_same (same : SameRow row row') (workspaces : Option (List Workspace)) :
    mergedWorkspaces row workspaces = (workspaces.map (mergeAccountWorkspaces row')).or (workspacesOf row') := by
  cases workspaces with
  | none => exact same.workspaces
  | some incoming =>
    rw [mergedWorkspaces,same.workspaces]
    rfl

theorem nextCurrentWorkspaceIndex_same (same : SameRow row row') (merged : Option (List Workspace)) :
    nextCurrentWorkspaceIndex row merged = resolveCurrentWorkspaceIndex row' merged := by
  have kept : row.find "currentWorkspaceIndex" = row'.find "currentWorkspaceIndex" := same.field "currentWorkspaceIndex" (by decide) (by decide)
  match merged with
  | none => exact kept
  | some [] => exact kept
  | some (first :: rest) =>
    rw [nextCurrentWorkspaceIndex,resolveCurrentWorkspaceIndex,same.currentWorkspaceId]
    cases (currentWorkspaceId row').bind (fun id => (first :: rest).findIdx? (fun workspace => decide (workspace.id = some id))) with
    | some matching => rfl
    | none => cases (first :: rest).findIdx? isDefault <;> rfl

variable {email : Option String}

theorem sanitized_key [LawfulHost] (kept : normalizeEmailKey email ≠ none → sanitizeEmail email ≠ none) :
    normalizeEmailKey (sanitizeEmail email) = normalizeEmailKey email := by
  cases email with
  | none => rfl
  | some text =>
    rw [normalizeEmailKey,bind_some] at kept
    rw [sanitizeEmail,bind_some] at kept ⊢
    rw [normalizeEmailKey,normalizeEmailKey,bind_some]
    cases solid : nonEmpty (trim text) with
    | none => rfl
    | some trimmed =>
      rw [solid] at kept
      rw [bind_some] at kept ⊢
      by_cases marked : trimmed.toList.contains '@' = true
      · have here : trim text = trimmed := by
          rw [nonEmpty] at solid
          split at solid
          · cases solid
          · exact Option.some.inj solid
        have lowered : trim (Host.toLowerCase trimmed) = Host.toLowerCase trimmed := by
          rw [← here]
          exact LawfulHost.trim_toLowerCase text
        have some_ : trimmed ≠ "" := by
          rintro rfl
          cases marked
        rw [if_pos marked,bind_some,lowered,nonEmpty,if_neg (Host.toLowerCase_ne _ some_),map_some,map_some,
          LawfulHost.toLowerCase_idem]
      · rw [if_neg marked] at kept
        exact absurd rfl (kept (by rw [map_some]; exact some_ne_none _))

variable {result : TokenSuccessWithAccount}

theorem updated_same [LawfulHost] (same : SameRow row row')
    (resumable : Resumable claims result row) :
    SameRow (persistUpdate claims now row result) (buildUpdatedAccount row' (resolvedWrite claims now result)) := by
  refine ⟨?_,?_,?_⟩
  · intro key notEmail notEnabled
    simp only [persistUpdate,buildUpdatedAccount,resolvedWrite,same.nextMirror,mergedWorkspaces_same same,nextCurrentWorkspaceIndex_same same]
    have items : (if result.workspaces.isSome = true then
          ((result.workspaces.map (mergeAccountWorkspaces row')).or (workspacesOf row')).map workspaceItems
        else row.find "workspaces") =
        ((result.workspaces.map (mergeAccountWorkspaces row')).map workspaceItems).or (row'.find "workspaces") := by
      cases result.workspaces with
      | none => exact same.field "workspaces" (by decide) (by decide)
      | some incoming => rfl
    rw [items]
    refine find_assign_congr (find_assign_congr (find_assign_congr (find_put_congr ?_)))
    refine unmarked ?_ ?_ ?_
    · have id := same.field "accountId" (by decide) (by decide)
      have source := same.field "accountIdSource" (by decide) (by decide)
      have label := same.field "accountLabel" (by decide) (by decide)
      simp only [find_assign,find_put,if_neg (Ne.symm notEnabled),if_neg (Ne.symm notEmail),
        same.field key notEmail notEnabled,id,source,label,map_some]
      rfl
    · simp [resumable.usable.valid]
    · simp [resumable.usable.uncoded]
  · rw [((persistUpdate_usable claims now row result).mpr resumable.usable).enabled,(buildUpdated_usable claims now row' result).enabled]
  · rw [persistUpdate_email,buildUpdated_email]
    cases named : (resolveResult claims result).accountEmail with
    | some email => rfl
    | none =>
      rw [none_or,none_or,sanitized_key (resumable.email named)]
      exact same.email

/-! ### Matching -/

theorem SameRow.times (same : SameRow row row') :
    AccountRow.lastUsed row = AccountRow.lastUsed row' ∧ AccountRow.addedAt row = AccountRow.addedAt row' := by
  have used := same.field "lastUsed" (by decide) (by decide)
  have added := same.field "addedAt" (by decide) (by decide)
  exact ⟨congrArg (Option.bind · Json.asNumber) used,congrArg (Option.bind · Json.asNumber) added⟩

/-- Two best matches so far at the same position. -/
def SameBest : Option (ℕ × AccountMetadataV3) → Option (ℕ × AccountMetadataV3) → Prop
  | none,none => True
  | some (i,row),some (j,row') => i = j ∧ SameRow row row'
  | _,_ => False

variable {best best' : Option (ℕ × AccountMetadataV3)}

theorem SameBest.position (same : SameBest best best') : best.map Prod.fst = best'.map Prod.fst := by
  match best,best',same with
  | none,none,_ => rfl
  | some (i,row),some (j,row'),⟨at_,_⟩ => exact congrArg some at_

theorem SameBest.newer (same : SameBest best best') (i : ℕ)
    (rows : SameRow row row') : SameBest (newerMatch best i row) (newerMatch best' i row') := by
  match best,best',same with
  | none,none,_ => exact ⟨rfl,rows⟩
  | some (j,current),some (j',current'),⟨at_,currents⟩ =>
    have selects : selectsCandidate current row = selectsCandidate current' row' := by
      rw [selectsCandidate,selectsCandidate,currents.times.1,currents.times.2,rows.times.1,rows.times.2]
    rw [newerMatch,newerMatch,selects]
    split
    · exact ⟨rfl,rows⟩
    · exact ⟨at_,currents⟩

variable {rows rows' : List AccountMetadataV3}

theorem newestFrom_same (same : List.Forall₂ SameRow rows rows') (predicate : AccountIdentityRef → Bool) (i : ℕ) (bests : SameBest best best') : newestFrom predicate rows i best = newestFrom predicate rows' i best' := by
  induction same generalizing i best best' with
  | nil => exact bests.position
  | cons head _ ih =>
    rw [newestFrom,newestFrom,head.identityRef]
    apply ih
    split
    · exact bests.newer i head
    · exact bests

theorem compatibleRefreshFrom_same (same : List.Forall₂ SameRow rows rows') (candidateRef : AccountIdentityRef)
    (i : ℕ) (bests : SameBest best best') :
    compatibleRefreshFrom candidateRef rows i best = compatibleRefreshFrom candidateRef rows' i best' := by
  induction same generalizing i best best' with
  | nil => exact bests.position
  | cons head _ ih =>
    rw [compatibleRefreshFrom,compatibleRefreshFrom,head.identityRef]
    have some_ : best.isSome = best'.isSome := by
      rw [← isSome_map (f := Prod.fst),bests.position,isSome_map]
    rw [some_]
    split
    · exact ih (i + 1) bests
    · split
      · rfl
      · split
        · rfl
        · exact ih (i + 1) (bests.newer i head)

theorem uniqueOwnerFrom_same (same : List.Forall₂ SameRow rows rows') (accountId : Option String) (i : ℕ)
    (found : Option (ℕ × Option String)) : uniqueOwnerFrom accountId rows i found = uniqueOwnerFrom accountId rows' i found := by
  induction same generalizing i found with
  | nil => rfl
  | cons head _ ih =>
    rw [uniqueOwnerFrom,uniqueOwnerFrom,head.identityRef]
    split
    · exact ih _ _
    · split
      · rfl
      · exact ih _ _

theorem findMatchingAccountIndex_same (same : List.Forall₂ SameRow rows rows') (candidate : AccountLike)
    (allow : Bool) : findMatchingAccountIndex rows candidate allow = findMatchingAccountIndex rows' candidate allow := by
  have refs : rows.map identityRef = rows'.map identityRef := by
    induction same with
    | nil => rfl
    | cons head _ ih => rw [map_cons,map_cons,head.identityRef,ih]
  have newest : ∀ predicate, findNewestMatchingIndex rows predicate = findNewestMatchingIndex rows' predicate :=
    fun predicate => newestFrom_same same predicate 0 trivial
  rw [findMatchingAccountIndex,findMatchingAccountIndex,findMatchingRefIndex,findMatchingRefIndex]
  simp only [findCompositeAccountMatchIndex,findSafeEmailMatchIndex,findCompatibleRefreshTokenMatchIndex,findUniqueAccountIdMatchIndex,newest,refs,
    compatibleRefreshFrom_same same _ 0 (show SameBest none none from trivial),uniqueOwnerFrom_same same]

variable {rows : List AccountMetadataV3}
variable {i : ℕ}

theorem findMatchingAccountIndex_lt {candidate : AccountLike} {allow : Bool}
    (found : findMatchingAccountIndex rows candidate allow = some i) : i < rows.length := by
  obtain ⟨row,here,_⟩ := findMatchingRefIndex_compatible found
  exact (List.getElem?_eq_some_iff.mp here).1

theorem persist_find_lt (i : ℕ)
    (found : (persistUpsert claims now).find rows result = some i) : i < rows.length := findMatchingAccountIndex_lt found

theorem find_same (same : List.Forall₂ SameRow rows rows') (result : TokenSuccessWithAccount) :
    (persistUpsert claims now).find rows result = (applied claims now).find rows' result := findMatchingAccountIndex_same same _ _

theorem place_same (same : List.Forall₂ SameRow rows rows') (result : TokenSuccessWithAccount) :
    (persistUpsert claims now).place rows result = (applied claims now).place rows' result := by
  rw [Upsert.place,Upsert.place,find_same same,same.length_eq]

variable (claims now) in
/-- Every result goes to a row that can be logged in to alike, or to a new one. -/
def Resumes (rows : List AccountMetadataV3) (results : List TokenSuccessWithAccount) : Prop :=
  ∀ before result after, results = before ++ result :: after → ∀ i row,
    (persistUpsert claims now).find ((persistUpsert claims now).fold rows before) result = some i →
    ((persistUpsert claims now).fold rows before)[i]? = some row → Resumable claims result row

theorem resumes_cons {rest : List TokenSuccessWithAccount} :
    Resumes claims now rows (result :: rest) ↔
      (∀ i row, (persistUpsert claims now).find rows result = some i → rows[i]? = some row → Resumable claims result row) ∧
        Resumes claims now ((persistUpsert claims now).step rows result) rest := by
  constructor
  · intro resumes
    refine ⟨resumes [] result rest rfl,?_⟩
    intro before next after split_
    exact resumes (result :: before) next after (congrArg (result :: ·) split_)
  · rintro ⟨here,later⟩ before next after split_
    cases before with
    | nil =>
      obtain ⟨rfl,rfl⟩ := List.cons.inj split_
      exact here
    | cons first before =>
      obtain ⟨rfl,rfl⟩ := List.cons.inj split_
      exact later before next after rfl

theorem step_same [LawfulHost] (same : List.Forall₂ SameRow rows rows')
    (resumable : ∀ i row, (persistUpsert claims now).find rows result = some i → rows[i]? = some row → Resumable claims result row) :
    List.Forall₂ SameRow ((persistUpsert claims now).step rows result) ((applied claims now).step rows' result) :=
  Upsert.step_related (persistUpsert claims now) (find_same same result) (inserted_same result)
    (fun i _ _ found here alike => updated_same alike (resumable i _ found here)) same

variable {results : List TokenSuccessWithAccount}

/-- Two folds that resume every account take every result to the same place and leave the same rows. -/
theorem fold_same [LawfulHost] (same : List.Forall₂ SameRow rows rows')
    (resumes : Resumes claims now rows results) :
    (persistUpsert claims now).places rows results = (applied claims now).places rows' results ∧
      List.Forall₂ SameRow ((persistUpsert claims now).fold rows results) ((applied claims now).fold rows' results) := by
  induction results generalizing rows rows' with
  | nil => exact ⟨rfl,same⟩
  | cons result rest ih =>
    obtain ⟨here,later⟩ := resumes_cons.mp resumes
    obtain ⟨places,rows⟩ := ih (step_same same here) later
    refine ⟨?_,rows⟩
    rw [Upsert.places,Upsert.places,place_same same,places]

theorem SameRow.refl (row : AccountMetadataV3) : SameRow row row := ⟨fun _ _ _ => rfl,rfl,rfl⟩

theorem SameRow.holds (same : SameRow row row') (holds : Holds result row) :
    Holds result row' :=
  ⟨(same.field _ (by decide) (by decide)).symm.trans holds.refresh,(same.field _ (by decide) (by decide)).symm.trans holds.access,
    (same.field _ (by decide) (by decide)).symm.trans holds.expires⟩

theorem SameRow.usable (same : SameRow row row') (usable : Usable row) : Usable row' :=
  ⟨same.enabled.symm.trans usable.enabled,(same.field _ (by decide) (by decide)).symm.trans usable.valid,
    (same.field _ (by decide) (by decide)).symm.trans usable.uncoded⟩

/-! ### Emails that are none -/

/-- Lowercasing makes no at sign and takes none away. -/
def KeepsAt : Prop := ∀ text : String, (Host.toLowerCase text).toList.contains '@' = text.toList.contains '@'

theorem sanitized_at [LawfulHost] (keepsAt : KeepsAt) {sanitized : String} (clean : sanitizeEmail email = some sanitized) :
    ∃ key, normalizeEmailKey (some sanitized) = some key ∧ key.toList.contains '@' = true := by
  have same : normalizeEmailKey (sanitizeEmail email) = normalizeEmailKey email :=
    sanitized_key (fun _ => by rw [clean]; exact some_ne_none _)
  rw [clean] at same
  obtain ⟨text,rfl,rest⟩ := bind_eq_some_iff.mp clean
  obtain ⟨trimmed,solid,marked⟩ := bind_eq_some_iff.mp rest
  split at marked
  · next at_ =>
    refine ⟨Host.toLowerCase trimmed,?_,(keepsAt trimmed).trans at_⟩
    rw [same,normalizeEmailKey,bind_some,solid,map_some]
  · cases marked

theorem unsanitized_at (keepsAt : KeepsAt) (known : normalizeEmailKey email = some key)
    (dropped : sanitizeEmail email = none) : key.toList.contains '@' = false := by
  obtain ⟨trimmed,solid,rfl⟩ := map_eq_some_iff.mp known
  obtain ⟨text,rfl,rest⟩ := bind_eq_some_iff.mp solid
  rw [sanitizeEmail,bind_some,rest,bind_some] at dropped
  split at dropped
  · cases dropped
  · next unmarked => exact (keepsAt trimmed).trans (Bool.eq_false_iff.mpr unmarked)

theorem match_email [LawfulHost] (keepsAt : KeepsAt)
    (found : (applied claims now).find rows result = some i) (here : rows[i]? = some row)
    (known : normalizeEmailKey row.email = some key) (unmarked : key.toList.contains '@' = false) :
    (resolveResult claims result).accountEmail = none := by
  cases named : (resolveResult claims result).accountEmail with
  | none => rfl
  | some email =>
    obtain ⟨clean,same,marked⟩ := sanitized_at keepsAt (show sanitizeEmail _ = some email from named)
    obtain ⟨other,there,compatible⟩ := findMatchingRefIndex_compatible found
    rw [here] at there
    cases there
    have agree := conflicts_eq_false.mp compatible.2 clean key ?_ known
    · rw [agree,unmarked] at marked
      cases marked
    · show normalizeEmailKey (resolveResult claims result).accountEmail = some clean
      rw [named]
      exact same

variable {s : Upsert AccountMetadataV3 TokenSuccessWithAccount}

theorem find_of_place
    (inside : i < rows.length) (place : s.place rows result = i) : s.find rows result = some i := by
  rw [Upsert.place] at place
  cases found : s.find rows result with
  | none =>
    rw [found,getD_none] at place
    omega
  | some j =>
    rw [found,getD_some] at place
    rw [place]

theorem step_at
    (found : s.find rows result = some i) (here : rows[i]? = some row) :
    (s.step rows result)[i]? = some (s.update row result) := by
  rw [Upsert.step,found]
  exact (List.getElem?_modify_eq _ _ _).trans (congrArg (Option.map _) here)

/-- Once the plugin host has dropped an email that is none, the row stays without one, and the command line keeps it. -/
theorem emails_part [LawfulHost] (keepsAt : KeepsAt)
    (places : (persistUpsert claims now).places rows results = (applied claims now).places rows' results)
    (here : rows[i]? = some row) (here' : rows'[i]? = some row') (dropped : row.email = none)
    (known : normalizeEmailKey row'.email = some key) (unmarked : key.toList.contains '@' = false) :
    ∃ last last', ((persistUpsert claims now).fold rows results)[i]? = some last ∧ ((applied claims now).fold rows' results)[i]? = some last' ∧
      last.email = none ∧ normalizeEmailKey last'.email = some key := by
  induction results generalizing rows rows' row row' with
  | nil => exact ⟨row,row',here,here',dropped,known⟩
  | cons result rest ih =>
    rw [Upsert.places,Upsert.places] at places
    obtain ⟨place,later⟩ := List.cons.inj places
    have inside := (List.getElem?_eq_some_iff.mp here).1
    have inside' := (List.getElem?_eq_some_iff.mp here').1
    rw [Upsert.fold_cons,Upsert.fold_cons]
    by_cases goes : (applied claims now).place rows' result = i
    · have found := find_of_place inside (place.trans goes)
      have found' := find_of_place inside' goes
      have unnamed := match_email keepsAt found' here' known unmarked
      refine ih later (step_at found here) (step_at found' here') ?_ ?_
      · rw [show (persistUpsert claims now).update row result = persistUpdate claims now row result from rfl,persistUpdate_email,unnamed,dropped]
        rfl
      · rw [show (applied claims now).update row' result = buildUpdatedAccount row' (resolvedWrite claims now result) from rfl,
          buildUpdated_email,unnamed,none_or]
        exact known
    · refine ih later ?_ ?_ dropped known
      · rw [Upsert.getElem?_step _ inside (place ▸ goes)]
        exact here
      · rw [Upsert.getElem?_step _ inside' goes]
        exact here'

theorem resumes_of_same [LawfulHost] (keepsAt : KeepsAt)
    (same : List.Forall₂ SameRow rows rows')
    (places : (persistUpsert claims now).places rows results = (applied claims now).places rows' results)
    (final : List.Forall₂ SameRow ((persistUpsert claims now).fold rows results) ((applied claims now).fold rows' results))
    (usable : ∀ i ∈ (persistUpsert claims now).places rows results, ∀ row,
      ((persistUpsert claims now).fold rows results)[i]? = some row → Usable row) : Resumes claims now rows results := by
  induction results generalizing rows rows' with
  | nil =>
    intro before result after split_
    exact absurd split_ (by simp)
  | cons result rest ih =>
    have here : ∀ i row, (persistUpsert claims now).find rows result = some i → rows[i]? = some row → Resumable claims result row := by
      intro i row found there
      have goes : (persistUpsert claims now).place rows result = i := by
        rw [Upsert.place,found,getD_some]
      refine ⟨?_,?_⟩
      · by_contra unusable
        have keeps : ∀ row result, ¬ Usable row → ¬ Usable ((persistUpsert claims now).update row result) :=
          fun row result => mt (persistUpdate_usable claims now row result).mp
        obtain ⟨later,last,still⟩ : ∃ later, ((persistUpsert claims now).fold rows (result :: rest))[i]? = some later ∧ ¬ Usable later :=
          (persistUpsert claims now).fold_keeps keeps there unusable
        refine still (usable i ?_ later last)
        rw [Upsert.places,goes]
        exact mem_cons_self
      · intro unnamed keyed dropped
        obtain ⟨key,known⟩ := ne_none_iff_exists'.mp keyed
        obtain ⟨row',there',alike⟩ : ∃ row', rows'[i]? = some row' ∧ SameRow row row' := by
          obtain ⟨lengths,each⟩ := forall₂_iff_get.mp same
          obtain ⟨inside,rfl⟩ := List.getElem?_eq_some_iff.mp there
          exact ⟨rows'[i],List.getElem?_eq_getElem (lengths ▸ inside),each i inside (lengths ▸ inside)⟩
        rw [Upsert.places,Upsert.places] at places
        obtain ⟨_,later⟩ := List.cons.inj places
        have found' := (find_same same result).symm.trans found
        obtain ⟨last,last',atLast,atLast',none_,some_⟩ := emails_part keepsAt later (step_at found there) (step_at found' there')
          (by rw [show (persistUpsert claims now).update row result = persistUpdate claims now row result from rfl,persistUpdate_email,unnamed,dropped]; rfl)
          (by rw [show (applied claims now).update row' result = buildUpdatedAccount row' (resolvedWrite claims now result) from rfl,
                buildUpdated_email,unnamed,none_or]; exact alike.email.symm.trans known)
          (unsanitized_at keepsAt known dropped)
        rw [Upsert.fold_cons,Upsert.fold_cons] at final
        obtain ⟨lengths,each⟩ := forall₂_iff_get.mp final
        obtain ⟨inside,rfl⟩ := List.getElem?_eq_some_iff.mp atLast
        obtain ⟨inside',rfl⟩ := List.getElem?_eq_some_iff.mp atLast'
        have keys := (each i inside inside').email
        simp only [get_eq_getElem] at keys
        rw [show AccountMetadataV3.email _ = none from none_,some_] at keys
        cases keys
    rw [Upsert.places,Upsert.places] at places
    obtain ⟨place,later⟩ := List.cons.inj places
    refine resumes_cons.mpr ⟨here,ih (step_same same here) later final ?_⟩
    intro i member row last
    refine usable i ?_ row last
    rw [Upsert.places]
    exact mem_cons_of_mem _ member

/-! ### What is written -/

def storedRows (loaded : Option AccountStorageV3) : List AccountMetadataV3 := (loaded.map AccountStorageV3.accounts).getD []

def persistedRows (claims : Claims) (now : ℚ) (modelFamilies : List ModelFamily) (loaded : Option AccountStorageV3)
    (results : List TokenSuccessWithAccount) : List AccountMetadataV3 :=
  ((persistAccountPoolResults claims now false modelFamilies loaded results).map AccountStorageV3.accounts).getD (storedRows loaded)

def writtenRows (claims : Claims) (now : ℚ) (loaded : Option AccountStorageV3) (results : List TokenSuccessWithAccount) : List AccountMetadataV3 :=
  (applyAccountPoolResults (storedRows loaded) (results.map (resolvedWrite claims now)) (loaded.map AccountStorageV3.activeIndex)).accounts

theorem persistedRows_eq (modelFamilies : List ModelFamily) (loaded : Option AccountStorageV3) (results : List TokenSuccessWithAccount) :
    persistedRows claims now modelFamilies loaded results = (persistUpsert claims now).fold (storedRows loaded) results := by
  rw [persistedRows,persistAccountPoolResults]
  cases results with
  | nil => rfl
  | cons result rest =>
    simp only [isEmpty_cons,Bool.false_eq_true,if_false]
    split
    · next none_ =>
      have short := (persistUpsert claims now).length_fold (storedRows loaded) (result :: rest)
      have empty : (persistUpsert claims now).fold (storedRows loaded) (result :: rest) = [] := isEmpty_iff.mp none_
      rw [empty] at short ⊢
      exact length_eq_zero_iff.mp (Nat.le_zero.mp short)
    · rfl

theorem applyWrite_accounts (pool : PoolWrite) (write : ResolvedAccountWrite) : (applyWrite pool write).accounts = applyUpsert.step pool.accounts write := by
  rw [applyWrite,Upsert.step]
  cases found : applyUpsert.find pool.accounts write with
  | none => rfl
  | some i =>
    have inside : i < pool.accounts.length := findMatchingAccountIndex_lt found
    have here := List.getElem?_eq_getElem inside
    dsimp only
    rw [here]
    exact (modify_eq_set here (fun row => buildUpdatedAccount row write)).symm

theorem writtenRows_eq (loaded : Option AccountStorageV3) (results : List TokenSuccessWithAccount) :
    writtenRows claims now loaded results = (applied claims now).fold (storedRows loaded) results := by
  have folded : ∀ (writes : List ResolvedAccountWrite) (pool : PoolWrite), (writes.foldl applyWrite pool).accounts = applyUpsert.fold pool.accounts writes := by
    intro writes
    induction writes with
    | nil => exact fun _ => rfl
    | cons write rest ih =>
      intro pool
      rw [foldl_cons,ih,applyWrite_accounts,Upsert.fold_cons]
  rw [writtenRows,applyAccountPoolResults,folded,Upsert.fold_map]
  rfl

/-- What a login promises of the rows that both folds leave. -/
structure FoldedAlike (claims : Claims) (now : ℚ) (stored : List AccountMetadataV3) (results : List TokenSuccessWithAccount)
    (persisted written : List AccountMetadataV3) : Prop where
  /-- Each result goes to the same row, or to the same new one. -/
  places : (persistUpsert claims now).places stored results = (applied claims now).places stored results
  rows : List.Forall₂ SameRow persisted written
  others : ∀ i < stored.length, i ∉ (persistUpsert claims now).places stored results → persisted[i]? = stored[i]? ∧ written[i]? = stored[i]?
  /-- The last result that goes to a row logs it in. -/
  loggedIn : ∀ before result after, results = before ++ result :: after → ∀ i,
    (persistUpsert claims now).place ((persistUpsert claims now).fold stored before) result = i →
    i ∉ (persistUpsert claims now).places ((persistUpsert claims now).step ((persistUpsert claims now).fold stored before) result) after →
    ∀ row, persisted[i]? = some row ∨ written[i]? = some row → Holds result row ∧ Usable row

theorem exists_last (member : i ∈ s.places rows results) : ∃ before result after, results = before ++ result :: after ∧
      s.place (s.fold rows before) result = i ∧ i ∉ s.places (s.step (s.fold rows before) result) after := by
  induction results generalizing rows with
  | nil => exact absurd member not_mem_nil
  | cons result rest ih =>
    by_cases later : i ∈ s.places (s.step rows result) rest
    · obtain ⟨before,next,after,rfl,place,last⟩ := ih later
      exact ⟨result :: before,next,after,rfl,place,last⟩
    · rw [Upsert.places] at member
      exact ⟨[],result,rest,rfl,((mem_cons.mp member).resolve_right later).symm,later⟩

theorem folded_of_resumes [LawfulHost] {stored : List AccountMetadataV3}
    (resumes : Resumes claims now stored results) :
    FoldedAlike claims now stored results ((persistUpsert claims now).fold stored results) ((applied claims now).fold stored results) := by
  obtain ⟨places,rows⟩ := fold_same (forall₂_same.mpr (fun row _ => SameRow.refl row)) resumes
  have loggedIn : ∀ before result after, results = before ++ result :: after → ∀ i,
      (persistUpsert claims now).place ((persistUpsert claims now).fold stored before) result = i →
      i ∉ (persistUpsert claims now).places ((persistUpsert claims now).step ((persistUpsert claims now).fold stored before) result) after →
      ∀ row, ((persistUpsert claims now).fold stored results)[i]? = some row → Holds result row ∧ Usable row := by
    rintro before result after rfl i rfl last row here
    rw [Upsert.getElem?_last _ (fun i found => persist_find_lt i found) last] at here
    rcases Upsert.getElem?_place _ here with rfl | ⟨i,old,found,there,rfl⟩
    · exact ⟨persistInsert_holds claims now result,persistInsert_usable claims now result⟩
    · refine ⟨persistUpdate_holds claims now old result,(persistUpdate_usable claims now old result).mpr ?_⟩
      exact (resumes before result after rfl i old found there).usable
  refine ⟨places,rows,?_,?_⟩
  · intro i inside other
    exact ⟨Upsert.getElem?_fold _ inside other,Upsert.getElem?_fold _ inside (places ▸ other)⟩
  · intro before result after split_ i place last row here
    rcases here with persisted | written
    · exact loggedIn before result after split_ i place last row persisted
    · obtain ⟨lengths,each⟩ := forall₂_iff_get.mp rows
      obtain ⟨inside,rfl⟩ := List.getElem?_eq_some_iff.mp written
      have alike := each i (lengths ▸ inside) inside
      obtain ⟨holds,usable⟩ := loggedIn before result after split_ i place last _ (List.getElem?_eq_getElem (lengths ▸ inside))
      exact ⟨alike.holds holds,alike.usable usable⟩

/-- Both folds do the same, and each account that logged in has its last tokens and is
    usable, exactly when no result goes to a row that is disabled or invalidated, and no
    result without an email to a row whose email is none. -/
theorem folded_alike_iff [LawfulHost] (keepsAt : KeepsAt) (claims : Claims) (now : ℚ) (modelFamilies : List ModelFamily)
    (loaded : Option AccountStorageV3) (results : List TokenSuccessWithAccount) :
    FoldedAlike claims now (storedRows loaded) results (persistedRows claims now modelFamilies loaded results) (writtenRows claims now loaded results) ↔
      Resumes claims now (storedRows loaded) results := by
  rw [persistedRows_eq,writtenRows_eq]
  constructor
  · intro alike
    refine resumes_of_same keepsAt (forall₂_same.mpr (fun row _ => SameRow.refl row)) alike.places alike.rows ?_
    intro i member row here
    obtain ⟨before,result,after,split_,place,last⟩ := exists_last member
    exact (alike.loggedIn before result after split_ i place last row (Or.inl here)).2
  · exact folded_of_resumes

end

section
attribute [local instance] asciiHost

theorem asciiHost_keepsAt : KeepsAt := by
  have lowered : ∀ c : Char, (c.toLower == '@') = (c == '@') := by
    intro c
    delta Char.toLower
    split
    · next upper =>
      have least : 65 ≤ c.toNat := UInt32.le_iff_toNat_le.mp upper.1
      have most : c.toNat ≤ 90 := UInt32.le_iff_toNat_le.mp upper.2
      have shifted : (c.val + ('a'.val - 'A'.val)).toNat = (c.toNat + 32) % 4294967296 := UInt32.toNat_add c.val ('a'.val - 'A'.val)
      rw [beq_eq_false_iff_ne.mpr,beq_eq_false_iff_ne.mpr]
      · rintro rfl
        exact absurd least (by decide)
      · intro same
        have value := congrArg (fun d : Char => d.val.toNat) same
        dsimp only at value
        rw [shifted] at value
        have sign : ('@' : Char).val.toNat = 64 := rfl
        omega
    · rfl
  intro text
  show (String.ofList (text.toList.map Char.toLower)).toList.contains '@' = text.toList.contains '@'
  rw [String.toList_ofList]
  induction text.toList with
  | nil => rfl
  | cons c rest ih => rw [map_cons,contains_cons,contains_cons,ih,Bool.beq_comm,lowered,Bool.beq_comm]

def noClaims : Claims := ⟨fun _ => none,fun _ _ => none⟩

def storedAccount (enabled : Bool) : AccountMetadataV3 := [("accountId",.str "a"),("refreshToken",.str "r"),("enabled",.bool enabled)]

def storedPool (enabled : Bool) : AccountStorageV3 := ⟨[storedAccount enabled],0,none,none,none,[]⟩

def loginResult : TokenSuccessWithAccount := { access := "n",refresh := "s",expires := 1,accountIdOverride := some "a" }

theorem only_result {before after : List TokenSuccessWithAccount} {result : TokenSuccessWithAccount}
    (split_ : [loginResult] = before ++ result :: after) : before = [] ∧ result = loginResult ∧ after = [] := by
  cases before with
  | nil =>
    obtain ⟨same,rest⟩ := List.cons.inj split_
    exact ⟨rfl,same.symm,rest.symm⟩
  | cons first rest => exact absurd (congrArg List.length split_) (by simp)

/-- The account is enabled, and both logins do the same. -/
theorem folded_alike_enabled : FoldedAlike noClaims 0 (storedRows (some (storedPool true))) [loginResult]
    (persistedRows noClaims 0 MODEL_FAMILIES (some (storedPool true)) [loginResult])
    (writtenRows noClaims 0 (some (storedPool true)) [loginResult]) := by
  have := asciiHost_lawful
  refine (folded_alike_iff asciiHost_keepsAt noClaims 0 MODEL_FAMILIES (some (storedPool true)) [loginResult]).mpr ?_
  intro before result after split_ i row found here
  obtain ⟨rfl,rfl,rfl⟩ := only_result split_
  have first : (persistUpsert noClaims 0).find [storedAccount true] loginResult = some 0 := by decide
  cases first.symm.trans found
  cases here
  exact ⟨⟨by decide,by decide,by decide⟩,by decide⟩

/-- The account is disabled, and the plugin host's login leaves it so. -/
theorem disabled_account_stays :
    ¬ FoldedAlike noClaims 0 (storedRows (some (storedPool false))) [loginResult]
      (persistedRows noClaims 0 MODEL_FAMILIES (some (storedPool false)) [loginResult])
      (writtenRows noClaims 0 (some (storedPool false)) [loginResult]) := by
  intro alike
  have place : (persistUpsert noClaims 0).place [storedAccount false] loginResult = 0 := by decide
  have written : ((persistedRows noClaims 0 MODEL_FAMILIES (some (storedPool false)) [loginResult])[0]?).map enabledOf = some (.bool false) := by decide
  obtain ⟨row,here,disabled⟩ := map_eq_some_iff.mp written
  have usable := (alike.loggedIn [] loginResult [] rfl 0 place not_mem_nil row (Or.inl here)).2
  rw [usable.enabled] at disabled
  cases disabled

end

end CodexMultiAuth.LoginResults
