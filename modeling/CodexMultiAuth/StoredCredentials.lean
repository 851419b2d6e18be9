import CodexMultiAuth.StoredDocuments

/-!
Whichever processes load, save and commit, the disk's row of an account keeps the
last credential that was committed for it, as long as each lookup finds the
account's own row.
-/
namespace CodexMultiAuth
open List
set_option linter.unusedSectionVars false

theorem updateFirst_eq_map {key : AccountMetadataV3 → String} {rows : List AccountMetadataV3} (distinct : (rows.map key).Nodup) (id : String)
    (update : AccountMetadataV3 → AccountMetadataV3) :
    updateFirst (fun row => decide (key row = id)) update rows = rows.map (fun row => if key row = id then update row else row) := by
  induction rows with
  | nil => rfl
  | cons row rest ih =>
    rw [map_cons,nodup_cons] at distinct
    rw [map_cons]
    unfold updateFirst
    by_cases here : key row = id
    · have others : rest.map (fun row => if key row = id then update row else row) = rest := by
        refine (map_congr_left (fun other member => ?_)).trans (map_id rest)
        rw [if_neg]
        · rfl
        · intro same
          exact distinct.1 (mem_map.mpr ⟨other,member,same.trans here.symm⟩)
      simp [here,others]
    · simp [here,ih distinct.2]

section
variable [Host]
variable (auth : OAuthAuthDetails)
variable (row : AccountMetadataV3)

theorem sameBut_named {row identified : AccountMetadataV3} (same : SameBut refreshedKeys row identified) {email : Option String} :
    SameBut refreshedKeys row (match email with
      | some email => identified.put "email" (.str email)
      | none => identified) := by
  cases email with
  | none => exact same
  | some email => exact same.trans (sameBut_put (by simp [refreshedKeys]) _ _)

theorem updateFromAuth_sameBut :
    SameBut refreshedKeys row (updateFromAuth auth row) := by
  have put : ∀ key ∈ refreshedKeys, ∀ (row : AccountMetadataV3) value, SameBut refreshedKeys row (row.put key value) :=
    fun key member row value => sameBut_put member row value
  have remove : ∀ key ∈ refreshedKeys, ∀ row : AccountMetadataV3, SameBut refreshedKeys row (row.remove key) :=
    fun key member row => sameBut_remove member row
  have credential : SameBut refreshedKeys row (((row.put "refreshToken" (.str auth.refresh)).put "accessToken" (.str auth.access)).put
      "expiresAt" (.num auth.expires)) :=
    ((put "refreshToken" (by simp [refreshedKeys]) _ _).trans (put "accessToken" (by simp [refreshedKeys]) _ _)).trans
      (put "expiresAt" (by simp [refreshedKeys]) _ _)
  unfold updateFromAuth
  refine SameBut.trans ?_ (((remove "enabled" (by simp [refreshedKeys]) _).trans (remove "authInvalidatedAt" (by simp [refreshedKeys]) _)).trans
    (remove "authInvalidationErrorCode" (by simp [refreshedKeys]) _))
  refine sameBut_named ?_
  split
  · split
    · exact (credential.trans (put "accountId" (by simp [refreshedKeys]) _ _)).trans (put "accountIdSource" (by simp [refreshedKeys]) _ _)
    · exact credential
  · exact credential

theorem find_updateFromAuth {k : String} (among : k ∈ ["accountId","email"]) :
    (updateFromAuth auth row).find k =
      if k = "email" then (auth.email.map Json.str).or (row.find k)
      else if shouldUpdateAccountIdFromToken row then (auth.accountId.map Json.str).or (row.find k) else row.find k := by
  simp only [mem_cons,not_mem_nil,or_false] at among
  unfold updateFromAuth
  rcases among with rfl | rfl <;> cases auth.email <;> cases auth.accountId <;> cases shouldUpdateAccountIdFromToken row <;> simp

theorem updateFromAuth_credential :
    credential (updateFromAuth auth row) = auth.credential := by
  unfold updateFromAuth credential OAuthAuthDetails.credential
  cases auth.email <;> cases auth.accountId <;> cases shouldUpdateAccountIdFromToken row <;> simp

theorem updateFromAuth_recordId :
    (updateFromAuth auth row).find "recordId" = row.find "recordId" :=
  updateFromAuth_sameBut auth row "recordId" (by simp [refreshedKeys])

theorem updateFromAuth_parts {row other : AccountMetadataV3} (accountId : row.find "accountId" = other.find "accountId")
    (source : row.find "accountIdSource" = other.find "accountIdSource") (email : row.find "email" = other.find "email") :
    identityParts (updateFromAuth auth row) = identityParts (updateFromAuth auth other) := by
  have may : shouldUpdateAccountIdFromToken row = shouldUpdateAccountIdFromToken other := by
    rw [shouldUpdateAccountIdFromToken,shouldUpdateAccountIdFromToken,AccountMetadataV3.accountId,AccountMetadataV3.accountId,Record.text,
      Record.text,Record.text,Record.text,accountId,source]
  refine identityParts_congr ?_ ?_
  · rw [find_updateFromAuth auth row (by simp),find_updateFromAuth auth other (by simp),may,accountId]
  · rw [find_updateFromAuth auth row (by simp),find_updateFromAuth auth other (by simp),email]
    simp

/-! ### What a commit proposes -/

/-- The account's row in the pool, as far as a commit needs to know it. -/
structure Refreshed (auth : OAuthAuthDetails) (row after : AccountMetadataV3) : Prop where
  recordId : after.find "recordId" = row.find "recordId"
  credential : credential after = auth.credential
  parts : identityParts after = identityParts (updateFromAuth auth row)

variable {auth : OAuthAuthDetails}

theorem refreshed_of_sameBut {row after : AccountMetadataV3}
    (same : SameBut cooldownKeys (updateFromAuth auth row) after) : Refreshed auth row after := by
  have settled := settled_of_sameBut same
  exact ⟨settled.recordId.trans (updateFromAuth_recordId auth row),settled.credential.trans (updateFromAuth_credential auth row),settled.parts⟩

theorem refreshed_reconciled {current : AccountStorageV3} {row stored : AccountMetadataV3}
    (same : SameBut cooldownKeys (updateFromAuth auth (reconciled current row)) stored) : Refreshed auth row stored := by
  have taken := reconciled_sameBut current row
  obtain ⟨recordId,credential,parts⟩ := refreshed_of_sameBut same
  refine ⟨recordId.trans (taken "recordId" (by simp [reconciledKeys])),credential,parts.trans ?_⟩
  exact updateFromAuth_parts auth (taken "accountId" (by simp [reconciledKeys])) (taken "accountIdSource" (by simp [reconciledKeys]))
    (taken "email" (by simp [reconciledKeys]))

theorem resolve_ofAccount (account : String) (row : AccountMetadataV3) {f g : AccountMetadataV3 → AccountMetadataV3}
    (own : resolveAccountRecordId row = account → resolveAccountRecordId (f row) = account)
    (other : resolveAccountRecordId (g row) = resolveAccountRecordId row) :
    resolveAccountRecordId (if resolveAccountRecordId row = account then f row else g row) = resolveAccountRecordId row := by
  split
  · next here => exact (own here).trans here.symm
  · exact other

theorem map_ofAccount_ids (account : String) (rows : List AccountMetadataV3) {f g : AccountMetadataV3 → AccountMetadataV3}
    (own : ∀ row ∈ rows, resolveAccountRecordId row = account → resolveAccountRecordId (f row) = account)
    (other : ∀ row ∈ rows, resolveAccountRecordId (g row) = resolveAccountRecordId row) :
    (rows.map (fun row => if resolveAccountRecordId row = account then f row else g row)).map resolveAccountRecordId =
      rows.map resolveAccountRecordId := by
  rw [map_map]
  exact map_congr_left (fun row among => resolve_ofAccount account row (own row among) (other row among))

/-- What a commit proposes, and what becomes of the pool: the account's own rows
    are refreshed, and no others. -/
structure CommitRows (current synced next live : AccountStorageV3) (account : String) (auth : OAuthAuthDetails)
    (row stored : AccountMetadataV3) (refreshLive : AccountMetadataV3 → AccountMetadataV3) : Prop where
  member : row ∈ synced.accounts
  own : resolveAccountRecordId row = account
  toStored : Refreshed auth row stored
  toLive : Refreshed auth row (refreshLive row)
  limits : stored.find "rateLimitResetTimes" = row.find "rateLimitResetTimes"
  proposal : next.accounts = synced.accounts.map (fun other =>
    if resolveAccountRecordId other = account then stored else reconciled current other)
  pool : live.accounts = synced.accounts.map (fun other => if resolveAccountRecordId other = account then refreshLive other else other)

variable {account : String}

theorem refreshSnapshot_rows {now : ℚ} {synced current next live : AccountStorageV3} {source : AccountLike}
    {stored : AccountMetadataV3} (distinct : (synced.accounts.map resolveAccountRecordId).Nodup)
    (named : ∀ row ∈ synced.accounts, Named row) (commits : CommitsOwn synced current account source auth)
    (done : refreshSnapshot now synced (some current) source auth = some (next,stored,live)) :
    ∃ row refreshLive, CommitRows current synced next live account auth row stored refreshLive := by
  obtain ⟨i,resolved,done⟩ := Option.bind_eq_some_iff.mp done
  obtain ⟨storedAccount,here,done⟩ := Option.map_eq_some_iff.mp done
  obtain ⟨in_next,in_live⟩ := commits
  rw [resolved,Option.bind_some,here,Option.map_some,Option.some.injEq] at in_next
  rw [reconcileTokensFromDisk_accounts,List.getElem?_map] at here
  obtain ⟨row,at_i,rfl⟩ := Option.map_eq_some_iff.mp here
  have member := mem_of_getElem? at_i
  have own : resolveAccountRecordId row = account := (reconciled_named current (named row member)).1.symm.trans in_next
  obtain ⟨owner,found,owns⟩ := Option.map_eq_some_iff.mp in_live
  obtain ⟨j,liveIndex,at_j⟩ := Option.bind_eq_some_iff.mp found
  simp only [liveIndex,at_j,Option.bind_some,Prod.mk.injEq] at done
  obtain ⟨rfl,rfl,rfl⟩ := done
  refine ⟨row,fun other =>
    if ((some owner).filter (preservesCooldown now)).isSome then updateFromAuth auth other
    else withCooldown (updateFromAuth auth other) (none,none),member,own,refreshed_reconciled (withCooldown_sameBut _ _),?_,?_,?_,?_⟩
  · refine refreshed_of_sameBut ?_
    split
    · exact SameBut.refl _ _
    · exact withCooldown_sameBut _ _
  · calc
      _ = (updateFromAuth auth (reconciled current row)).find "rateLimitResetTimes" :=
        withCooldown_sameBut _ _ "rateLimitResetTimes" (by simp [cooldownKeys])
      _ = (reconciled current row).find "rateLimitResetTimes" := updateFromAuth_sameBut _ _ "rateLimitResetTimes" (by simp [refreshedKeys])
      _ = row.find "rateLimitResetTimes" := reconciled_sameBut _ _ "rateLimitResetTimes" (by simp [reconciledKeys])
  · rw [reconcileTokensFromDisk_accounts,← own]
    exact set_eq_map resolveAccountRecordId distinct at_i (reconciled current) (fun _ => _)
  · rw [← owns]
    exact modify_eq_map resolveAccountRecordId distinct at_j _

section
variable {current base synced next live : AccountStorageV3} {account : String} {auth : OAuthAuthDetails} {row stored : AccountMetadataV3}
  {refreshLive : AccountMetadataV3 → AccountMetadataV3}

section
variable (commit : CommitRows current synced next live account auth row stored refreshLive)
include commit

theorem CommitRows.only
    (distinct : (synced.accounts.map resolveAccountRecordId).Nodup) {other : AccountMetadataV3} (member : other ∈ synced.accounts)
    (same : resolveAccountRecordId other = account) : other = row :=
  inj_on_of_nodup_map distinct member commit.member (same.trans commit.own.symm)

theorem CommitRows.named_stored (named : Named row) :
    resolveAccountRecordId stored = account ∧ Named stored := by
  obtain ⟨same,named_after⟩ := named.of_find commit.toStored.recordId
  exact ⟨same.trans commit.own,named_after⟩

theorem CommitRows.named_live (named : Named row) :
    resolveAccountRecordId (refreshLive row) = account ∧ Named (refreshLive row) := by
  obtain ⟨same,named_after⟩ := named.of_find commit.toLive.recordId
  exact ⟨same.trans commit.own,named_after⟩

end

section
variable (commit : CommitRows current synced next live account auth row stored refreshLive)
  (distinct : (synced.accounts.map resolveAccountRecordId).Nodup) (named : ∀ row ∈ synced.accounts, Named row)
include commit distinct named

theorem CommitRows.pool_row {after : AccountMetadataV3} (inLive : after ∈ live.accounts) :
    ∃ before ∈ synced.accounts, resolveAccountRecordId after = resolveAccountRecordId before ∧ Named after ∧
      after = if resolveAccountRecordId before = account then refreshLive before else before := by
  rw [commit.pool] at inLive
  obtain ⟨before,member,rfl⟩ := mem_map.mp inLive
  refine ⟨before,member,?_,?_,rfl⟩
  · refine resolve_ofAccount account before (g := fun row => row) (fun same => ?_) rfl
    rw [commit.only distinct member same]
    exact (commit.named_live (named row commit.member)).1
  · split
    · next same =>
      rw [commit.only distinct member same]
      exact (commit.named_live (named row commit.member)).2
    · exact named before member

theorem CommitRows.proposed_row {proposed : AccountMetadataV3} (inNext : proposed ∈ next.accounts) :
    ∃ before ∈ synced.accounts, resolveAccountRecordId proposed = resolveAccountRecordId before ∧
      proposed = if resolveAccountRecordId before = account then stored else reconciled current before := by
  rw [commit.proposal] at inNext
  obtain ⟨before,member,rfl⟩ := mem_map.mp inNext
  refine ⟨before,member,?_,rfl⟩
  exact resolve_ofAccount account before (f := fun _ => stored) (g := reconciled current)
    (fun _ => (commit.named_stored (named row commit.member)).1) (reconciled_named current (named before member)).1

theorem CommitRows.pool_ids : live.accounts.map resolveAccountRecordId = synced.accounts.map resolveAccountRecordId := by
  rw [commit.pool]
  refine map_ofAccount_ids account synced.accounts (g := fun row => row) (fun other member same => ?_) (fun _ _ => rfl)
  rw [commit.only distinct member same]
  exact (commit.named_live (named row commit.member)).1

theorem CommitRows.proposal_ids : next.accounts.map resolveAccountRecordId = synced.accounts.map resolveAccountRecordId := by
  rw [commit.proposal]
  exact map_ofAccount_ids account synced.accounts (g := reconciled current)
    (fun _ _ _ => (commit.named_stored (named row commit.member)).1) (fun other member => (reconciled_named current (named other member)).1)
end
end

/-! ### A rescued credential -/

theorem withAuthFields_settled (refreshed row : AccountMetadataV3) : Settled refreshed (withAuthFields refreshed row) := by
  intro k member
  rw [find_withAuthFields,if_pos]
  simp only [settledKeys,mem_cons,not_mem_nil,or_false] at member
  rcases member with rfl | rfl | rfl | rfl | rfl | rfl | rfl <;> simp [authFields]

theorem rescueAuth_rows {baseline current merged rescuedBaseline : AccountStorageV3} {refreshed : AccountMetadataV3}
    (named : Named refreshed) (own : resolveAccountRecordId refreshed = account)
    (inBase : (baseline.accounts.map resolveAccountRecordId).Nodup) (onDisk : (current.accounts.map resolveAccountRecordId).Nodup)
    (done : rescueAuth baseline current refreshed = some (merged,rescuedBaseline)) :
    ∃ cooldown, merged.accounts = current.accounts.map (fun row =>
        if resolveAccountRecordId row = account then withCooldown (withAuthFields refreshed row) cooldown else row) ∧
      rescuedBaseline.accounts = baseline.accounts.map (fun row =>
        if resolveAccountRecordId row = account then withAuthFields refreshed row else row) := by
  have carried : refreshed.recordId = some account := by
    rw [AccountMetadataV3.recordId,Record.text,named.carries,own]
    rfl
  have matching : (fun row => decide (some (resolveAccountRecordId row) = refreshed.recordId)) =
      fun row => decide (resolveAccountRecordId row = account) := by
    funext row
    rw [carried]
    simp
  simp only [rescueAuth,matching] at done
  split at done
  · split at done
    · cases done
    · obtain ⟨rfl,rfl⟩ := Prod.mk.inj (Option.some.inj done)
      exact ⟨_,updateFirst_eq_map onDisk account _,updateFirst_eq_map inBase account _⟩
  · cases done

theorem Fits.rescued {disk base live : List AccountMetadataV3} (fits : Fits disk base live)
    {row stored : AccountMetadataV3} (member : row ∈ live) (own : resolveAccountRecordId row = account)
    (refreshed : Refreshed auth row stored) (toDisk toBase toLive : AccountMetadataV3 → AccountMetadataV3)
    (onDisk : ∀ d, Settled stored (toDisk d)) (inBase : ∀ b, Settled stored (toBase b)) (inLive : Refreshed auth row (toLive row))
    (distinct : (disk.map resolveAccountRecordId).Nodup)
    (later : ∀ d ∈ disk, resolveAccountRecordId d = account → expiry d < auth.credential.expires) :
    List.Forall₂ (fun d merged => Advanced d merged ∧
        credential merged = if resolveAccountRecordId d = account then auth.credential else credential d)
      disk (disk.map (fun d => if resolveAccountRecordId d = account then toDisk d else d)) ∧
    Fits (disk.map (fun d => if resolveAccountRecordId d = account then toDisk d else d))
      (base.map (fun b => if resolveAccountRecordId b = account then toBase b else b))
      (live.map (fun l => if resolveAccountRecordId l = account then toLive l else l)) := by
  have named := fits.named row member
  obtain ⟨stored_id,named_stored⟩ := named.of_find refreshed.recordId
  have replaced : ∀ after, Settled stored after → resolveAccountRecordId after = account ∧ Named after := by
    intro after settled
    obtain ⟨same,named_after⟩ := named_stored.of_find settled.recordId
    exact ⟨same.trans (stored_id.trans own),named_after⟩
  have only : ∀ l ∈ live, resolveAccountRecordId l = account → l = row :=
    fun l among same => inj_on_of_nodup_map (fits.liveIds ▸ distinct) among member (same.trans own.symm)
  have live_id := named.of_find inLive.recordId
  have refreshed_id : ∀ l ∈ live, resolveAccountRecordId l = account → resolveAccountRecordId (toLive l) = account := by
    intro l among same
    rw [only l among same]
    exact live_id.1.trans own
  have disk_ids := map_ofAccount_ids account disk (g := fun d => d)
    (fun d _ _ => (replaced _ (onDisk d)).1) (fun _ _ => rfl)
  have base_ids := map_ofAccount_ids account base (g := fun b => b)
    (fun b _ _ => (replaced _ (inBase b)).1) (fun _ _ => rfl)
  have live_ids := map_ofAccount_ids account live (g := fun l => l) refreshed_id (fun _ _ => rfl)
  refine ⟨forall₂_map_right_iff.mpr (forall₂_same.mpr ?_),(base_ids.trans fits.baseIds).trans disk_ids.symm,
    (live_ids.trans fits.liveIds).trans disk_ids.symm,?_,?_⟩
  · intro d among
    split
    · next here =>
      obtain ⟨same,named_after⟩ := replaced _ (onDisk d)
      have taken : credential (toDisk d) = auth.credential := (onDisk d).credential.trans refreshed.credential
      have raised : expiry d < expiry (toDisk d) := by
        rw [expiry,expiry,taken]
        exact later d among here
      exact ⟨⟨same.trans here.symm,.inl named_after.carries,le_of_lt raised,fun still => absurd still (ne_of_lt raised)⟩,taken⟩
    · exact ⟨Advanced.refl d,rfl⟩
  · intro l among
    obtain ⟨before,inside,rfl⟩ := mem_map.mp among
    split
    · next here =>
      rw [only before inside here]
      exact live_id.2
    · exact fits.named before inside
  · intro d' inDisk b' inBase' l' inLive' same_base same_live
    obtain ⟨d,among,rfl⟩ := mem_map.mp inDisk
    obtain ⟨b,among_base,rfl⟩ := mem_map.mp inBase'
    obtain ⟨l,among_live,rfl⟩ := mem_map.mp inLive'
    have disk_id := resolve_ofAccount account d (g := fun d => d) (fun _ => (replaced _ (onDisk d)).1) rfl
    have base_id := resolve_ofAccount account b (g := fun b => b) (fun _ => (replaced _ (inBase b)).1) rfl
    have after_id := resolve_ofAccount account l (g := fun l => l) (refreshed_id l among_live) rfl
    rw [disk_id] at same_base same_live
    rw [base_id] at same_base
    rw [after_id] at same_live
    by_cases here : resolveAccountRecordId d = account
    · rw [if_pos here,if_pos (same_base.trans here),if_pos (same_live.trans here),only l among_live (same_live.trans here)]
      refine Held.of_same (.inl (replaced _ (onDisk d)).2.carries) ?_ ?_ ?_
      · rw [(inBase b).parts,refreshed.parts,inLive.parts]
      · rw [(inBase b).credential,(onDisk d).credential]
      · rw [(inBase b).credential,inLive.credential,refreshed.credential]
    · rw [if_neg here,if_neg (fun same => here (same_base.symm.trans same)),if_neg (fun same => here (same_live.symm.trans same))]
      exact fits.held d among b among_base l among_live same_base same_live

/-- The credentials of the file once one account has another one. -/
def committedTo (account : String) (auth : OAuthAuthDetails) (disk : AccountMetadataV3) : Credential :=
  if resolveAccountRecordId disk = account then auth.credential else credential disk

section
variable {base synced current next live result : AccountStorageV3} {account : String} {auth : OAuthAuthDetails} {row stored : AccountMetadataV3}
  {refreshLive : AccountMetadataV3 → AccountMetadataV3}

/-- The process has the file's credential of the account, which expires before the new one. -/
def Fresh (account : String) (auth : OAuthAuthDetails) (disk live : List AccountMetadataV3) : Prop :=
  ∀ d ∈ disk, ∀ l ∈ live, resolveAccountRecordId d = account → resolveAccountRecordId l = account →
    credential l = credential d ∧ expiry l < auth.credential.expires

theorem CommitRows.merged (commit : CommitRows current synced next live account auth row stored refreshLive)
    (fits : Fits current.accounts base.accounts synced.accounts) (distinct : (current.accounts.map resolveAccountRecordId).Nodup)
    (own : OwnKeys synced current) (fresh : Fresh account auth current.accounts synced.accounts) (identified : Identified base current next)
    (done : mergeDocuments base current next = .ok result) :
    List.Forall₂ (fun disk merged => Advanced disk merged ∧ credential merged = committedTo account auth disk)
        current.accounts result.accounts ∧ Fits result.accounts next.accounts live.accounts := by
  have inPool : (synced.accounts.map resolveAccountRecordId).Nodup := fits.liveIds ▸ distinct
  have live_named : ∀ l ∈ live.accounts, Named l := by
    intro l member
    obtain ⟨-,-,-,named,-⟩ := commit.pool_row inPool fits.named member
    exact named
  refine fits.merged done identified ((commit.proposal_ids inPool fits.named).trans fits.liveIds)
    ((commit.pool_ids inPool fits.named).trans fits.liveIds) live_named distinct (committedTo account auth) ?_
  intro disk onDisk b inBase p inNext l inLive base_id proposed_id live_id merged merge
  obtain ⟨r,among,same_proposed,rfl⟩ := commit.proposed_row inPool fits.named inNext
  obtain ⟨before,member,same_live,-,rfl⟩ := commit.pool_row inPool fits.named inLive
  rw [same_proposed] at proposed_id
  rw [same_live] at live_id
  have same : before = r := inj_on_of_nodup_map inPool member among (live_id.trans proposed_id.symm)
  subst same
  have held := fits.held disk onDisk b inBase before member base_id live_id
  by_cases here : resolveAccountRecordId disk = account
  · have its := live_id.trans here
    obtain rfl := commit.only inPool member its
    rw [if_pos its] at merge ⊢
    rw [committedTo,if_pos here,if_pos its]
    obtain ⟨same_credential,later⟩ := fresh disk onDisk before member here its
    have taken := commit.toStored.credential
    have raised : expiry before < expiry stored := by
      rw [expiry.eq_1 stored,taken]
      exact later
    obtain ⟨advanced,stored_credential,held_after⟩ := held.commit (fits.named before member) live_id same_credential commit.toStored.recordId
      (commit.toStored.parts.trans commit.toLive.parts.symm) (commit.toLive.credential.trans taken.symm) raised merge
    exact ⟨advanced,stored_credential.trans taken,held_after⟩
  · have others : ¬ resolveAccountRecordId before = account := fun same => here (live_id.symm.trans same)
    rw [if_neg others] at merge ⊢
    rw [committedTo,if_neg here,if_neg others]
    exact held.save (fits.named before member) live_id (reconciled_proposes own distinct onDisk among live_id) merge

theorem CommitRows.rescued (commit : CommitRows current synced next live account auth row stored refreshLive)
    (fits : Fits current.accounts base.accounts synced.accounts) (distinct : (current.accounts.map resolveAccountRecordId).Nodup)
    (fresh : Fresh account auth current.accounts synced.accounts) {rescuedBaseline : AccountStorageV3}
    (done : rescueAuth base current stored = some (result,rescuedBaseline)) :
    List.Forall₂ (fun disk merged => Advanced disk merged ∧ credential merged = committedTo account auth disk)
        current.accounts result.accounts ∧ Fits result.accounts rescuedBaseline.accounts live.accounts := by
  obtain ⟨stored_id,named_stored⟩ := commit.named_stored (fits.named row commit.member)
  obtain ⟨cooldown,onDisk,inBase⟩ := rescueAuth_rows named_stored stored_id (fits.baseIds ▸ distinct) distinct done
  have later : ∀ d ∈ current.accounts, resolveAccountRecordId d = account → expiry d < auth.credential.expires := by
    intro d member same
    obtain ⟨same_credential,after⟩ := fresh d member row commit.member same commit.own
    rw [← expiry_congr same_credential]
    exact after
  rw [onDisk,inBase,commit.pool]
  exact fits.rescued commit.member commit.own commit.toStored (fun d => withCooldown (withAuthFields stored d) cooldown)
    (withAuthFields stored) refreshLive
    (fun d => (withAuthFields_settled stored d).trans (settled_of_sameBut (withCooldown_sameBut _ cooldown)))
    (fun b => withAuthFields_settled stored b) commit.toLive distinct later
end

theorem Fits.committed {m after : Manager} {base synced current result : AccountStorageV3} {source : AccountLike}
    {now : ℚ} (known : m.persistenceBaseline = some base)
    (fits : Fits current.accounts base.accounts synced.accounts) (distinct : (current.accounts.map resolveAccountRecordId).Nodup)
    (identified : ∀ next stored live, refreshSnapshot now synced (some current) source auth = some (next,stored,live) →
      Identified base current next)
    (own : OwnKeys synced current) (commits : CommitsOwn synced current account source auth)
    (fresh : Fresh account auth current.accounts synced.accounts)
    (done : commitRefreshedAuth now m synced (some current) source auth = .ok (some (result,after))) :
    List.Forall₂ (fun disk merged => Advanced disk merged ∧ credential merged = committedTo account auth disk)
        current.accounts result.accounts ∧ FitsManager result.accounts after := by
  obtain ⟨next,stored,live,refreshes,persists⟩ := commitRefreshedAuth_ok known done
  obtain ⟨row,refreshLive,commit⟩ := refreshSnapshot_rows (fits.liveIds ▸ distinct) fits.named commits refreshes
  cases persists with
  | merged merge =>
    obtain ⟨rows,fitted⟩ := commit.merged fits distinct own fresh (identified next stored live refreshes) merge
    exact ⟨rows,fitted.persisted _ _⟩
  | observed _ fallback _ => cases fallback
  | rescued here rescue =>
    obtain rfl := Option.some.inj here
    obtain ⟨rows,fitted⟩ := commit.rescued fits distinct fresh rescue
    exact ⟨rows,fitted.persisted _ _⟩

/-- The file holds each account's last credential, and every manager fits the file. -/
structure Keeps (ids : List String) (s : System) : Prop where
  ids : s.disk.accounts.map resolveAccountRecordId = ids
  latest : ∀ row ∈ s.disk.accounts, s.latest (resolveAccountRecordId row) = some (credential row)
  managers : ∀ m ∈ s.managers, FitsManager s.disk.accounts m

variable {ids : List String} {s : System}

theorem keeps_start (disk : AccountStorageV3) (distinct : (disk.accounts.map resolveAccountRecordId).Nodup) :
    Keeps (disk.accounts.map resolveAccountRecordId) (start disk) := by
  refine ⟨rfl,?_,fun m member => absurd member not_mem_nil⟩
  intro row member
  simp only [start]
  cases found : disk.accounts.find? (fun other => decide (resolveAccountRecordId other = resolveAccountRecordId row)) with
  | none =>
    have missing := List.find?_eq_none.mp found row member
    exact absurd (decide_eq_true rfl) missing
  | some other =>
    have same : resolveAccountRecordId other = resolveAccountRecordId row := by simpa using List.find?_some found
    have only : other = row := inj_on_of_nodup_map distinct (mem_of_find?_eq_some found) member same
    rw [only]
    rfl

theorem Keeps.withManagers (keeps : Keeps ids s) {managers : List Manager} (fitted : ∀ m ∈ managers, FitsManager s.disk.accounts m) :
    Keeps ids { s with managers := managers } := ⟨keeps.ids,keeps.latest,fitted⟩

theorem FitsManager.touch {disk : List AccountMetadataV3} {m : Manager} (fitted : FitsManager disk m) {synced : AccountStorageV3}
    (touched : Touched m.live synced) : FitsManager disk { m with live := synced } := by
  obtain ⟨base,known,fits⟩ := fitted
  exact ⟨base,known,fits.touch touched⟩

theorem Keeps.touch (keeps : Keeps ids s) {process : Nat} {m : Manager} (here : s.managers[process]? = some m) {synced : AccountStorageV3}
    (touched : Touched m.live synced) : Keeps ids { s with managers := s.managers.set process { m with live := synced } } := by
  refine keeps.withManagers (fun other member => ?_)
  rcases mem_or_eq_of_mem_set member with kept | rfl
  · exact keeps.managers other kept
  · exact (keeps.managers m (mem_of_getElem? here)).touch touched

theorem Keeps.write (keeps : Keeps ids s) {process : Nat} {disk : AccountStorageV3} {m : Manager} (latest : String → Option Credential)
    {stored : AccountMetadataV3 → Credential}
    (rows : List.Forall₂ (fun row merged => Advanced row merged ∧ credential merged = stored row) s.disk.accounts disk.accounts)
    (known : ∀ row ∈ s.disk.accounts, latest (resolveAccountRecordId row) = some (stored row)) (fitted : FitsManager disk.accounts m) :
    Keeps ids ⟨disk,s.managers.set process m,latest⟩ := by
  refine ⟨(forall₂_map_eq (rows.imp (fun _ _ row => row.1.resolves))).trans keeps.ids,?_,?_⟩
  · intro merged member
    obtain ⟨row,among,advanced,taken⟩ := forall₂_member rows member
    rw [advanced.resolves,taken]
    exact known row among
  · intro other member
    rcases mem_or_eq_of_mem_set member with kept | rfl
    · obtain ⟨base,baseline,fits⟩ := keeps.managers other kept
      exact ⟨base,baseline,fits.advance (rows.imp (fun _ _ row => row.1))⟩
    · exact fitted

theorem Keeps.step (distinct : ids.Nodup) (keeps : Keeps ids s) (action : Action) (enabled : Enabled s action) (own : FindsOwn s action) :
    Keeps ids (s.step action) := by
  have inDisk : (s.disk.accounts.map resolveAccountRecordId).Nodup := keeps.ids ▸ distinct
  cases action with
  | load synced =>
    refine keeps.withManagers (fun m member => ?_)
    rcases mem_append.mp member with old | new
    · exact keeps.managers m old
    · rw [mem_singleton.mp new]
      exact ⟨s.disk,rfl,(Fits.load inDisk own).touch enabled⟩
  | touch process synced =>
    obtain ⟨m,here,touched⟩ := enabled
    rw [System.step,modify_eq_set here]
    exact keeps.touch here touched
  | save process synced runtimeOnConflict =>
    obtain ⟨m,here,touched⟩ := enabled
    obtain ⟨base,known,fits⟩ := keeps.managers m (mem_of_getElem? here)
    simp only [System.step,here]
    split
    · exact keeps.touch here touched
    · next disk after done =>
      obtain ⟨identified,keys⟩ := own m base here known
      obtain ⟨rows,fitted⟩ := (fits.touch touched).saved known inDisk identified keys done
      exact keeps.write s.latest rows keeps.latest fitted
  | commit process synced account source auth now =>
    obtain ⟨m,here,touched,row,member,owns,latest,-,later⟩ := enabled
    obtain ⟨base,known,fits⟩ := keeps.managers m (mem_of_getElem? here)
    simp only [System.step,here]
    split
    · exact keeps.touch here touched
    · exact keeps.touch here touched
    · next disk after done =>
      obtain ⟨identified,keys,commits⟩ := own m base here known
      have synced_fits := fits.touch touched
      have fresh : Fresh account auth s.disk.accounts synced.accounts := by
        intro d among live inLive same same_live
        have only : live = row := inj_on_of_nodup_map (synced_fits.liveIds ▸ inDisk) inLive member (same_live.trans owns.symm)
        have stored := keeps.latest d among
        rw [same,latest] at stored
        rw [only]
        exact ⟨Option.some.inj stored,later⟩
      obtain ⟨rows,fitted⟩ := synced_fits.committed known inDisk identified keys commits fresh done
      refine keeps.write _ rows (fun d among => ?_) fitted
      by_cases same : resolveAccountRecordId d = account
      · simp only [committedTo,if_pos same]
      · simp only [committedTo,if_neg same]
        exact keeps.latest d among

/-- In every run whose lookups find each account's own row, the file has the same
    accounts throughout and each has the last credential committed for it. -/
theorem credentials_latest (disk : AccountStorageV3) (distinct : (disk.accounts.map resolveAccountRecordId).Nodup) {s : System}
    (run : Runs.Run System.step (fun s action => Enabled s action ∧ FindsOwn s action) (start disk) s) :
    s.disk.accounts.map resolveAccountRecordId = disk.accounts.map resolveAccountRecordId ∧
      ∀ row ∈ s.disk.accounts, s.latest (resolveAccountRecordId row) = some (credential row) := by
  have keeps : Keeps (disk.accounts.map resolveAccountRecordId) s :=
    run.invariant (fun _ action may keeps => keeps.step distinct action may.1 may.2) (keeps_start disk distinct)
  exact ⟨keeps.ids,keeps.latest⟩

end
section
attribute [local instance] asciiHost

private def credentialRow (recordId refreshToken : String) (expiresAt : ℚ) : AccountMetadataV3 :=
  [("recordId",.str recordId),("accountId",.str "a"),("refreshToken",.str refreshToken),("expiresAt",.num expiresAt),("lastUsed",.num 0)]

/-- Two records that share an account id. -/
private def sharedId : AccountStorageV3 where
  accounts := [credentialRow "x" "rx" 1,credentialRow "y" "ry" 2]
  activeIndex := 0

private def sharedSave : System :=
  [.load (loadManager sharedId).live,.save 0 (loadManager sharedId).live false].foldl System.step (start sharedId)

/-- A routine save puts the other record's credential on the first one. -/
theorem shared_id_crosses : (sharedId.accounts.map resolveAccountRecordId).Nodup ∧
    Runs.Run System.step Enabled (start sharedId) sharedSave ∧
    (∃ row ∈ sharedSave.disk.accounts, sharedSave.latest (resolveAccountRecordId row) ≠ some (credential row)) ∧
    sharedSave.disk.accounts.map (fun row => row.text "refreshToken") = [some "ry",some "ry"] := by
  have found : (sharedSave.disk.accounts.any (fun row => decide (sharedSave.latest (resolveAccountRecordId row) ≠ some (credential row)))) = true := by
    decide
  refine ⟨by decide,?_,?_,by decide⟩
  · refine Runs.Run.ofList (Runs.Run.nil _) _ ⟨Touched.refl _,⟨loadManager sharedId,rfl,Touched.refl _⟩,trivial⟩
  · obtain ⟨row,member,apart⟩ := any_eq_true.mp found
    exact ⟨row,member,of_decide_eq_true apart⟩

private def single : AccountStorageV3 where
  accounts := [credentialRow "x" "r0" 1]
  activeIndex := 0

private def rotatedAuth : OAuthAuthDetails := ⟨"access","r1",2,none,none⟩

private def refreshed : System :=
  [.load (loadManager single).live,.commit 0 (loadManager single).live "x" ⟨some "a",none,some "r0"⟩ rotatedAuth 5].foldl System.step (start single)

theorem credentials_latest_refreshed : refreshed.disk.accounts.map (fun row => row.text "refreshToken") = [some "r1"] ∧
    ∀ row ∈ refreshed.disk.accounts, refreshed.latest (resolveAccountRecordId row) = some (credential row) := by
  have run : Runs.Run System.step (fun s action => Enabled s action ∧ FindsOwn s action) (start single) refreshed := by
    refine Runs.Run.ofList (Runs.Run.nil _) _ ⟨⟨Touched.refl _,?_⟩,⟨?_,?_⟩,trivial⟩
    · intro row member
      rw [mem_singleton.mp member]
      exact ⟨by decide,by decide,by decide⟩
    · refine ⟨loadManager single,rfl,Touched.refl _,_,mem_cons_self,?_⟩
      exact ⟨by decide,by decide,by decide,by decide⟩
    · intro m base here known
      obtain rfl := Option.some.inj here
      obtain rfl := Option.some.inj known
      have pairs : ((refreshSnapshot 5 (loadManager single).live (some single) ⟨some "a",none,some "r0"⟩ rotatedAuth).all
          (fun proposal => decide (Identified single single proposal.1))) = true := by decide
      refine ⟨?_,?_,by decide,by decide⟩
      · intro next stored live refreshes
        have proposes : refreshSnapshot 5 (loadManager single).live (some single) ⟨some "a",none,some "r0"⟩ rotatedAuth = some (next,stored,live) :=
          refreshes
        rw [proposes] at pairs
        exact of_decide_eq_true pairs
      · intro row member disk found
        obtain ⟨key,-,there⟩ := Option.bind_eq_some_iff.mp found
        rw [mem_singleton.mp member,mem_singleton.mp (diskByIdentity_sound there).1]
        decide
  exact ⟨by decide,(credentials_latest single (by decide) run).2⟩

end
end CodexMultiAuth
