import CodexMultiAuth.RefreshCommit
import CodexMultiAuth.StoredCredentials

/-!
When a commit keeps the live account, its credential and its cooldown.
-/
namespace CodexMultiAuth.RefreshCommit
open OrderedMap
set_option linter.unusedSectionVars false

section
variable [Host]

theorem find_restore (previous account : Account) {field : String} (among : field ∈ restoredKeys) :
    find (restore previous account).row field = find previous.row field := by
  rw [restore,find_foldl_assign,if_pos among]

theorem text_congr {row other : AccountMetadataV3} {field : String} (same : find row field = find other field) :
    Record.text row field = Record.text other field := by
  rw [Record.text,Record.text,same]

theorem find_withCooldown_other {row : AccountMetadataV3} {cooldown : Option Json × Option Json} {field : String} (other : field ∉ cooldownKeys) :
    find (withCooldown row cooldown) field = find row field :=
  withCooldown_sameBut row cooldown field other

theorem find_withCooldown_until (row : AccountMetadataV3) (cooldown : Option Json × Option Json) :
    find (withCooldown row cooldown) "coolingDownUntil" = cooldown.1 := by
  rw [withCooldown,find_assign,if_neg (by decide),find_assign,if_pos rfl]

variable (auth : OAuthAuthDetails)

theorem updateFromAuth_carries (row : AccountMetadataV3) : Commit.Carries auth (updateFromAuth auth row) := by
  have parts := updateFromAuth_credential auth row
  rw [credential,OAuthAuthDetails.credential,Credential.mk.injEq] at parts
  obtain ⟨refresh,access,expires⟩ := parts
  refine ⟨?_,?_,?_⟩
  · rw [AccountMetadataV3.refreshToken,Record.text,refresh]
    rfl
  · rw [AccountMetadataV3.accessToken,Record.text,access]
    rfl
  · rw [AccountMetadataV3.expiresAt,Record.number,expires]
    rfl

theorem rescued_carries (account : Account) : Commit.Carries auth (rescued auth account).row := by
  have updated := updateFromAuth_carries auth account.row
  rw [rescued]
  dsimp only
  split
  · obtain ⟨refresh,access,expires⟩ := updated
    refine ⟨(text_congr (find_withCooldown_other (by decide))).trans refresh,(text_congr (find_withCooldown_other (by decide))).trans access,?_⟩
    rw [AccountMetadataV3.expiresAt,Record.number,clearAccountCooldown,find_withCooldown_other (by decide)]
    exact expires
  · exact updated

theorem rescued_until (account : Account) :
    numberOrZero (find (rescued auth account).row "coolingDownUntil") =
      if account.row.cooldownReason = some "auth-failure" then 0 else numberOrZero (find account.row "coolingDownUntil") := by
  have reason : (updateFromAuth auth account.row).cooldownReason = account.row.cooldownReason :=
    text_congr (updateFromAuth_sameBut auth account.row _ (by decide))
  rw [rescued]
  dsimp only
  rw [reason]
  split
  · rw [clearAccountCooldown,find_withCooldown_until]
    rfl
  · rw [updateFromAuth_sameBut auth account.row _ (by decide)]

theorem recordPendingAuth_entry (journal : List PendingAuth) (auth : Rotation) :
    ∃ after, recordPendingAuth false journal auth = .ok after ∧ auth.entry ∈ after := by
  rw [recordPendingAuth,if_neg Bool.false_ne_true]
  dsimp only
  split
  · exact ⟨_,rfl,List.mem_append_right _ List.mem_cons_self⟩
  · exact ⟨_,rfl,List.mem_append_right _ List.mem_cons_self⟩

/-! ### Blockers that are merged -/

variable {storedAccount saved live : CooldownRow}

theorem merge_obsolete {deadline : ℚ} (obsolete : Commit.Obsolete storedAccount saved live)
    (positive : 0 < deadline) :
    deadline ≤ numberOrZero (mergeAccountCooldown storedAccount saved live).1 ↔
      deadline ≤ numberOrZero saved.coolingDownUntil ∧ saved.coolingDownUntil ≠ storedAccount.coolingDownUntil := by
  obtain ⟨reason,token,apart⟩ := obsolete
  have own : ¬ (saved.cooldownReason = some (.str "auth-failure") ∧ saved.refreshToken ≠ saved.refreshToken) := fun stale => stale.2 rfl
  have late : ¬ deadline ≤ numberOrZero none := not_le.mpr positive
  simp only [mergeAccountCooldown,if_pos token,if_pos (And.intro reason apart.symm),if_neg own]
  by_cases same : saved.coolingDownUntil = storedAccount.coolingDownUntil
  · refine iff_of_false ?_ (fun both => both.2 same)
    cases here : saved.coolingDownUntil with
    | none =>
      rw [if_neg (fun cleared => cleared.1 (same.symm.trans here)),if_pos le_rfl,here]
      exact late
    | some value =>
      rw [if_pos ⟨fun none_ => Option.some_ne_none value (here.symm.trans (same.trans none_)),Or.inr ⟨trivial,here ▸ same⟩⟩]
      exact late
  · rw [and_iff_left same]
    split
    · next cleared =>
      rcases cleared.2 with ⟨none_,-⟩ | ⟨-,equal⟩
      · rw [none_]
      · exact absurd equal same
    · split
      · rfl
      · next lower =>
        refine iff_of_false late (fun longer => lower ?_)
        exact positive.le.trans longer

theorem merge_current {deadline : ℚ} (current : ¬ Commit.Obsolete storedAccount saved live)
    (recorded : live.coolingDownUntil = some (.num deadline)) (positive : 0 < deadline) :
    deadline ≤ numberOrZero (mergeAccountCooldown storedAccount saved live).1 ↔ ¬ Commit.Cleared storedAccount saved live := by
  have own : ¬ (live.cooldownReason = some (.str "auth-failure") ∧
      live.refreshToken ≠ (if live.refreshToken = storedAccount.refreshToken then saved.refreshToken else live.refreshToken)) := by
    rintro ⟨reason,apart⟩
    split at apart
    · next token => exact current ⟨reason,token,apart.symm⟩
    · exact apart rfl
  have stale : (saved.cooldownReason = some (.str "auth-failure") ∧
      saved.refreshToken ≠ (if live.refreshToken = storedAccount.refreshToken then saved.refreshToken else live.refreshToken)) ↔
      saved.cooldownReason = some (.str "auth-failure") ∧ live.refreshToken ≠ storedAccount.refreshToken ∧ saved.refreshToken ≠ live.refreshToken := by
    by_cases token : live.refreshToken = storedAccount.refreshToken
    · simp [token]
    · simp [token]
  have late : ¬ deadline ≤ numberOrZero none := not_le.mpr positive
  have value : numberOrZero live.coolingDownUntil = deadline := by
    rw [recorded]
    rfl
  simp only [mergeAccountCooldown,if_neg own,stale,Commit.Cleared]
  split
  · next obsolete =>
    by_cases same : storedAccount.coolingDownUntil = live.coolingDownUntil
    · rw [if_pos]
      · exact iff_of_false late (fun kept => kept ⟨same,Or.inr obsolete⟩)
      · refine ⟨?_,Or.inl ⟨rfl,Or.inr same.symm⟩⟩
        rw [same,recorded]
        exact Option.some_ne_none _
    · rw [if_neg,if_neg]
      · exact iff_of_true (le_of_eq value.symm) (fun cleared => same cleared.1)
      · rw [value]
        exact late
      · rintro ⟨-,⟨-,absent | equal⟩ | ⟨absent,-⟩⟩
        · cases recorded.symm.trans absent
        · exact same equal.symm
        · cases recorded.symm.trans absent
  · next fresh =>
    by_cases cleared : storedAccount.coolingDownUntil = live.coolingDownUntil ∧ saved.coolingDownUntil = none
    · rw [if_pos]
      · exact iff_of_false late (fun kept => kept ⟨cleared.1,Or.inl cleared.2⟩)
      · refine ⟨?_,Or.inl ⟨cleared.2,Or.inr cleared.1.symm⟩⟩
        rw [cleared.1,recorded]
        exact Option.some_ne_none _
    · rw [if_neg]
      · refine iff_of_true ?_ ?_
        · split
          · next longer => exact value ▸ longer
          · exact le_of_eq value.symm
        · rintro ⟨same,none_ | obsolete⟩
          · exact cleared ⟨same,none_⟩
          · exact fresh obsolete
      · rintro ⟨-,⟨none_,absent | equal⟩ | ⟨absent,-⟩⟩
        · cases recorded.symm.trans absent
        · exact cleared ⟨equal.symm,none_⟩
        · cases recorded.symm.trans absent

theorem mergeAccountCooldown_survives {deadline : ℚ} (recorded : live.coolingDownUntil = some (.num deadline))
    (positive : 0 < deadline) :
    deadline ≤ numberOrZero (mergeAccountCooldown storedAccount saved live).1 ↔ Commit.Survives storedAccount saved live deadline := by
  by_cases obsolete : Commit.Obsolete storedAccount saved live
  · rw [merge_obsolete obsolete positive]
    exact ⟨fun kept => Or.inr ⟨obsolete,kept⟩,fun survives => survives.elim (fun current => absurd obsolete current.1) And.right⟩
  · rw [merge_current obsolete recorded positive]
    exact ⟨fun kept => Or.inl ⟨obsolete,kept⟩,fun survives => survives.elim And.right (fun stale => absurd stale.1 obsolete)⟩

/-! ### A commit that meets an error -/

namespace Commit
variable {commit : Commit} {ref : ℕ} {error : PersistError}

theorem undone_object (live : commit.liveAccount = some ref) (pool : Pool) :
    (commit.undone pool).object ref = restore (commit.pool.object ref) (pool.object ref) := by
  rw [undone,live]
  exact Pool.put_self pool ref _

theorem settled_object (live : commit.liveAccount = some ref) :
    (∀ field ∈ restoredKeys, find (commit.settled.object ref).row field = find (commit.pool.object ref).row field) ∧
      (commit.settled.object ref).consecutiveAuthFailures = (commit.pool.object ref).consecutiveAuthFailures := by
  have back : ∀ pool, (∀ field ∈ restoredKeys,
        find ((commit.undone pool).object ref).row field = find (commit.pool.object ref).row field) ∧
      ((commit.undone pool).object ref).consecutiveAuthFailures = (commit.pool.object ref).consecutiveAuthFailures := by
    intro pool
    rw [undone_object live]
    exact ⟨fun field among => find_restore _ _ among,rfl⟩
  unfold settled
  split
  · exact back _
  · exact back _
  · exact ⟨fun _ _ => rfl,rfl⟩

theorem commit_rejected (meets : commit.rejection = some error) : commit.commitRefreshedAuth = commit.rescue error commit.settled := by
  unfold rejection at meets
  unfold commitRefreshedAuth settled
  cases planned : commit.plan with
  | failed other =>
    rw [planned] at meets
    cases meets
    rfl
  | unresolved =>
    rw [planned] at meets
    cases meets
  | refused other =>
    rw [planned] at meets
    cases meets
    rfl
  | writes storedAccount merged =>
    rw [planned] at meets
    dsimp only at meets ⊢
    rw [meets]

theorem rescue_fatal (fatal : isRescuable error = false) (pool : Pool) : commit.rescue error pool = ⟨pool,commit.journal,.error error⟩ := by
  rw [rescue,fatal]
  rfl

theorem rescue_found (rescuable : isRescuable error = true) {pool : Pool}
    (found : getAccountByIdentity pool (commit.source.read pool) commit.auth.val = some ref) :
    commit.rescue error pool = ⟨pool.put ref (rescued commit.auth.val (pool.object ref)),commit.journaled (pool.object ref),.ok (some ref)⟩ := by
  rw [rescue,if_pos rescuable,found]

theorem rescue_outcome (rescuable : isRescuable error = true) {pool : Pool} (returns : (commit.rescue error pool).outcome = .ok (some ref)) :
    getAccountByIdentity pool (commit.source.read pool) commit.auth.val = some ref := by
  rw [rescue,if_pos rescuable] at returns
  cases found : getAccountByIdentity pool (commit.source.read pool) commit.auth.val with
  | none =>
    rw [found] at returns
    cases returns
  | some other =>
    rw [found] at returns
    cases returns
    rfl

theorem journaled_entry {account : Account} {spent : String} (token : account.row.refreshToken = some spent) (named : spent ≠ "")
    (kept : commit.reset = false) (writable : commit.journalFails = false) :
    ∃ entry ∈ commit.journaled account, entry.prior = Host.sha256 spent ∧ entry.refreshToken.val = commit.auth.val.refresh ∧
      entry.accessToken.val = commit.auth.val.access ∧ entry.expiresAt = commit.auth.val.expires := by
  rw [journaled,rotation,token,writable,kept,if_neg Bool.false_ne_true]
  dsimp only
  rw [dif_pos named]
  dsimp only
  obtain ⟨after,records,member⟩ := recordPendingAuth_entry commit.journal
    ⟨⟨spent,named⟩,account.row.recordId,⟨commit.auth.val.refresh,commit.auth.property.1⟩,⟨commit.auth.val.access,commit.auth.property.2⟩,
      commit.auth.val.expires,commit.now⟩
  rw [records]
  exact ⟨_,member,rfl,rfl,rfl,rfl⟩

theorem rejected_until (live : commit.liveAccount = some ref) (meets : commit.rejection = some error)
    (found : isRescuable error = true → getAccountByIdentity commit.settled (commit.source.read commit.settled) commit.auth.val = some ref) :
    numberOrZero (find (commit.commitRefreshedAuth.pool.object ref).row "coolingDownUntil") = commit.previousDeadline error ref := by
  obtain ⟨same,-⟩ := settled_object live
  have until_ := same "coolingDownUntil" (by decide)
  have reason : (commit.settled.object ref).row.cooldownReason = (commit.pool.object ref).row.cooldownReason :=
    text_congr (same "cooldownReason" (by decide))
  rw [commit_rejected meets,previousDeadline]
  cases rescuable : isRescuable error with
  | false =>
    rw [rescue_fatal rescuable,until_,if_neg (fun both => Bool.false_ne_true both.1)]
  | true =>
    rw [rescue_found rescuable (found rescuable)]
    dsimp only
    rw [Pool.put_self,rescued_until,reason,until_]
    exact if_congr ⟨fun failure => ⟨rfl,failure⟩,And.right⟩ rfl rfl

/-! ### A commit that writes -/

section
variable {storedAccount : AccountMetadataV3} {merged : AccountStorageV3}

theorem rejection_writes (planned : commit.plan = .writes storedAccount merged) : commit.rejection = commit.rejected := by
  rw [rejection,planned]

theorem commit_written (planned : commit.plan = .writes storedAccount merged) (resolves : commit.rejected = none) :
    commit.commitRefreshedAuth.pool = commit.written storedAccount merged := by
  rw [commitRefreshedAuth,planned]
  dsimp only
  rw [resolves]

theorem written_merged {saved : AccountMetadataV3} (stored : merged.accounts.find? (hasRecordId storedAccount.recordId) = some saved)
    (found : commit.recorded storedAccount = some ref) :
    find ((commit.written storedAccount merged).object ref).row "coolingDownUntil" =
      (mergeAccountCooldown (cooldownRow storedAccount) (cooldownRow saved) (cooldownRow (commit.later.object ref).row)).1 := by
  rw [written,stored,found]
  dsimp only
  rw [Pool.put_self]
  exact find_withCooldown_until _ _

theorem written_other (apart : ∀ saved, merged.accounts.find? (hasRecordId storedAccount.recordId) = some saved →
      commit.recorded storedAccount ≠ some ref) :
    (commit.written storedAccount merged).object ref = commit.later.object ref := by
  unfold written
  split
  · next saved other stored found =>
    refine if_neg ?_
    rintro rfl
    exact apart saved stored found
  · rfl

theorem written_until {deadline : ℚ} (observed : commit.Recorded ref deadline) :
    deadline ≤ numberOrZero (find ((commit.written storedAccount merged).object ref).row "coolingDownUntil") ↔
      ∀ saved, merged.accounts.find? (hasRecordId storedAccount.recordId) = some saved → commit.recorded storedAccount = some ref →
        Survives (cooldownRow storedAccount) (cooldownRow saved) (cooldownRow (commit.later.object ref).row) deadline := by
  by_cases both : ∃ saved, merged.accounts.find? (hasRecordId storedAccount.recordId) = some saved ∧ commit.recorded storedAccount = some ref
  · obtain ⟨saved,stored,found⟩ := both
    rw [written_merged stored found,mergeAccountCooldown_survives observed.1 observed.2.1]
    constructor
    · intro survives other again _
      rw [stored] at again
      cases again
      exact survives
    · exact fun survives => survives saved stored found
  · rw [written_other (fun saved stored found => both ⟨saved,stored,found⟩)]
    refine iff_of_true ?_ (fun saved stored found => absurd ⟨saved,stored,found⟩ both)
    rw [observed.1]
    exact le_rfl

end

theorem Keeps.careful (keeps : commit.Keeps) : commit.Careful := by
  have found : ∀ ref error, commit.liveAccount = some ref → commit.rejection = some error → isRescuable error = true →
      getAccountByIdentity commit.settled (commit.source.read commit.settled) commit.auth.val = some ref := by
    intro ref error live meets rescuable
    have returns := (keeps.rescues ref error live meets rescuable).1
    rw [commit_rejected meets] at returns
    exact rescue_outcome rescuable returns
  refine ⟨found,?_,?_⟩
  · intro ref error deadline storedAccount merged live planned rejects observed
    have meets : commit.rejection = some error := (rejection_writes planned).trans rejects
    rw [← rejected_until live meets (found ref error live meets)]
    exact keeps.observed ref deadline live ⟨storedAccount,merged,planned⟩ observed
  · intro ref deadline storedAccount merged saved live planned resolves observed stored recorded_
    have kept := keeps.observed ref deadline live ⟨storedAccount,merged,planned⟩ observed
    rw [commit_written planned resolves] at kept
    exact (written_until observed).mp kept saved stored recorded_

theorem Careful.keeps (careful : commit.Careful) : commit.Keeps := by
  refine ⟨?_,?_,?_⟩
  · intro ref error live meets fatal
    obtain ⟨same,failures⟩ := settled_object live
    rw [commit_rejected meets,rescue_fatal fatal]
    exact ⟨fun field among => same field (List.mem_append_left cooldownKeys among),failures⟩
  · intro ref error live meets rescuable
    obtain ⟨same,-⟩ := settled_object live
    rw [commit_rejected meets,rescue_found rescuable (careful.found ref error live meets rescuable)]
    refine ⟨rfl,?_,?_⟩
    · rw [Pool.put_self]
      exact rescued_carries _ _
    · intro spent token named kept writable
      exact journaled_entry ((text_congr (same "refreshToken" (by decide))).trans token) named kept writable
  · rintro ref deadline live ⟨storedAccount,merged,planned⟩ observed
    cases settles : commit.rejected with
    | none =>
      rw [commit_written planned settles]
      exact (written_until observed).mpr (fun saved stored found =>
        careful.survives ref deadline storedAccount merged saved live planned settles observed stored found)
    | some error =>
      have meets : commit.rejection = some error := (rejection_writes planned).trans settles
      rw [rejected_until live meets (careful.found ref error live meets)]
      exact careful.unobserved ref error deadline storedAccount merged live planned settles observed

/-- A commit loses neither the account's state nor what other requests have recorded just
    when it is careful. -/
theorem commit_keeps_iff (commit : Commit) : commit.Keeps ↔ commit.Careful := ⟨Keeps.careful,Careful.keeps⟩

end Commit

end

section
attribute [local instance] asciiHost

def refreshing : Account := ⟨[("recordId",.str "record:a"),("accountId",.str "a"),("refreshToken",.str "r")],none⟩

/-- While the write is pending another request runs into a rate limit, and the write fails. -/
def limitedMeanwhile : Commit where
  now := 1
  source := .account 0
  auth := ⟨⟨"access","s",9,none,none⟩,by decide⟩
  manager := ⟨emptyStorage,none,false⟩
  pool := ⟨[0],fun _ => refreshing⟩
  opened := .ok none
  later := ⟨[0],fun _ => { refreshing with row := refreshing.row ++ [("coolingDownUntil",.num 5),("cooldownReason",.str "rate-limit")] }⟩
  rejected := some ⟨⟨some "EIO",none⟩,[]⟩
  journal := []
  reset := false
  journalFails := false

theorem rejected_write_drops_cooldown : ¬ ∀ commit : Commit, commit.Keeps := by
  intro keeps
  have pending : limitedMeanwhile.Pending := by
    have writes : (match limitedMeanwhile.plan with
        | .writes _ _ => true
        | _ => false) = true := by decide +kernel
    cases planned : limitedMeanwhile.plan with
    | writes storedAccount merged => exact ⟨storedAccount,merged,planned⟩
    | _ =>
      rw [planned] at writes
      cases writes
  have kept := (keeps limitedMeanwhile).observed 0 5 (by decide +kernel) pending ⟨rfl,by decide,by decide +kernel⟩
  exact absurd kept (by decide +kernel)

end

end CodexMultiAuth.RefreshCommit
