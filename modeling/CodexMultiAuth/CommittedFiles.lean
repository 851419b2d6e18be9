import CodexMultiAuth.StoredCredentials
import CodexMultiAuth.TokenRefresh

/-!
What a commit writes over the rows of its account. The merge and the rescue of a conflict both compare
the file with what the manager knows: a credential on the file with another refresh token than any that the
manager knows stays there.
-/
namespace CodexMultiAuth.TokenRefresh
open RefreshCommit (Commit PersistError)
set_option linter.unusedSectionVars false

/-- A credential on the file that differs from the one the manager knows in the refresh token, and either in the
    whole or so that the merge conflicts. -/
def Guarded (prior disk auth : Credential) : Prop :=
  prior.refreshToken ≠ disk.refreshToken ∧
    (Diverged prior.refreshToken disk.refreshToken auth.refreshToken ∨ Diverged prior.accessToken disk.accessToken auth.accessToken ∨
      Diverged prior.expiresAt disk.expiresAt auth.expiresAt ∨ (prior.accessToken ≠ disk.accessToken ∧ prior.expiresAt ≠ disk.expiresAt))

theorem mergeValue_disk {base disk loc merged : Option Json} (plain : loc.bind Json.asRecord = none)
    (done : mergeValue base disk loc = .ok merged) : ¬ Diverged base disk loc ∧ (base ≠ disk → merged = disk) := by
  rcases mergeValue_cases done with ⟨either,rfl⟩ | ⟨same,rfl⟩ | ⟨_,_,record,-,-,rfl,-⟩
  · refine ⟨?_,fun _ => rfl⟩
    rintro ⟨-,onLocal,apart⟩
    exact either.elim onLocal apart
  · exact ⟨fun diverged => diverged.1 same,fun apart => absurd same apart⟩
  · cases plain

theorem credential_kept {prior disk loc merged : AccountMetadataV3} {auth : OAuthAuthDetails} (own : credential loc = auth.credential)
    (fields : ∀ k ∈ ["refreshToken","accessToken","expiresAt"], mergeValue (prior.find k) (disk.find k) (loc.find k) = .ok (merged.find k))
    (guarded : Guarded (credential prior) (credential disk) auth.credential) : credential merged = credential disk := by
  have refresh : loc.find "refreshToken" = some (.str auth.refresh) := congrArg Credential.refreshToken own
  have access : loc.find "accessToken" = some (.str auth.access) := congrArg Credential.accessToken own
  have expires : loc.find "expiresAt" = some (.num auth.expires) := congrArg Credential.expiresAt own
  have refreshes := mergeValue_disk (by rw [refresh]; rfl) (fields "refreshToken" (by decide))
  have accesses := mergeValue_disk (by rw [access]; rfl) (fields "accessToken" (by decide))
  have expiries := mergeValue_disk (by rw [expires]; rfl) (fields "expiresAt" (by decide))
  rw [refresh] at refreshes
  rw [access] at accesses
  rw [expires] at expiries
  obtain ⟨token,diverged | diverged | diverged | ⟨other,later⟩⟩ := guarded
  · exact absurd diverged refreshes.1
  · exact absurd diverged accesses.1
  · exact absurd diverged expiries.1
  · simp only [credential,refreshes.2 token,accesses.2 other,expiries.2 later]

section
variable [Host]

/-- Of a file, the rows that a commit takes for its account, of which the credential is not among some. -/
def Newer (known : List Credential) (writes : Commit) (current : AccountStorageV3) (row : AccountMetadataV3) : Prop :=
  row ∈ current.accounts ∧ credential row ∉ known ∧
    ∃ nextStorage storedAccount live, proposal writes (some current) = some (nextStorage,storedAccount,live) ∧
      mergeIdentity (writes.manager.persistenceBaseline.getD emptyStorage) current nextStorage row =
        mergeIdentity (writes.manager.persistenceBaseline.getD emptyStorage) current nextStorage storedAccount

/-- The manager does not know the newer credentials of a file. -/
def Unknown (known : List Credential) (writes : Commit) (current : AccountStorageV3) : Prop :=
  ∀ row, Newer known writes current row →
    ∀ prior ∈ (writes.manager.persistenceBaseline.getD emptyStorage).accounts,
      Guarded (credential prior) (credential row) writes.auth.val.credential

theorem refreshSnapshot_stored {now : ℚ} {synced : AccountStorageV3} {current : Option AccountStorageV3} {source : AccountLike}
    {auth : OAuthAuthDetails} {next live : AccountStorageV3} {stored : AccountMetadataV3}
    (done : refreshSnapshot now synced current source auth = some (next,stored,live)) :
    stored ∈ next.accounts ∧ credential stored = auth.credential := by
  obtain ⟨index,-,done⟩ := Option.bind_eq_some_iff.mp done
  obtain ⟨storedAccount,here,done⟩ := Option.map_eq_some_iff.mp done
  simp only [Prod.mk.injEq] at done
  obtain ⟨rfl,rfl,-⟩ := done
  obtain ⟨inside,-⟩ := List.getElem?_eq_some_iff.mp here
  refine ⟨List.mem_set inside _,?_⟩
  exact (settled_of_sameBut (withCooldown_sameBut _ _)).credential.trans (updateFromAuth_credential auth storedAccount)

theorem updateFirst_kept {matching : AccountMetadataV3 → Bool} {update : AccountMetadataV3 → AccountMetadataV3} {rows : List AccountMetadataV3}
    {row : AccountMetadataV3} (member : row ∈ rows) : row ∈ updateFirst matching update rows ∨ rows.find? matching = some row := by
  induction rows with
  | nil => cases member
  | cons first rest ih =>
    rw [updateFirst,List.find?_cons]
    cases here : matching first with
    | true =>
      rcases List.mem_cons.mp member with rfl | later
      · exact .inr rfl
      · exact .inl (List.mem_cons_of_mem _ later)
    | false =>
      rcases List.mem_cons.mp member with rfl | later
      · exact .inl List.mem_cons_self
      · exact (ih later).imp_left (List.mem_cons_of_mem _)

theorem merge_keeps {base current next merged : AccountStorageV3} {stored row : AccountMetadataV3} {auth : OAuthAuthDetails}
    (done : mergeDocuments base current next = .ok merged) (proposed : stored ∈ next.accounts) (own : credential stored = auth.credential)
    (onDisk : row ∈ current.accounts) (same : mergeIdentity base current next row = mergeIdentity base current next stored)
    (guarded : ∀ prior ∈ base.accounts, Guarded (credential prior) (credential row) auth.credential) :
    ∃ kept ∈ merged.accounts, credential kept = credential row := by
  obtain ⟨distinct,⟨rows,accounts,made⟩,-⟩ := mergeDocuments_merged done
  have found : rowOf (mergeIdentity base current next) next.accounts (mergeIdentity base current next row) = some stored := by
    rw [same]
    exact rowOf_member distinct.inLocal.distinct proposed
  have stays : row ∈ remaining (mergeIdentity base current next) base.accounts current.accounts next.accounts := by
    refine List.mem_filter.mpr ⟨onDisk,?_⟩
    rw [survives,found,Option.isSome_some,Bool.or_true]
  obtain ⟨place,inside,here⟩ := List.getElem_of_mem stays
  have merge := (List.forall₂_iff_get.mp made).2 place inside (made.length_eq ▸ inside)
  rw [List.get_eq_getElem,here] at merge
  refine ⟨_,accounts ▸ List.mem_append_left _ (List.get_mem rows ⟨place,made.length_eq ▸ inside⟩),?_⟩
  unfold MergedRow at merge
  rw [found] at merge
  cases inBase : rowOf (mergeIdentity base current next) base.accounts (mergeIdentity base current next row) with
  | none =>
    rw [inBase] at merge
    exact congrArg credential merge
  | some prior =>
    rw [inBase] at merge
    refine credential_kept own ?_ (guarded prior (rowOf_sound inBase).1)
    intro k among
    refine merge.userOwned k ⟨?_,fun _ => ?_⟩ <;> revert k <;> decide

theorem rescue_keeps {baseline current merged rescuedBaseline : AccountStorageV3} {stored row : AccountMetadataV3} {auth : Credential}
    (done : rescueAuth baseline current stored = some (merged,rescuedBaseline)) (onDisk : row ∈ current.accounts)
    (guarded : ∀ prior ∈ baseline.accounts, Guarded (credential prior) (credential row) auth) :
    ∃ kept ∈ merged.accounts, credential kept = credential row := by
  simp only [rescueAuth] at done
  split at done
  · next prior disk inBase first =>
    split at done
    · cases done
    · next may =>
      obtain ⟨rfl,-⟩ := Prod.mk.inj (Option.some.inj done)
      rcases updateFirst_kept onDisk with kept | taken
      · exact ⟨row,kept,rfl⟩
      · obtain rfl := Option.some.inj (first.symm.trans taken)
        refine absurd ?_ (guarded prior (List.mem_of_find?_eq_some inBase)).1
        exact (not_not.mp (not_or.mp may).1).symm
  · cases done

theorem commit_keeps {known : List Credential} {writes : Commit} {current : AccountStorageV3} {storedAccount : AccountMetadataV3}
    {merged : AccountStorageV3} (opened : writes.opened = .ok (some current)) (planned : writes.plan = .writes storedAccount merged)
    (unknown : Unknown known writes current) {row : AccountMetadataV3} (newer : Newer known writes current row) :
    ∃ kept ∈ merged.accounts, credential kept = credential row := by
  have guarded := unknown row newer
  obtain ⟨onDisk,-,nextStorage,stored,live,proposes,same⟩ := newer
  simp only [Commit.plan,opened,Option.isNone_some,Bool.false_eq_true,false_and,if_false] at planned
  rw [proposal] at proposes
  rw [proposes] at planned
  dsimp only at planned
  obtain ⟨proposed,own⟩ := refreshSnapshot_stored proposes
  cases persists : persistSnapshot writes.manager (some current) nextStorage (some stored) false with
  | error error =>
    rw [persists] at planned
    cases planned
  | ok result =>
    rw [persists] at planned
    obtain ⟨rfl,rfl⟩ := Commit.Plan.writes.inj planned
    simp only [persistSnapshot] at persists
    split at persists
    · next merged merge =>
      obtain rfl := Except.ok.inj persists
      rcases mergeAccountSnapshot_ok merge with ⟨-,absent,-⟩ | done
      · cases absent
      · exact merge_keeps done proposed own onDisk same guarded
    · next error conflicts =>
      split at persists
      · cases persists
      · next baseline known =>
        rw [if_neg Bool.false_ne_true] at persists
        split at persists
        · cases persists
        · next merged rescuedBaseline rescues =>
          obtain rfl := Except.ok.inj persists
          obtain ⟨refreshed,here,rescues⟩ := Option.bind_eq_some_iff.mp rescues
          obtain rfl := Option.some.inj here
          obtain ⟨-,-,rescues⟩ := Option.bind_eq_some_iff.mp rescues
          rw [known] at guarded
          exact rescue_keeps rescues onDisk guarded

end

end CodexMultiAuth.TokenRefresh
