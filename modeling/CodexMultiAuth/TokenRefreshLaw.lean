import CodexMultiAuth.CommittedFiles
import CodexMultiAuth.RefreshCommitLaw
import CodexMultiAuth.StickyState

/-!
What a call returns and what a commit replaces, where nothing touches the accounts
between the lock and the return of the calls that wait for it.
-/
namespace CodexMultiAuth.TokenRefresh
open RefreshCommit (Account Pool PersistError RefreshedAuth Commit getAccountByIdentity isRescuable)
open RefreshLease (TokenFailure)
set_option linter.unusedSectionVars false

section
variable [Host]

/-- A token is the own one of an enabled account of the active manager. -/
def Fresh (s : State) : Result → Prop
  | .ok accessToken target =>
    target.accountManager = s.activeAccountManager ∧ target.account ∈ s.accountsOf s.activeAccountManager ∧
      isDisabled (s.row target.account) = false ∧ (s.row target.account).accessToken = some accessToken
  | _ => True

/-- A call returns between two states. -/
def Returns (s after : State) (id : ℕ) (result : Result) : Prop :=
  (∃ call, after.calls id = some call ∧ call.phase = .returned result) ∧
    ∀ call other, s.calls id = some call → call.phase ≠ .returned other

/-- What a step of a commit replaces with its credential is not newer than the one that it spent. -/
structure Keeps (s after : State) (commit : PendingCommit) : Prop where
  live : ∀ ref, credential (s.row ref) ≠ commit.auth.val.credential → credential (after.row ref) = commit.auth.val.credential →
    credential (s.row ref) ∈ commit.known
  file : ∀ target writes storedAccount merged current written row, commit.phase = .writing target writes storedAccount merged →
    s.storage = some current → after.storage = some written → Newer commit.known writes current row →
      ∃ kept ∈ written.accounts, credential kept = credential row

def Action.commit : Action → Option ℕ
  | .lock id => some id
  | .openStorage id _ _ _ _ => some id
  | .written id _ => some id
  | _ => none

structure Right (s : State) (action : Action) : Prop where
  fresh : ∀ id result, Returns s (step s action) id result → Fresh (step s action) result
  keeps : ∀ id commit, action.commit = some id → s.commits id = some commit → Keeps s (step s action) commit

/-- A call waits for the commit. -/
def Awaited (s : State) (id : ℕ) : Prop :=
  ∃ caller call latestTarget access, s.calls caller = some call ∧ call.phase = .committing id latestTarget access

/-- A commit is over, and a call that waits for it has not returned yet. -/
def Handing (s : State) : Prop :=
  ∃ id commit result, s.commits id = some commit ∧ commit.phase = .settled (.ok result) ∧ Awaited s id

/-- The account that a commit with the lock works on. -/
def CommitPhase.target : CommitPhase → Option Target
  | .opening target => some target
  | .writing target _ _ _ => some target
  | _ => none

/-- No commit has the lock, and none is over with calls that have not returned. -/
def Idle (s : State) : Prop := ¬ Handing s ∧ ∀ id commit, s.commits id = some commit → commit.phase.target = none

/-- The account is found by its identity: where it is written, and where a rejection is rescued. -/
structure Resolves (writes : Commit) (ref : ℕ) : Prop where
  found : writes.rejection = none → writes.plan ≠ .unresolved ∧ writes.liveAccount = some ref
  rescued : ∀ error found, writes.rejection = some error → isRescuable error = true →
    getAccountByIdentity writes.settled (writes.source.read writes.settled) writes.auth.val = some found → found = ref

def Careful (s : State) : Action → Prop
  | .lock id => ∀ commit manager, s.commits id = some commit → commit.phase = .waiting manager →
      s.resolveRuntimeRefreshCommitManager manager = manager →
      ∃ target, s.resolveRuntimeRefreshTarget commit.source = some target ∧
        (isDisabled (s.row target.account) = true ∨
          -- A login that landed meanwhile has another refresh token, and an access token.
          if (s.row target.account).refreshToken = commit.expectedRefresh then credential (s.row target.account) ∈ commit.known
          else (s.row target.account).accessToken.isSome)
  | .openStorage id now failed reset journalFails => ¬ Handing s ∧ ∀ commit target, s.commits id = some commit → commit.phase = .opening target →
      Resolves (s.opened commit target now failed reset journalFails) target.account ∧
        ∀ current, s.storage = some current → Unknown commit.known (s.opened commit target now failed reset journalFails) current
  | .written id rejected => ¬ Handing s ∧ ∀ commit target writes storedAccount merged, s.commits id = some commit →
      commit.phase = .writing target writes storedAccount merged → Resolves (resumed s target writes rejected) target.account
  | .synced _ (some _) => Idle s
  | .reload _ => Idle s
  | .setAccountEnabled manager index _ => ¬ Handing s ∧ ∀ id commit target writes storedAccount merged ref, s.commits id = some commit →
      commit.phase = .writing target writes storedAccount merged → (s.accountsOf manager)[index]? = some ref → ref ≠ target.account
  | .removeAccount manager index => ¬ Handing s ∧ ∀ ref, (s.accountsOf manager)[index]? = some ref →
      (∀ id call initialTarget refreshCredential known, s.calls id = some call →
        call.phase = .refreshing initialTarget refreshCredential known → initialTarget.account ≠ ref) ∧
      ∀ id commit, s.commits id = some commit →
        (∀ waits, commit.phase = .waiting waits → commit.source.account ≠ ref) ∧ ∀ target, commit.phase.target = some target → target.account ≠ ref
  | _ => True

/-- Rows with the same credential, enabled alike. -/
def Alike (before after : AccountMetadataV3) : Prop := ∀ k ∈ credentialFields, OrderedMap.find after k = OrderedMap.find before k

namespace Alike
variable {before after last : AccountMetadataV3}

theorem refl (row : AccountMetadataV3) : Alike row row := fun _ _ => rfl

theorem trans (first : Alike before after) (second : Alike after last) : Alike before last :=
  fun k among => (second k among).trans (first k among)

theorem credential (alike : Alike before after) : credential after = credential before := by
  simp only [CodexMultiAuth.credential,alike "refreshToken" (by decide),alike "accessToken" (by decide),alike "expiresAt" (by decide)]

theorem isDisabled (alike : Alike before after) : isDisabled after = isDisabled before := by
  simp only [CodexMultiAuth.isDisabled,alike "enabled" (by decide)]

theorem accessToken (alike : Alike before after) : after.accessToken = before.accessToken :=
  RefreshCommit.text_congr (alike "accessToken" (by decide))

theorem of_sameBut {keys : List String} (same : SameBut keys before after) (apart : ∀ k ∈ credentialFields, k ∉ keys) : Alike before after :=
  fun k among => same k (apart k among)

theorem put {row : AccountMetadataV3} {key : String} {value : Json} (apart : key ∉ credentialFields) : Alike row (row.put key value) := by
  intro k among
  rw [OrderedMap.find_put,if_neg]
  rintro rfl
  exact apart among

end Alike

theorem withCooldown_alike (row : AccountMetadataV3) (cooldown : Option Json × Option Json) : Alike row (withCooldown row cooldown) :=
  Alike.of_sameBut (withCooldown_sameBut row cooldown) (by decide)

theorem restore_alike (previous account : Account) : Alike previous.row (RefreshCommit.restore previous account).row := by
  intro k among
  refine RefreshCommit.find_restore previous account ?_
  revert k
  decide

theorem observed_alike (account before : Account) : Alike before.row (observed account before).row := by
  intro k among
  rw [observed,OrderedMap.find_foldl_assign,if_pos among]

theorem markAccountCoolingDown_alike (clock cooldownMs : ℚ) (reason : String) (account : Account) :
    Alike account.row (markAccountCoolingDown clock cooldownMs reason account).row :=
  (Alike.put (by decide)).trans (Alike.put (by decide))

theorem recordAuthFailure_alike (clock cooldownMs : ℚ) (invalidated : Bool) (account : Account) :
    Alike account.row (recordAuthFailure clock cooldownMs invalidated account).row := by
  have cooled : ∀ ms (account : Account), Alike account.row (applyMonotonicAuthCooldown clock ms account).row := by
    intro ms account
    rw [applyMonotonicAuthCooldown]
    split
    · exact markAccountCoolingDown_alike _ _ _ _
    · exact Alike.refl _
  rw [recordAuthFailure]
  split
  · have marked : Alike account.row (markAuthInvalidated clock (incrementAuthFailures account)).row :=
      (Alike.put (by decide)).trans (Alike.put (by decide))
    exact marked.trans (cooled _ _)
  · exact cooled _ (incrementAuthFailures account)

/-- A row that has a refreshed credential, enabled. -/
structure Holds (auth : OAuthAuthDetails) (row : AccountMetadataV3) : Prop where
  credential : credential row = auth.credential
  enabled : isDisabled row = false

theorem Holds.alike {auth : OAuthAuthDetails} {before after : AccountMetadataV3} (holds : Holds auth before) (alike : Alike before after) :
    Holds auth after := ⟨alike.credential.trans holds.credential,alike.isDisabled.trans holds.enabled⟩

theorem Holds.accessToken {auth : OAuthAuthDetails} {row : AccountMetadataV3} (holds : Holds auth row) : row.accessToken = some auth.access := by
  have access : row.find "accessToken" = some (.str auth.access) := congrArg Credential.accessToken holds.credential
  rw [AccountMetadataV3.accessToken,Record.text,access]
  rfl

theorem updateFromAuth_holds (auth : OAuthAuthDetails) (row : AccountMetadataV3) : Holds auth (updateFromAuth auth row) := by
  refine ⟨updateFromAuth_credential auth row,?_⟩
  have removed : (updateFromAuth auth row).find "enabled" = none := by
    rw [updateFromAuth,OrderedMap.find_remove,if_neg (by decide),OrderedMap.find_remove,if_neg (by decide),OrderedMap.find_remove,if_pos rfl]
  rw [isDisabled,removed]
  rfl

theorem refreshed_holds (now : ℚ) (auth : OAuthAuthDetails) (account : Account) : Holds auth (RefreshCommit.refreshed now auth account).row := by
  rw [RefreshCommit.refreshed]
  dsimp only
  split
  · exact updateFromAuth_holds auth account.row
  · exact (updateFromAuth_holds auth account.row).alike (withCooldown_alike _ _)

theorem rescued_holds (auth : OAuthAuthDetails) (account : Account) : Holds auth (RefreshCommit.rescued auth account).row := by
  rw [RefreshCommit.rescued]
  dsimp only
  split
  · exact (updateFromAuth_holds auth account.row).alike (withCooldown_alike _ _)
  · exact updateFromAuth_holds auth account.row

/-! ### What a commit does to the accounts -/

/-- Every account but one has the credential that it had, enabled as it was. -/
def SameOthers (ref : ℕ) (before after : ℕ → Account) : Prop := ∀ other, other ≠ ref → Alike (before other).row (after other).row

variable {ref : ℕ}

theorem sameOthers_put {pool : Pool} {account : Account} : SameOthers ref pool.object (pool.put ref account).object := by
  intro other apart
  simp only [Pool.put,if_neg apart]
  exact Alike.refl _

theorem SameOthers.trans {before after last : ℕ → Account} (first : SameOthers ref before after) (second : SameOthers ref after last) :
    SameOthers ref before last := fun other apart => (first other apart).trans (second other apart)

variable {writes : Commit}

theorem begun_holds (live : writes.liveAccount = some ref) :
    Holds writes.auth.val (writes.begun.object ref).row ∧ SameOthers ref writes.pool.object writes.begun.object := by
  rw [Commit.begun,live]
  refine ⟨?_,sameOthers_put⟩
  simp only [Pool.put_self]
  exact refreshed_holds _ _ _

/-- What a commit that found its account has come to. -/
structure Concluded (writes : Commit) (ref : ℕ) (before : ℕ → Account) (result : RefreshCommit.Result) : Prop where
  others : SameOthers ref before result.pool.object
  outcome : (∃ error, result.outcome = .error error) ∨ result.outcome = .ok (some ref) ∧ Holds writes.auth.val (result.pool.object ref).row

theorem rescue_concluded {error : PersistError} {pool : Pool}
    (own : isRescuable error = true → ∀ found, getAccountByIdentity pool (writes.source.read pool) writes.auth.val = some found → found = ref) :
    Concluded writes ref pool.object (writes.rescue error pool) := by
  cases rescuable : isRescuable error with
  | false =>
    rw [Commit.rescue_fatal rescuable]
    exact ⟨fun _ _ => Alike.refl _,.inl ⟨error,rfl⟩⟩
  | true =>
    rw [Commit.rescue,if_pos rescuable]
    cases found : getAccountByIdentity pool (writes.source.read pool) writes.auth.val with
    | none => exact ⟨fun _ _ => Alike.refl _,.inl ⟨error,rfl⟩⟩
    | some other =>
      obtain rfl := own rescuable other found
      refine ⟨sameOthers_put,.inr ⟨rfl,?_⟩⟩
      simp only [Pool.put_self]
      exact rescued_holds _ _

theorem settled_alike (early : ∀ storedAccount merged, writes.plan ≠ .writes storedAccount merged) (ref : ℕ) :
    Alike (writes.pool.object ref).row (writes.settled.object ref).row := by
  rw [Commit.settled]
  split
  · rw [Commit.undone]
    cases live : writes.liveAccount with
    | none =>
      rw [Commit.begun,live]
      exact Alike.refl _
    | some account =>
      simp only [Commit.begun,live,Pool.put]
      split
      · next same =>
        subst same
        exact restore_alike _ _
      · exact Alike.refl _
  · next storedAccount merged planned => exact absurd planned (early storedAccount merged)
  · exact Alike.refl _

theorem commit_early (resolves : Resolves writes ref)
    (early : ∀ storedAccount merged, writes.plan ≠ .writes storedAccount merged) :
    Concluded writes ref writes.pool.object writes.commitRefreshedAuth := by
  have meets : ∃ error, writes.rejection = some error := by
    cases rejection : writes.rejection with
    | some error => exact ⟨error,rfl⟩
    | none =>
      have found := (resolves.found rejection).1
      rw [Commit.rejection] at rejection
      split at rejection
      · cases rejection
      · next unresolved => exact absurd unresolved found
      · cases rejection
      · next storedAccount merged planned => exact absurd planned (early storedAccount merged)
  obtain ⟨error,meets⟩ := meets
  rw [Commit.commit_rejected meets]
  obtain ⟨others,outcome⟩ := rescue_concluded (fun rescuable found => resolves.rescued error found meets rescuable)
  exact ⟨SameOthers.trans (fun other _ => settled_alike early other) others,outcome⟩

theorem written_alike (writes : Commit) (storedAccount : AccountMetadataV3) (merged : AccountStorageV3) (ref : ℕ) :
    Alike (writes.later.object ref).row ((writes.written storedAccount merged).object ref).row := by
  rw [Commit.written]
  split
  · next saved account _ _ =>
    simp only [Pool.put]
    split
    · next same =>
      subst same
      exact withCooldown_alike _ _
    · exact Alike.refl _
  · exact Alike.refl _

theorem commit_late {storedAccount : AccountMetadataV3} {merged : AccountStorageV3}
    (planned : writes.plan = .writes storedAccount merged) (live : writes.liveAccount = some ref) (resolves : Resolves writes ref)
    (holds : Holds writes.auth.val (writes.later.object ref).row) :
    Concluded writes ref writes.later.object writes.commitRefreshedAuth := by
  cases rejected : writes.rejected with
  | none =>
    have concluded : writes.commitRefreshedAuth = ⟨writes.written storedAccount merged,writes.journal,.ok writes.liveAccount⟩ := by
      simp only [Commit.commitRefreshedAuth,planned,rejected]
    rw [concluded,live]
    exact ⟨fun other _ => written_alike writes storedAccount merged other,.inr ⟨rfl,holds.alike (written_alike writes storedAccount merged ref)⟩⟩
  | some error =>
    have meets : writes.rejection = some error := (Commit.rejection_writes planned).trans rejected
    rw [Commit.commit_rejected meets]
    obtain ⟨others,outcome⟩ := rescue_concluded (fun rescuable found => resolves.rescued error found meets rescuable)
    refine ⟨SameOthers.trans ?_ others,outcome⟩
    have undone : writes.settled = writes.undone writes.later := by simp only [Commit.settled,planned]
    rw [undone,Commit.undone,live]
    exact sameOthers_put

/-! ### The invariant -/

/-- A commit that has the lock works on an account of the active manager. -/
structure Working (s : State) (id : ℕ) (target : Target) : Prop where
  active : target.accountManager = s.activeAccountManager
  listed : target.account ∈ s.accountsOf s.activeAccountManager
  locked : s.runtimeCredentialLocks s.activeAccountManager = some (.commit id)

/-- A commit whose write is awaited. -/
structure Writing (s : State) (id : ℕ) (commit : PendingCommit) (target : Target) (writes : Commit) (storedAccount : AccountMetadataV3)
    (merged : AccountStorageV3) : Prop where
  transaction : s.transaction = some id
  planned : writes.plan = .writes storedAccount merged
  live : writes.liveAccount = some target.account
  auth : writes.auth = commit.auth
  holds : Holds commit.auth.val (s.row target.account)
  opened : writes.opened = .ok s.storage
  unknown : ∀ current, s.storage = some current → Unknown commit.known writes current

/-- The result of a commit is a row to skip, or one to send with. -/
def Ready (s : State) (result : RuntimeRefreshCommitResult) : Prop :=
  result.skipped = true ∨
    ∃ ref, result.account = some ref ∧ result.accountManager = s.activeAccountManager ∧ ref ∈ s.accountsOf s.activeAccountManager ∧
      isDisabled (s.row ref) = false ∧ (s.row ref).accessToken.isSome

def Sound (s : State) (id : ℕ) (commit : PendingCommit) : Prop :=
  match commit.phase with
  | .waiting manager => manager ≤ s.activeAccountManager ∧ commit.source.account ∈ s.accountsOf commit.source.accountManager
  | .opening target => Working s id target ∧ credential (s.row target.account) ∈ commit.known
  | .writing target writes storedAccount merged => Working s id target ∧ Writing s id commit target writes storedAccount merged
  | .settled (.ok result) => Awaited s id → Ready s result
  | .settled (.error _) => True

def CommitPhase.unsettled : CommitPhase → Prop
  | .settled _ => False
  | _ => True

structure Inv (s : State) : Prop where
  active : s.activeAccountManager + 1 = s.managers.length
  latest : ∀ manager, s.activeAccountManager ≤ manager → s.runtimeRefreshManagerRedirects.find manager = none
  ahead : ∀ manager, manager < s.activeAccountManager →
    ∃ next, s.runtimeRefreshManagerRedirects.find manager = some next ∧ manager < next ∧ next ≤ s.activeAccountManager
  refreshing : ∀ id call initialTarget refreshCredential known, s.calls id = some call →
    call.phase = .refreshing initialTarget refreshCredential known →
    initialTarget.account ∈ s.accountsOf initialTarget.accountManager ∧ refreshCredential ∈ known ∧ s.commits id = none
  made : ∀ id commit, s.commits id = some commit → (s.calls id).isSome
  queued : ∀ manager key id, (s.runtimeRefreshCommitQueues manager).find key = some id →
    ∃ commit, s.commits id = some commit ∧ commit.phase.unsettled ∧ commit.source.accountManager = manager ∧ commit.key = key
  sound : ∀ id commit, s.commits id = some commit → Sound s id commit

theorem accountsOf_nil {s : State} {manager : ℕ} (beyond : s.managers.length ≤ manager) : s.accountsOf manager = [] := by
  rw [State.accountsOf,List.getElem?_eq_none beyond]

namespace Inv
variable {s : State}

theorem published (inv : Inv s) {manager ref : ℕ} (listed : ref ∈ s.accountsOf manager) : manager ≤ s.activeAccountManager := by
  by_contra beyond
  rw [accountsOf_nil (by have := inv.active; omega)] at listed
  cases listed

theorem resolves (inv : Inv s) {manager : ℕ} (published : manager ≤ s.activeAccountManager) :
    s.resolveRuntimeRefreshCommitManager manager = s.activeAccountManager :=
  ManagerSwap.follow_active (inv.latest _ le_rfl) inv.ahead _ _ published (by have := inv.active; omega) (by simp)

theorem target (inv : Inv s) {source target : Target} (listed : source.account ∈ s.accountsOf source.accountManager)
    (found : s.resolveRuntimeRefreshTarget source = some target) :
    target.accountManager = s.activeAccountManager ∧ target.account ∈ s.accountsOf s.activeAccountManager := by
  simp only [State.resolveRuntimeRefreshTarget,inv.resolves (inv.published listed)] at found
  split at found
  · next same =>
    obtain rfl := Option.some.inj found
    exact ⟨same.symm,same ▸ listed⟩
  · split at found
    · obtain ⟨ref,place,rfl⟩ := Option.map_eq_some_iff.mp found
      obtain ⟨index,-,here⟩ := Option.bind_eq_some_iff.mp place
      exact ⟨rfl,List.mem_of_getElem? here⟩
    · cases found

theorem alone (inv : Inv s) {id other : ℕ} {commit pending : PendingCommit} {target beside : Target} (here : s.commits id = some commit)
    (works : commit.phase.target = some target) (there : s.commits other = some pending) (too : pending.phase.target = some beside) :
    other = id := by
  have locked : ∀ {id commit target}, s.commits id = some commit → commit.phase.target = some target →
      s.runtimeCredentialLocks s.activeAccountManager = some (.commit id) := by
    intro id commit target here works
    have sound := inv.sound id commit here
    rw [Sound] at sound
    cases phase : commit.phase with
    | opening target =>
      rw [phase] at sound
      exact sound.1.locked
    | writing target writes storedAccount merged =>
      rw [phase] at sound
      exact sound.1.locked
    | waiting manager =>
      rw [phase] at works
      cases works
    | settled result =>
      rw [phase] at works
      cases works
  exact Holder.commit.inj (Option.some.inj ((locked there too).symm.trans (locked here works)))

end Inv

structure SameManagers (s after : State) : Prop where
  active : after.activeAccountManager = s.activeAccountManager
  managers : after.managers.length = s.managers.length
  redirects : after.runtimeRefreshManagerRedirects = s.runtimeRefreshManagerRedirects
  accounts : ∀ manager, after.accountsOf manager = s.accountsOf manager

theorem Sound.same {s after : State} {id : ℕ} {commit : PendingCommit} (sound : Sound s id commit) (same : SameManagers s after)
    (rows : ∀ ref, Alike (s.row ref) (after.row ref))
    (lock : s.runtimeCredentialLocks s.activeAccountManager = some (.commit id) →
      after.runtimeCredentialLocks s.activeAccountManager = some (.commit id))
    (file : s.transaction = some id → after.transaction = some id ∧ after.storage = s.storage)
    (awaited : ¬ commit.phase.unsettled → Awaited after id → Awaited s id) : Sound after id commit := by
  have working : ∀ {target}, Working s id target → Working after id target := by
    intro target works
    exact ⟨works.active.trans same.active.symm,by rw [same.active,same.accounts]; exact works.listed,by rw [same.active]; exact lock works.locked⟩
  unfold Sound at sound ⊢
  cases phase : commit.phase with
  | waiting manager =>
    rw [phase] at sound
    dsimp only at sound ⊢
    rw [same.active,same.accounts]
    exact sound
  | opening target =>
    rw [phase] at sound
    dsimp only at sound ⊢
    rw [(rows target.account).credential]
    exact ⟨working sound.1,sound.2⟩
  | writing target writes storedAccount merged =>
    rw [phase] at sound
    obtain ⟨works,transaction,planned,live,auth,holds,opened,unknown⟩ := sound
    obtain ⟨holding,kept⟩ := file transaction
    exact ⟨working works,holding,planned,live,auth,holds.alike (rows target.account),opened.trans (by rw [kept]),fun current there =>
      unknown current (kept.symm.trans there)⟩
  | settled result =>
    rw [phase] at sound awaited
    cases result with
    | error error => trivial
    | ok result =>
      intro waits
      rcases sound (awaited (fun unsettled => unsettled) waits) with skipped | ⟨ref,account,active,listed,enabled,access⟩
      · exact .inl skipped
      · refine .inr ⟨ref,account,active.trans same.active.symm,?_,(rows ref).isDisabled.trans enabled,?_⟩
        · rw [same.active,same.accounts]
          exact listed
        · rw [(rows ref).accessToken]
          exact access

theorem Inv.same {s after : State} (inv : Inv s) (same : SameManagers s after) (calls : after.calls = s.calls) (commits : after.commits = s.commits)
    (queues : after.runtimeRefreshCommitQueues = s.runtimeRefreshCommitQueues)
    (sound : ∀ id commit, s.commits id = some commit → Sound after id commit) : Inv after where
  active := by
    rw [same.active,same.managers]
    exact inv.active
  latest := by
    rw [same.active,same.redirects]
    exact inv.latest
  ahead := by
    rw [same.active,same.redirects]
    exact inv.ahead
  refreshing := by
    intro id call initialTarget refreshCredential known here phase
    rw [calls] at here
    rw [same.accounts,commits]
    exact inv.refreshing id call initialTarget refreshCredential known here phase
  made := by
    rw [commits,calls]
    exact inv.made
  queued := by
    rw [queues,commits]
    exact inv.queued
  sound := by
    rw [commits]
    exact sound

end

end CodexMultiAuth.TokenRefresh
