import CodexMultiAuth.TokenRefreshLaw

/-!
The invariant of the token refreshes is kept by every action that takes care: calls, commits, and what else
goes on with the accounts and the file.
-/
namespace CodexMultiAuth.TokenRefresh
open Function
open RefreshCommit (Account Pool PersistError RefreshedAuth Commit getAccountByIdentity isRescuable)
open RefreshLease (TokenFailure)
set_option linter.unusedSectionVars false

section
variable [Host]

theorem row_update (s : State) (ref : ℕ) (change : Account → Account) (other : ℕ) :
    (s.update ref change).row other = if other = ref then (change (s.object ref)).row else s.row other := by
  simp only [State.row,State.update,update_apply]
  split <;> rfl

theorem Sound.idle {s after : State} {id : ℕ} {commit : PendingCommit} (sound : Sound s id commit) (here : s.commits id = some commit)
    (same : SameManagers s after) (calls : after.calls = s.calls) (free : commit.phase.target = none) (quiet : ¬ Handing s) :
    Sound after id commit := by
  unfold Sound at sound ⊢
  cases phase : commit.phase with
  | waiting manager =>
    rw [phase] at sound
    dsimp only at sound ⊢
    rw [same.active,same.accounts]
    exact sound
  | opening target =>
    rw [phase] at free
    cases free
  | writing target writes storedAccount merged =>
    rw [phase] at free
    cases free
  | settled result =>
    cases result with
    | error error => trivial
    | ok result =>
      rintro ⟨caller,call,latestTarget,access,waits,at_commit⟩
      rw [calls] at waits
      exact absurd ⟨id,commit,result,here,phase,caller,call,latestTarget,access,waits,at_commit⟩ quiet

namespace Inv
variable {s : State} {id : ℕ}

theorem setCall (inv : Inv s) {call : Call}
    (refreshing : ∀ initialTarget refreshCredential known, call.phase = .refreshing initialTarget refreshCredential known →
      initialTarget.account ∈ s.accountsOf initialTarget.accountManager ∧ refreshCredential ∈ known ∧ s.commits id = none)
    (committing : ∀ commit latestTarget access, call.phase = .committing commit latestTarget access →
      ∃ pending, s.commits commit = some pending ∧ pending.phase.unsettled) : Inv (s.setCall id call) where
  active := inv.active
  latest := inv.latest
  ahead := inv.ahead
  refreshing := by
    intro other found initialTarget refreshCredential known here phase
    simp only [State.setCall,update_apply] at here
    split at here
    · next same =>
      obtain rfl := Option.some.inj here
      rw [same]
      exact refreshing _ _ _ phase
    · exact inv.refreshing other found _ _ _ here phase
  made := by
    intro other commit there
    simp only [State.setCall,update_apply]
    split
    · rfl
    · exact inv.made other commit there
  queued := inv.queued
  sound := by
    intro other commit there
    refine (inv.sound other commit there).same ⟨rfl,rfl,rfl,fun _ => rfl⟩ (fun _ => Alike.refl _) (fun held => held) (fun held => ⟨held,rfl⟩) ?_
    rintro idle ⟨caller,found,latestTarget,access,here,phase⟩
    simp only [State.setCall,update_apply] at here
    split at here
    · obtain rfl := Option.some.inj here
      obtain ⟨pending,same,unsettled⟩ := committing _ _ _ phase
      obtain rfl := Option.some.inj (there.symm.trans same)
      exact absurd unsettled idle
    · exact ⟨caller,found,latestTarget,access,here,phase⟩

theorem answer (inv : Inv s) (call : Call) (result : Result) : Inv (s.answer id call result) :=
  inv.setCall (fun _ _ _ phase => nomatch phase) (fun _ _ _ phase => nomatch phase)

theorem update (inv : Inv s) {ref : ℕ} {change : Account → Account} (alike : Alike (s.row ref) (change (s.object ref)).row) :
    Inv (s.update ref change) := by
  have rows : ∀ other, Alike (s.row other) ((s.update ref change).row other) := by
    intro other
    rw [row_update]
    split
    · next same =>
      rw [same]
      exact alike
    · exact Alike.refl _
  exact inv.same ⟨rfl,rfl,rfl,fun _ => rfl⟩ rfl rfl rfl (fun other commit there =>
    (inv.sound other commit there).same ⟨rfl,rfl,rfl,fun _ => rfl⟩ rows (fun held => held) (fun held => ⟨held,rfl⟩) (fun _ waits => waits))

theorem enqueue (inv : Inv s) {call : Call} {commit : PendingCommit} {manager : ℕ} {key : String} {latestTarget : Target} {access : String}
    (queue : commit.source.accountManager = manager) (keyed : commit.key = key) (fresh : s.commits id = none)
    (phase : call.phase = .committing id latestTarget access) (waits : commit.phase = .waiting manager)
    (listed : commit.source.account ∈ s.accountsOf manager) :
    Inv (({ s with
        runtimeRefreshCommitQueues := Function.update s.runtimeRefreshCommitQueues manager
          ((s.runtimeRefreshCommitQueues manager).put key id) }.setCommit id commit).setCall id call) where
  active := inv.active
  latest := inv.latest
  ahead := inv.ahead
  refreshing := by
    intro other found initialTarget refreshCredential known here at_refresh
    simp only [State.setCall,State.setCommit,update_apply] at here ⊢
    split at here
    · obtain rfl := Option.some.inj here
      cases phase.symm.trans at_refresh
    · next apart =>
      rw [if_neg apart]
      exact inv.refreshing other found _ _ _ here at_refresh
  made := by
    intro other pending there
    simp only [State.setCall,State.setCommit,update_apply] at there ⊢
    split
    · rfl
    · next apart =>
      rw [if_neg apart] at there
      exact inv.made other pending there
  queued := by
    intro place text other found
    have kept : (s.runtimeRefreshCommitQueues place).find text = some other →
        ∃ pending, Function.update s.commits id (some commit) other = some pending ∧ pending.phase.unsettled ∧
          pending.source.accountManager = place ∧ pending.key = text := by
      intro before
      obtain ⟨pending,there,rest⟩ := inv.queued place text other before
      have apart : other ≠ id := by
        rintro rfl
        exact nomatch there.symm.trans fresh
      exact ⟨pending,by rw [update_of_ne apart]; exact there,rest⟩
    simp only [State.setCall,State.setCommit] at found ⊢
    rw [update_apply] at found
    split at found
    · next same =>
      rw [OrderedMap.find_put] at found
      split at found
      · next own =>
        obtain rfl := Option.some.inj found
        refine ⟨commit,update_self _ _ _,?_,queue.trans same.symm,keyed.trans own⟩
        rw [waits]
        trivial
      · exact kept (same ▸ found)
    · exact kept found
  sound := by
    intro other pending there
    simp only [State.setCall,State.setCommit,update_apply] at there
    split at there
    · obtain rfl := Option.some.inj there
      unfold Sound
      rw [waits]
      exact ⟨inv.published listed,queue.symm ▸ listed⟩
    · next apart =>
      refine (inv.sound other pending there).same ⟨rfl,rfl,rfl,fun _ => rfl⟩ (fun _ => Alike.refl _) (fun held => held) (fun held => ⟨held,rfl⟩) ?_
      rintro - ⟨caller,found,target,token,here,waiting⟩
      simp only [State.setCall,State.setCommit,update_apply] at here
      split at here
      · obtain rfl := Option.some.inj here
        exact absurd (Phase.committing.inj (phase.symm.trans waiting)).1.symm apart
      · exact ⟨caller,found,target,token,here,waiting⟩

end Inv

theorem Inv.start {s : State} (inv : Inv s) {id : ℕ} {params : Params} (may : enabled s (.start id params)) : Inv (step s (.start id params)) := by
  have fresh : s.commits id = none := by
    cases here : s.commits id with
    | none => rfl
    | some commit =>
      have made := inv.made id commit here
      rw [may.1] at made
      cases made
  refine inv.setCall ?_ ?_
  · intro initialTarget refreshCredential known phase
    simp only [State.ensureFreshAccessToken] at phase
    split at phase
    · cases phase
    · next target found =>
      split at phase
      · cases phase
      · split at phase
        · cases phase
        · obtain ⟨rfl,rfl,rfl⟩ := Phase.refreshing.inj phase
          obtain ⟨active,listed⟩ := inv.target may.2 found
          exact ⟨active ▸ listed,List.mem_cons_self,fresh⟩
  · intro commit latestTarget access phase
    simp only [State.ensureFreshAccessToken] at phase
    split at phase
    · cases phase
    · split at phase
      · cases phase
      · split at phase <;> cases phase

theorem Inv.refreshed {s : State} (inv : Inv s) (id : ℕ) (refreshResult : Except TokenFailure RefreshedAuth) (clock : ℚ) :
    Inv (step s (.refreshed id refreshResult clock)) := by
  simp only [step]
  split
  · next params initialTarget refreshCredential known here =>
    obtain ⟨listed,-,fresh⟩ := inv.refreshing id _ _ _ _ here rfl
    simp only [State.continueRefreshed]
    split
    · exact inv.answer _ _
    · next latestTarget found =>
      obtain ⟨active,there⟩ := inv.target listed found
      split
      · exact inv.answer _ _
      · split
        · split <;> exact inv.answer _ _
        · split
          · next auth =>
            have resolved : s.resolveRuntimeRefreshCommitManager latestTarget.accountManager = s.activeAccountManager :=
              inv.resolves (le_of_eq active)
            simp only [State.commitRefreshedAuthOnce,resolved]
            split
            · next existing queue =>
              refine inv.setCall (fun _ _ _ phase => nomatch phase) ?_
              intro commit target access phase
              obtain ⟨rfl,-,-⟩ := Phase.committing.inj phase
              obtain ⟨pending,same,unsettled,-⟩ := inv.queued _ _ _ queue
              exact ⟨pending,same,unsettled⟩
            · exact inv.enqueue rfl rfl fresh rfl rfl there
          · split
            · exact inv.answer _ _
            · exact (inv.update (recordAuthFailure_alike _ _ _ _)).answer _ _
  · exact inv

theorem Inv.finish {s : State} (inv : Inv s) (id : ℕ) (clock : ℚ) : Inv (step s (.finish id clock)) := by
  simp only [step]
  split
  · split
    · split
      · simp only [State.continueCommitted]
        split
        · split
          · exact inv.answer _ _
          · split <;> exact inv.answer _ _
        · exact (inv.update (markAccountCoolingDown_alike _ _ _ _)).answer _ _
      · exact inv
    · exact inv
  · exact inv

namespace Inv
variable {s : State} {id : ℕ}
variable {commit : PendingCommit}

theorem replace {after : State} (inv : Inv s) (next : PendingCommit) (here : s.commits id = some commit) (same : SameManagers s after)
    (calls : after.calls = s.calls) (commits : after.commits = Function.update s.commits id (some next))
    (queued : ∀ manager key other, (after.runtimeRefreshCommitQueues manager).find key = some other →
      (s.runtimeRefreshCommitQueues manager).find key = some other ∧
        (other = id → next.phase.unsettled ∧ next.source = commit.source ∧ next.key = commit.key))
    (sound : Sound after id next) (others : ∀ other pending, other ≠ id → s.commits other = some pending → Sound after other pending) :
    Inv after where
  active := by
    rw [same.active,same.managers]
    exact inv.active
  latest := by
    rw [same.active,same.redirects]
    exact inv.latest
  ahead := by
    rw [same.active,same.redirects]
    exact inv.ahead
  refreshing := by
    intro other call initialTarget refreshCredential known there phase
    rw [calls] at there
    obtain ⟨listed,read,fresh⟩ := inv.refreshing other call _ _ _ there phase
    have apart : other ≠ id := by
      rintro rfl
      exact nomatch here.symm.trans fresh
    rw [same.accounts,commits,update_of_ne apart]
    exact ⟨listed,read,fresh⟩
  made := by
    intro other pending there
    rw [calls]
    rw [commits,update_apply] at there
    split at there
    · next own =>
      rw [own]
      exact inv.made id commit here
    · exact inv.made other pending there
  queued := by
    intro manager key other found
    obtain ⟨before,own⟩ := queued manager key other found
    obtain ⟨pending,there,unsettled,source,text⟩ := inv.queued manager key other before
    rw [commits]
    by_cases apart : other = id
    · obtain ⟨waits,from_,keyed⟩ := own apart
      subst apart
      obtain rfl := Option.some.inj (here.symm.trans there)
      exact ⟨next,update_self _ _ _,waits,from_ ▸ source,keyed.trans text⟩
    · exact ⟨pending,by rw [update_of_ne apart]; exact there,unsettled,source,text⟩
  sound := by
    intro other pending there
    rw [commits,update_apply] at there
    split at there
    · next own =>
      obtain rfl := Option.some.inj there
      rw [own]
      exact sound
    · next apart => exact others other pending apart there

theorem settle {t : State} (inv : Inv s) (here : s.commits id = some commit) (same : SameManagers s t)
    (calls : t.calls = s.calls) (commits : t.commits = s.commits) (queues : t.runtimeRefreshCommitQueues = s.runtimeRefreshCommitQueues)
    {result : Except PersistError RuntimeRefreshCommitResult} (ready : ∀ committed, result = .ok committed → Ready t committed)
    (others : ∀ other pending, other ≠ id → s.commits other = some pending → Sound (t.settle id commit result) other pending) :
    Inv (t.settle id commit result) := by
  refine inv.replace { commit with phase := .settled result } here ⟨same.active,same.managers,same.redirects,same.accounts⟩ calls ?_ ?_ ?_ others
  · simp only [State.settle,State.release,State.setCommit,commits]
  · intro manager key other found
    simp only [State.settle,queues,update_apply] at found
    split at found
    · next own =>
      rw [OrderedMap.find_remove] at found
      split at found
      · cases found
      · next apart =>
        refine ⟨own ▸ found,?_⟩
        rintro rfl
        obtain ⟨pending,there,-,-,text⟩ := inv.queued _ key other (own ▸ found)
        obtain rfl := Option.some.inj (here.symm.trans there)
        exact absurd text apart
    · next apart =>
      refine ⟨found,?_⟩
      rintro rfl
      obtain ⟨pending,there,-,source,-⟩ := inv.queued manager key other found
      obtain rfl := Option.some.inj (here.symm.trans there)
      exact absurd source.symm apart
  · cases result with
    | error error => trivial
    | ok committed => exact fun _ => ready committed rfl

theorem locked_other {manager other : ℕ} {holder : Holder} (free : s.runtimeCredentialLocks manager = none) (apart : holder ≠ .commit other)
    (held : s.runtimeCredentialLocks s.activeAccountManager = some (.commit other)) :
    (s.setLock manager holder).runtimeCredentialLocks s.activeAccountManager = some (.commit other) ∧
      ((s.setLock manager holder).release holder).runtimeCredentialLocks s.activeAccountManager = some (.commit other) := by
  have elsewhere : s.activeAccountManager ≠ manager := by
    rintro rfl
    exact nomatch held.symm.trans free
  have kept : (s.setLock manager holder).runtimeCredentialLocks s.activeAccountManager = some (.commit other) := by
    simp only [State.setLock]
    rw [update_of_ne elsewhere]
    exact held
  refine ⟨kept,?_⟩
  simp only [State.release]
  rw [if_neg]
  · exact kept
  · rw [kept]
    exact fun same => apart (Option.some.inj same).symm

theorem takeLock (inv : Inv s) {manager : ℕ} (here : s.commits id = some commit) (waits : commit.phase = .waiting manager)
    (free : s.runtimeCredentialLocks manager = none) (careful : Careful s (.lock id)) : Inv (s.takeLock id commit manager) := by
  have sound := inv.sound id commit here
  unfold Sound at sound
  rw [waits] at sound
  obtain ⟨published,listed⟩ := sound
  have resolved := inv.resolves published
  have others : ∀ phase : CommitPhase, ∀ other pending, other ≠ id → s.commits other = some pending →
      Sound ((s.setLock manager (.commit id)).setCommit id { commit with phase := phase }) other pending := by
    intro phase other pending apart there
    refine (inv.sound other pending there).same ⟨rfl,rfl,rfl,fun _ => rfl⟩ (fun _ => Alike.refl _) ?_ (fun held => ⟨held,rfl⟩) (fun _ awaited => awaited)
    exact fun held => (locked_other free (fun same => apart (Holder.commit.inj same).symm) held).1
  have settles : ∀ result, (∀ committed, result = .ok committed → Ready s committed) →
      Inv ((s.setLock manager (.commit id)).settle id commit result) := by
    intro result ready
    refine inv.settle (t := s.setLock manager (.commit id)) here ⟨rfl,rfl,rfl,fun _ => rfl⟩ rfl rfl rfl ready ?_
    intro other pending apart there
    refine (inv.sound other pending there).same ⟨rfl,rfl,rfl,fun _ => rfl⟩ (fun _ => Alike.refl _) ?_ (fun held => ⟨held,rfl⟩) (fun _ awaited => awaited)
    exact fun held => (locked_other free (fun same => apart (Holder.commit.inj same).symm) held).2
  have rephased : ∀ phase : CommitPhase, phase.unsettled →
      Sound ((s.setLock manager (.commit id)).setCommit id { commit with phase := phase }) id { commit with phase := phase } →
      Inv ((s.setLock manager (.commit id)).setCommit id { commit with phase := phase }) := fun phase unsettled sound =>
    inv.replace _ here ⟨rfl,rfl,rfl,fun _ => rfl⟩ rfl rfl (fun _ _ _ found => ⟨found,fun _ => ⟨unsettled,rfl,rfl⟩⟩) sound (others phase)
  simp only [State.takeLock]
  split
  · refine rephased _ trivial ?_
    rw [resolved]
    exact ⟨le_rfl,listed⟩
  · next current =>
    have active : manager = s.activeAccountManager := (not_not.mp current).symm.trans resolved
    obtain ⟨target,found,condition⟩ := careful commit manager here waits (not_not.mp current)
    obtain ⟨resident,member⟩ := inv.target listed found
    rw [found]
    dsimp only
    split
    · refine settles _ ?_
      rintro committed same
      obtain rfl := Except.ok.inj same
      exact .inl rfl
    · next enabled =>
      rw [Bool.not_eq_true] at enabled
      replace condition := condition.resolve_left (by rw [enabled]; exact Bool.false_ne_true)
      split
      · next replaced =>
        rw [if_neg replaced] at condition
        refine settles _ ?_
        rintro committed same
        obtain rfl := Except.ok.inj same
        exact .inr ⟨target.account,rfl,resident,member,enabled,condition⟩
      · next kept =>
        rw [if_pos (not_not.mp kept)] at condition
        refine rephased _ trivial ⟨⟨resident,member,?_⟩,condition⟩
        simp only [State.setCommit,State.setLock,active]
        exact update_self _ _ _

end Inv

theorem accountsOf_modify {s after : State} {place : ℕ} {change : AccountManager → AccountManager}
    (same : after.managers = s.managers.modify place change) (kept : ∀ manager, (change manager).accounts = manager.accounts) (manager : ℕ) :
    after.accountsOf manager = s.accountsOf manager := by
  simp only [State.accountsOf,same,List.getElem?_modify]
  cases s.managers[manager]? with
  | none => simp
  | some found =>
    simp only [Option.map_eq_map,Option.map_some]
    split
    · exact kept found
    · rfl

namespace Inv
variable {s : State} {id : ℕ}
variable {commit : PendingCommit}

theorem conclude {t : State} (inv : Inv s) {target : Target} (here : s.commits id = some commit)
    (busy : commit.phase.target = some target) (works : Working s id target) (quiet : ¬ Handing s) (same : SameManagers s t)
    (calls : t.calls = s.calls) (commits : t.commits = s.commits) (queues : t.runtimeRefreshCommitQueues = s.runtimeRefreshCommitQueues)
    {auth : OAuthAuthDetails} {result : RefreshCommit.Result}
    (outcome : (∃ error, result.outcome = .error error) ∨
      result.outcome = .ok (some target.account) ∧ Holds auth (result.pool.object target.account).row) :
    Inv (t.conclude id commit target result) := by
  refine inv.settle (t := { t with object := result.pool.object,journal := result.journal }) here
    ⟨same.active,same.managers,same.redirects,same.accounts⟩ calls commits queues ?_ ?_
  · intro committed settled
    rcases outcome with ⟨error,failed⟩ | ⟨done,holds⟩
    · rw [failed] at settled
      cases settled
    · rw [done] at settled
      obtain rfl := Except.ok.inj settled
      refine .inr ⟨target.account,rfl,works.active.trans same.active.symm,?_,holds.enabled,?_⟩
      · have listed := works.listed
        rw [← same.accounts,← same.active] at listed
        exact listed
      · have access : (result.pool.object target.account).row.accessToken.isSome := by
          rw [holds.accessToken]
          rfl
        exact access
  · intro other pending apart there
    refine (inv.sound other pending there).idle there ⟨same.active,same.managers,same.redirects,same.accounts⟩ calls ?_ quiet
    cases free : pending.phase.target with
    | none => rfl
    | some beside => exact absurd (inv.alone here busy there free) apart

theorem openStorage (inv : Inv s) {target : Target} {now : ℚ} {failed : Option PersistError} {reset journalFails : Bool}
    (here : s.commits id = some commit) (opens : commit.phase = .opening target)
    (careful : Careful s (.openStorage id now failed reset journalFails)) :
    Inv (s.openStorage id commit target (s.opened commit target now failed reset journalFails)) := by
  have sound := inv.sound id commit here
  unfold Sound at sound
  rw [opens] at sound
  obtain ⟨works,-⟩ := sound
  have busy : commit.phase.target = some target := by rw [opens]; rfl
  obtain ⟨quiet,condition⟩ := careful
  obtain ⟨resolves,unknown⟩ := condition commit target here opens
  have auth : (s.opened commit target now failed reset journalFails).auth = commit.auth := rfl
  have unrejected : (s.opened commit target now failed reset journalFails).rejected = none := rfl
  have read : ∀ storedAccount merged, (s.opened commit target now failed reset journalFails).plan = .writes storedAccount merged →
      (s.opened commit target now failed reset journalFails).opened = .ok s.storage := by
    intro storedAccount merged planned
    cases failed with
    | none => rfl
    | some error => cases planned
  generalize s.opened commit target now failed reset journalFails = writes at resolves unknown auth unrejected read
  simp only [State.openStorage]
  split
  · next storedAccount merged planned =>
    have live := (resolves.found ((Commit.rejection_writes planned).trans unrejected)).2
    have holds := (begun_holds live).1
    rw [auth] at holds
    refine inv.replace _ here ⟨rfl,rfl,rfl,fun _ => rfl⟩ rfl rfl (fun _ _ _ found => ⟨found,fun _ => ⟨trivial,rfl,rfl⟩⟩) ?_ ?_
    · exact ⟨⟨works.active,works.listed,works.locked⟩,⟨rfl,planned,live,auth,holds,read storedAccount merged planned,unknown⟩⟩
    · intro other pending apart there
      refine (inv.sound other pending there).idle there ⟨rfl,rfl,rfl,fun _ => rfl⟩ rfl ?_ quiet
      cases free : pending.phase.target with
      | none => rfl
      | some beside => exact absurd (inv.alone here busy there free) apart
  · next early =>
    exact inv.conclude here busy works quiet ⟨rfl,rfl,rfl,fun _ => rfl⟩ rfl rfl rfl (commit_early resolves early).outcome

section
variable (inv : Inv s) {target : Target} {writes : Commit} {storedAccount : AccountMetadataV3} {merged : AccountStorageV3} {rejected : Option PersistError}
  (here : s.commits id = some commit) (waits : commit.phase = .writing target writes storedAccount merged) (careful : Careful s (.written id rejected))
include inv here waits careful

/-- A commit whose write is back concludes as it would have at once. -/
theorem concluded : Working s id target ∧ Writing s id commit target writes storedAccount merged ∧
    Concluded (resumed s target writes rejected) target.account s.object (resumed s target writes rejected).commitRefreshedAuth := by
  have sound := inv.sound id commit here
  unfold Sound at sound
  rw [waits] at sound
  obtain ⟨works,writing⟩ := sound
  have holds : Holds writes.auth.val ((resumed s target writes rejected).later.object target.account).row := by
    rw [writing.auth]
    exact writing.holds
  exact ⟨works,writing,commit_late writing.planned writing.live (careful.2 commit target writes storedAccount merged here waits) holds⟩

theorem written : Inv (s.written id commit target writes merged rejected) := by
  obtain ⟨works,-,concluded⟩ := inv.concluded here waits careful
  have busy : commit.phase.target = some target := by rw [waits]; rfl
  simp only [State.written]
  refine inv.conclude here busy works careful.1 ?_ ?_ ?_ ?_ concluded.outcome
  · cases rejected with
    | some error => exact ⟨rfl,rfl,rfl,fun _ => rfl⟩
    | none => exact ⟨rfl,List.length_modify _ _ _,rfl,accountsOf_modify rfl (fun _ => rfl)⟩
  all_goals cases rejected <;> rfl

end

/-! ### What else goes on -/

section
variable (inv : Inv s)
include inv

theorem file {storage : Option AccountStorageV3} {managers : List AccountManager} (free : s.transaction = none)
    (length : managers.length = s.managers.length)
    (accounts : ∀ manager, ({ s with storage := storage,managers := managers } : State).accountsOf manager = s.accountsOf manager) :
    Inv { s with storage := storage,managers := managers } := by
  have same : SameManagers s { s with storage := storage,managers := managers } := ⟨rfl,length,rfl,accounts⟩
  refine inv.same same rfl rfl rfl (fun other pending there => ?_)
  exact (inv.sound other pending there).same same (fun _ => Alike.refl _) (fun held => held) (fun held => nomatch held.symm.trans free)
    (fun _ awaited => awaited)

theorem saved (manager : ℕ) (runtimeOnConflict : Bool) (free : s.transaction = none) : Inv (s.saved manager runtimeOnConflict) := by
  simp only [State.saved]
  split
  · exact inv
  · exact inv.file free (List.length_modify _ _ _) (accountsOf_modify rfl (fun _ => rfl))

theorem sync {locks : ℕ → Option Holder} (syncs : ℕ → Option ℕ)
    (kept : ∀ other, s.runtimeCredentialLocks s.activeAccountManager = some (.commit other) → locks s.activeAccountManager = some (.commit other)) :
    Inv { s with runtimeCredentialLocks := locks,syncs := syncs } :=
  inv.same ⟨rfl,rfl,rfl,fun _ => rfl⟩ rfl rfl rfl (fun other pending there =>
    (inv.sound other pending there).same ⟨rfl,rfl,rfl,fun _ => rfl⟩ (fun _ => Alike.refl _) (kept other) (fun held => ⟨held,rfl⟩)
      (fun _ awaited => awaited))

theorem listed_publish (loaded : Manager) {manager ref : ℕ} (listed : ref ∈ s.accountsOf manager) :
    ref ∈ (s.publish loaded).accountsOf manager := by
  have inside : manager < s.managers.length := by
    have := inv.published listed
    have := inv.active
    omega
  simp only [State.accountsOf,State.publish,List.getElem?_append_left inside]
  exact listed

theorem publish (idle : Idle s) (loaded : Manager) : Inv (s.publish loaded) where
  active := by
    simp only [State.publish,List.length_append,List.length_singleton]
  latest := by
    intro manager beyond
    have beyond : s.managers.length ≤ manager := beyond
    have last := inv.active
    simp only [State.publish]
    rw [OrderedMap.find_put,if_neg (by omega)]
    exact inv.latest manager (by omega)
  ahead := by
    intro manager before
    have before : manager < s.managers.length := before
    have last := inv.active
    simp only [State.publish]
    rw [OrderedMap.find_put]
    split
    · exact ⟨s.managers.length,rfl,before,le_rfl⟩
    · obtain ⟨next,found,further,within⟩ := inv.ahead manager (by omega)
      exact ⟨next,found,further,by omega⟩
  refreshing := by
    intro other call initialTarget refreshCredential known there phase
    obtain ⟨listed,rest⟩ := inv.refreshing other call _ _ _ there phase
    exact ⟨inv.listed_publish loaded listed,rest⟩
  made := inv.made
  queued := inv.queued
  sound := by
    intro other pending there
    have sound := inv.sound other pending there
    have free := idle.2 other pending there
    unfold Sound at sound ⊢
    cases phase : pending.phase with
    | waiting manager =>
      rw [phase] at sound
      have last := inv.active
      exact ⟨le_trans sound.1 (by simp only [State.publish]; omega),inv.listed_publish loaded sound.2⟩
    | opening target =>
      rw [phase] at free
      cases free
    | writing target writes storedAccount merged =>
      rw [phase] at free
      cases free
    | settled result =>
      cases result with
      | error error => trivial
      | ok result => exact fun awaited => absurd ⟨other,pending,result,there,phase,awaited⟩ idle.1

theorem synced (idle : Idle s) (disk : AccountStorageV3) : Inv (s.synced disk) := by
  simp only [State.synced]
  split
  · exact inv.same ⟨rfl,rfl,rfl,fun _ => rfl⟩ rfl rfl rfl (fun other pending there =>
      (inv.sound other pending there).idle there ⟨rfl,rfl,rfl,fun _ => rfl⟩ rfl (idle.2 other pending there) idle.1)
  · exact inv.publish idle _

theorem setAccountEnabled {manager index : ℕ} {enabled : Bool} (careful : Careful s (.setAccountEnabled manager index enabled)) :
    Inv (step s (.setAccountEnabled manager index enabled)) := by
  obtain ⟨quiet,condition⟩ := careful
  simp only [step]
  split
  · next ref here =>
    refine inv.same ⟨rfl,rfl,rfl,fun _ => rfl⟩ rfl rfl rfl (fun other pending there => ?_)
    have sound := inv.sound other pending there
    unfold Sound at sound ⊢
    cases phase : pending.phase with
    | waiting waits =>
      rw [phase] at sound
      exact sound
    | opening target =>
      rw [phase] at sound
      refine ⟨⟨sound.1.active,sound.1.listed,sound.1.locked⟩,?_⟩
      rw [row_update]
      split
      · next same =>
        have kept : ∀ row : AccountMetadataV3, credential (if enabled = true then row.remove "enabled" else row.put "enabled" (.bool false)) =
            credential row := by
          intro row
          split <;> simp [credential]
        exact (kept _).symm ▸ same ▸ sound.2
      · exact sound.2
    | writing target writes storedAccount merged =>
      rw [phase] at sound
      obtain ⟨works,writing⟩ := sound
      refine ⟨⟨works.active,works.listed,works.locked⟩,⟨writing.transaction,writing.planned,writing.live,writing.auth,?_,writing.opened,writing.unknown⟩⟩
      rw [row_update,if_neg (condition other pending target writes storedAccount merged ref there phase here).symm]
      exact writing.holds
    | settled result =>
      cases result with
      | error error => trivial
      | ok result => exact fun awaited => absurd ⟨other,pending,result,there,phase,awaited⟩ quiet
  · exact inv

theorem removeAccount {manager index : ℕ} (careful : Careful s (.removeAccount manager index)) :
    Inv (step s (.removeAccount manager index)) := by
  obtain ⟨quiet,condition⟩ := careful
  have listed : ∀ {place ref}, ref ∈ s.accountsOf place → (∀ gone, (s.accountsOf manager)[index]? = some gone → ref ≠ gone) →
      ref ∈ (step s (.removeAccount manager index)).accountsOf place := by
    intro place ref member apart
    simp only [step,State.accountsOf,List.getElem?_modify] at member apart ⊢
    cases found : s.managers[place]? with
    | none =>
      rw [found] at member
      cases member
    | some there =>
      rw [found] at member
      simp only [Option.map_eq_map,Option.map_some]
      split
      · next same =>
        subst same
        rw [found] at apart
        obtain ⟨at_,here⟩ := List.getElem?_of_mem member
        refine List.mem_eraseIdx_iff_getElem?.mpr ⟨at_,?_,here⟩
        rintro rfl
        exact apart ref here rfl
      · exact member
  refine ⟨inv.active.trans (List.length_modify _ _ _).symm,inv.latest,inv.ahead,?_,inv.made,inv.queued,?_⟩
  · intro other call initialTarget refreshCredential known there phase
    obtain ⟨member,rest⟩ := inv.refreshing other call _ _ _ there phase
    exact ⟨listed member (fun gone here => (condition gone here).1 other call _ _ _ there phase),rest⟩
  · intro other pending there
    have sound := inv.sound other pending there
    unfold Sound at sound ⊢
    cases phase : pending.phase with
    | waiting waits =>
      rw [phase] at sound
      exact ⟨sound.1,listed sound.2 (fun gone here => ((condition gone here).2 other pending there).1 waits phase)⟩
    | opening target =>
      rw [phase] at sound
      obtain ⟨works,known⟩ := sound
      have apart := fun gone here => ((condition gone here).2 other pending there).2 target (by rw [phase]; rfl)
      exact ⟨⟨works.active,listed works.listed apart,works.locked⟩,known⟩
    | writing target writes storedAccount merged =>
      rw [phase] at sound
      obtain ⟨works,writing⟩ := sound
      have apart := fun gone here => ((condition gone here).2 other pending there).2 target (by rw [phase]; rfl)
      exact ⟨⟨works.active,listed works.listed apart,works.locked⟩,
        ⟨writing.transaction,writing.planned,writing.live,writing.auth,writing.holds,writing.opened,writing.unknown⟩⟩
    | settled result =>
      cases result with
      | error error => trivial
      | ok result => exact fun awaited => absurd ⟨other,pending,result,there,phase,awaited⟩ quiet

end

end Inv

theorem Inv.step {s : State} (inv : Inv s) {action : Action} (may : enabled s action) (careful : Careful s action) : Inv (step s action) := by
  cases action with
  | start id params => exact inv.start may
  | refreshed id refreshResult clock => exact inv.refreshed id refreshResult clock
  | lock id =>
    simp only [TokenRefresh.step]
    split
    · next commit here =>
      split
      · next manager waits => exact inv.takeLock here waits (may commit manager here waits) careful
      · exact inv
    · exact inv
  | openStorage id now failed reset journalFails =>
    simp only [TokenRefresh.step]
    split
    · next commit here =>
      split
      · next target opens => exact inv.openStorage here opens careful
      · exact inv
    · exact inv
  | written id rejected =>
    simp only [TokenRefresh.step]
    split
    · next commit here =>
      split
      · next target writes storedAccount merged waits => exact inv.written here waits careful
      · exact inv
    · exact inv
  | finish id clock => exact inv.finish id clock
  | sync id =>
    refine inv.sync _ (fun other held => ?_)
    exact nomatch held.symm.trans may.2
  | synced id disk =>
    have done : Inv { s.release (.sync id) with syncs := Function.update s.syncs id none } := by
      refine inv.sync _ (fun other held => ?_)
      have other_holder : s.runtimeCredentialLocks s.activeAccountManager ≠ some (.sync id) := by
        rw [held]
        exact fun same => nomatch Option.some.inj same
      exact (if_neg other_holder).trans held
    cases disk with
    | none => exact done
    | some disk => exact done.synced careful disk
  | reload loaded => exact inv.publish careful loaded
  | setAccountEnabled manager index enabled => exact inv.setAccountEnabled careful
  | removeAccount manager index => exact inv.removeAccount careful
  | observe ref account => exact inv.update (observed_alike account (s.object ref))
  | save manager runtimeOnConflict => exact inv.saved manager runtimeOnConflict may
  | outside storage => exact inv.file may rfl (fun _ => rfl)

end

end CodexMultiAuth.TokenRefresh
