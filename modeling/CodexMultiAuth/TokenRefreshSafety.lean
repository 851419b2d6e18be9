import CodexMultiAuth.TokenRefreshRuns

/-!
What calls return and what commits replace, in every run that takes care; and a run in which an account that
was removed is handed out.
-/
namespace CodexMultiAuth.TokenRefresh
open RefreshCommit (Account Pool PersistError RefreshedAuth Commit getAccountByIdentity)
open RefreshLease (TokenFailure)
open Runs (Legal)
set_option linter.unusedSectionVars false

section
variable [Host]

theorem not_returns {s after : State} (calls : after.calls = s.calls) {id : ℕ} {result : Result} : ¬ Returns s after id result := by
  rintro ⟨⟨call,here,phase⟩,before⟩
  rw [calls] at here
  exact before call result here phase

theorem returns_setCall {s t : State} (calls : t.calls = s.calls) {id other : ℕ} {call : Call} {result : Result}
    (returns : Returns s (t.setCall id call) other result) : call.phase = .returned result := by
  obtain ⟨⟨found,here,phase⟩,before⟩ := returns
  simp only [State.setCall,Function.update_apply,calls] at here
  split at here
  · obtain rfl := Option.some.inj here
    exact phase
  · exact absurd phase (before found result here)

theorem usable_token {row : AccountMetadataV3} {now skewMs : ℚ} (usable : hasUsableAccessToken row now skewMs = true) :
    row.accessToken = some (row.accessToken.getD "") := by
  rw [hasUsableAccessToken,Bool.and_eq_true] at usable
  cases token : row.accessToken with
  | none =>
    rw [token] at usable
    cases usable.1
  | some access => rfl

namespace Inv
variable {s : State}

theorem fresh_target (inv : Inv s) {source target : Target} (listed : source.account ∈ s.accountsOf source.accountManager)
    (found : s.resolveRuntimeRefreshTarget source = some target) (enabled : ¬ isDisabled (s.row target.account) = true) {now skewMs : ℚ}
    (usable : hasUsableAccessToken (s.row target.account) now skewMs = true) :
    Fresh s (.ok ((s.row target.account).accessToken.getD "") target) := by
  obtain ⟨active,member⟩ := inv.target listed found
  exact ⟨active,member,Bool.not_eq_true _ ▸ enabled,usable_token usable⟩

theorem start_fresh (inv : Inv s) {id : ℕ} {params : Params} (may : enabled s (.start id params)) {other : ℕ} {result : Result}
    (returns : Returns s (TokenRefresh.step s (.start id params)) other result) : Fresh s result := by
  have phase := returns_setCall rfl returns
  simp only [State.ensureFreshAccessToken] at phase
  split at phase
  · obtain rfl := Phase.returned.inj phase
    trivial
  · next target found =>
    split at phase
    · obtain rfl := Phase.returned.inj phase
      trivial
    · next enabled =>
      split at phase
      · next usable =>
        obtain rfl := Phase.returned.inj phase
        exact inv.fresh_target may.2 found enabled usable
      · cases phase

theorem refreshed_fresh (inv : Inv s) {id : ℕ} {call : Call} {initialTarget : Target} {refreshCredential : Credential} {known : List Credential}
    (listed : initialTarget.account ∈ s.accountsOf initialTarget.accountManager) {refreshResult : Except TokenFailure RefreshedAuth} {clock : ℚ}
    {other : ℕ} {accessToken : String} {target : Target} :
    Returns s (s.continueRefreshed id call initialTarget refreshCredential known refreshResult clock) other (.ok accessToken target) →
      Fresh (s.continueRefreshed id call initialTarget refreshCredential known refreshResult clock) (.ok accessToken target) := by
  simp only [State.continueRefreshed]
  split
  · intro returns
    cases returns_setCall rfl returns
  · next latestTarget found =>
    split
    · intro returns
      cases returns_setCall rfl returns
    · next enabled =>
      split
      · split
        · next usable =>
          intro returns
          obtain ⟨rfl,rfl⟩ := Result.ok.inj (Phase.returned.inj (returns_setCall rfl returns))
          exact inv.fresh_target listed found enabled usable
        · intro returns
          cases returns_setCall rfl returns
      · split
        · simp only [State.commitRefreshedAuthOnce]
          split
          all_goals
            intro returns
            cases returns_setCall rfl returns
        · split
          all_goals
            intro returns
            cases returns_setCall rfl returns

theorem committed_fresh {id : ℕ} {call : Call} {latestTarget : Target} {access : String}
    {committed : Except PersistError RuntimeRefreshCommitResult} (ready : ∀ result, committed = .ok result → Ready s result) {clock : ℚ} {other : ℕ}
    {accessToken : String} {target : Target} :
    Returns s (s.continueCommitted id call latestTarget access committed clock) other (.ok accessToken target) →
      Fresh (s.continueCommitted id call latestTarget access committed clock) (.ok accessToken target) := by
  simp only [State.continueCommitted]
  split
  · next result =>
    rcases ready result rfl with skipped | ⟨ref,account,active,member,enabled,token⟩
    · rw [if_pos skipped]
      intro returns
      cases returns_setCall rfl returns
    · split
      · intro returns
        cases returns_setCall rfl returns
      · rw [account]
        intro returns
        obtain ⟨rfl,rfl⟩ := Result.ok.inj (Phase.returned.inj (returns_setCall rfl returns))
        obtain ⟨text,here⟩ := Option.isSome_iff_exists.mp token
        exact ⟨active,member,enabled,by rw [here]; exact here⟩
  · intro returns
    cases returns_setCall rfl returns

end Inv

/-! ### What commits replace -/

theorem keeps_same {s after : State} {commit : PendingCommit} (object : after.object = s.object) (storage : after.storage = s.storage) :
    Keeps s after commit where
  live := by
    intro ref before now
    rw [State.row,object] at now
    exact absurd now before
  file := by
    intro target writes storedAccount merged current written row phase here there newer
    rw [storage,here] at there
    obtain rfl := Option.some.inj there
    exact ⟨row,newer.1,rfl⟩

theorem live_others {s after : State} {ref : ℕ} (others : SameOthers ref s.object after.object) {auth : Credential} {known : List Credential}
    (own : credential (s.row ref) ≠ auth → credential (s.row ref) ∈ known) (other : ℕ) (before : credential (s.row other) ≠ auth)
    (now : credential (after.row other) = auth) : credential (s.row other) ∈ known := by
  by_cases same : other = ref
  · subst same
    exact own before
  · exact absurd ((others other same).credential.symm.trans now) before

namespace Inv
variable {s : State} {id : ℕ}

theorem lock_keeps (commit pending : PendingCommit) (manager : ℕ) : Keeps s (s.takeLock id pending manager) commit := by
  have kept : (s.takeLock id pending manager).object = s.object ∧ (s.takeLock id pending manager).storage = s.storage := by
    simp only [State.takeLock]
    split
    · exact ⟨rfl,rfl⟩
    · split
      · exact ⟨rfl,rfl⟩
      · split
        · exact ⟨rfl,rfl⟩
        · split <;> exact ⟨rfl,rfl⟩
  exact keeps_same kept.1 kept.2

theorem openStorage_keeps (inv : Inv s) {commit : PendingCommit} {target : Target} {now : ℚ} {failed : Option PersistError}
    {reset journalFails : Bool} (here : s.commits id = some commit) (opens : commit.phase = .opening target)
    (careful : Careful s (.openStorage id now failed reset journalFails)) :
    Keeps s (s.openStorage id commit target (s.opened commit target now failed reset journalFails)) commit := by
  have sound := inv.sound id commit here
  unfold Sound at sound
  rw [opens] at sound
  obtain ⟨-,known⟩ := sound
  obtain ⟨resolves,-⟩ := careful.2 commit target here opens
  have unrejected : (s.opened commit target now failed reset journalFails).rejected = none := rfl
  have objects : (s.opened commit target now failed reset journalFails).pool.object = s.object := rfl
  generalize s.opened commit target now failed reset journalFails = writes at resolves unrejected objects
  simp only [State.openStorage]
  split
  · next storedAccount merged planned =>
    have live := (resolves.found ((Commit.rejection_writes planned).trans unrejected)).2
    refine ⟨live_others (objects ▸ (begun_holds live).2) (fun _ => known),?_⟩
    intro _ _ _ _ _ _ _ phase
    cases opens.symm.trans phase
  · next early =>
    refine ⟨live_others (objects ▸ (commit_early resolves early).others) (fun _ => known),?_⟩
    intro _ _ _ _ _ _ _ phase
    cases opens.symm.trans phase

theorem written_keeps (inv : Inv s) {commit : PendingCommit} {target : Target} {writes : Commit} {storedAccount : AccountMetadataV3}
    {merged : AccountStorageV3} {rejected : Option PersistError} (here : s.commits id = some commit)
    (waits : commit.phase = .writing target writes storedAccount merged) (careful : Careful s (.written id rejected)) :
    Keeps s (s.written id commit target writes merged rejected) commit := by
  obtain ⟨-,writing,concluded⟩ := inv.concluded here waits careful
  refine ⟨live_others concluded.others (fun before => absurd writing.holds.credential before),?_⟩
  intro _ _ _ _ current written row phase there after newer
  obtain ⟨rfl,rfl,rfl,rfl⟩ := CommitPhase.writing.inj (waits.symm.trans phase)
  cases rejected with
  | some error =>
    have same : s.storage = some written := after
    obtain rfl := Option.some.inj (there.symm.trans same)
    exact ⟨row,newer.1,rfl⟩
  | none =>
    obtain rfl := Option.some.inj (show some merged = some written from after)
    exact commit_keeps (writing.opened.trans (by rw [there])) writing.planned (writing.unknown current there) newer

end Inv

theorem calls_step (s : State) {action : Action} (start : ∀ id params, action ≠ .start id params)
    (refreshed : ∀ id refreshResult clock, action ≠ .refreshed id refreshResult clock) (finish : ∀ id clock, action ≠ .finish id clock) :
    (step s action).calls = s.calls := by
  cases action with
  | start id params => exact absurd rfl (start id params)
  | refreshed id refreshResult clock => exact absurd rfl (refreshed id refreshResult clock)
  | finish id clock => exact absurd rfl (finish id clock)
  | lock id =>
    simp only [step]
    split
    · split
      · simp only [State.takeLock]
        split
        · rfl
        · split
          · rfl
          · split
            · rfl
            · split <;> rfl
      · rfl
    · rfl
  | openStorage id now failed reset journalFails =>
    simp only [step]
    split
    · split
      · simp only [State.openStorage]
        split <;> rfl
      · rfl
    · rfl
  | written id rejected =>
    simp only [step]
    split
    · split
      · cases rejected <;> rfl
      · rfl
    · rfl
  | synced id disk =>
    cases disk with
    | none => rfl
    | some disk =>
      simp only [step,State.synced]
      split <;> rfl
  | setAccountEnabled manager index enabled =>
    simp only [step]
    split <;> rfl
  | save manager runtimeOnConflict =>
    simp only [step,State.saved]
    split <;> rfl
  | sync id => rfl
  | reload loaded => rfl
  | removeAccount manager index => rfl
  | observe ref account => rfl
  | outside storage => rfl

theorem Inv.right {s : State} (inv : Inv s) {action : Action} (may : enabled s action) (careful : Careful s action) : Right s action := by
  constructor
  · intro id result returns
    cases result with
    | failed retryable invalidated coordinationFailed target => trivial
    | selectionRestart manager => trivial
    | ok accessToken target =>
      cases action with
      | start other params => exact inv.start_fresh may returns
      | refreshed other refreshResult clock =>
        revert returns
        simp only [TokenRefresh.step]
        split
        · next params initialTarget refreshCredential known here =>
          exact inv.refreshed_fresh (inv.refreshing other _ _ _ _ here rfl).1
        · exact fun returns => absurd returns (not_returns rfl)
      | finish other clock =>
        revert returns
        simp only [TokenRefresh.step]
        split
        · next params commit latestTarget access here =>
          split
          · next pending there =>
            split
            · next result phase =>
              refine committed_fresh ?_
              rintro committed rfl
              have sound := inv.sound commit pending there
              unfold Sound at sound
              rw [phase] at sound
              exact sound ⟨other,_,latestTarget,access,here,rfl⟩
            · exact fun returns => absurd returns (not_returns rfl)
          · exact fun returns => absurd returns (not_returns rfl)
        · exact fun returns => absurd returns (not_returns rfl)
      | _ =>
        refine absurd returns (not_returns (calls_step s ?_ ?_ ?_)) <;> intros <;> rintro ⟨⟩
  · intro id commit own here
    cases action with
    | lock other =>
      obtain rfl := Option.some.inj own
      simp only [TokenRefresh.step,here]
      split
      · exact lock_keeps commit commit _
      · exact keeps_same rfl rfl
    | openStorage other now failed reset journalFails =>
      obtain rfl := Option.some.inj own
      simp only [TokenRefresh.step,here]
      split
      · next target opens => exact inv.openStorage_keeps here opens careful
      · exact keeps_same rfl rfl
    | written other rejected =>
      obtain rfl := Option.some.inj own
      simp only [TokenRefresh.step,here]
      split
      · next target writes storedAccount merged waits => exact inv.written_keeps here waits careful
      · exact keeps_same rfl rfl
    | _ => cases own

theorem enabled_lock {s : State} {id manager : ℕ} {commit : PendingCommit} (here : s.commits id = some commit)
    (waits : commit.phase = .waiting manager) (free : s.runtimeCredentialLocks manager = none) : enabled s (.lock id) := by
  intro pending other there phase
  obtain rfl := Option.some.inj (here.symm.trans there)
  obtain rfl := CommitPhase.waiting.inj (waits.symm.trans phase)
  exact free

theorem inv_started (loaded : Manager) (storage : Option AccountStorageV3) : Inv (started loaded storage) where
  active := rfl
  latest _ _ := rfl
  ahead _ before := absurd before (Nat.not_lt_zero _)
  refreshing _ _ _ _ _ here := nomatch here
  made _ _ here := nomatch here
  queued _ _ _ found := nomatch found
  sound _ _ here := nomatch here

/-- In a run that takes care, every token that is handed out is the own one of an enabled account of the
    active manager, and no commit replaces a credential that is newer than the one it spent. -/
theorem fresh_tokens_kept (loaded : Manager) (storage : Option AccountStorageV3) {actions : List Action}
    (legal : Legal step enabled (started loaded storage) actions) (careful : Legal step Careful (started loaded storage) actions) :
    Legal step Right (started loaded storage) actions :=
  Legal.of_invariant (fun _ _ both inv => inv.step both.1 both.2) (fun _ _ both inv _ => inv.right both.1 both.2)
    (inv_started loaded storage) (legal.and careful) careful

end

section
attribute [local instance] asciiHost

def spentRow : AccountMetadataV3 := [("recordId",.str "record:a"),("accountId",.str "a"),("refreshToken",.str "r")]

def otherRow : AccountMetadataV3 := [("recordId",.str "record:b"),("accountId",.str "b"),("refreshToken",.str "q")]

def poolOf (row : AccountMetadataV3) : AccountStorageV3 := { emptyStorage with accounts := [row] }

theorem refreshed_filled : "s" ≠ "" ∧ "access" ≠ "" := by decide

def refreshedAuth : RefreshedAuth := ⟨⟨"access","s",9,none,none⟩,refreshed_filled⟩

/-- Two requests share a refresh, while another process notes a use of the account in the file; then that
    has locked it, and the account is rescued. -/
def rescuedRun : List Action :=
  [.start 1 ⟨⟨0,0⟩,0,0,0⟩,.start 2 ⟨⟨0,0⟩,0,0,0⟩,.outside (some (poolOf (spentRow ++ [("lastUsed",.num 5)]))),
    .refreshed 1 (.ok refreshedAuth) 0,.refreshed 2 (.ok refreshedAuth) 0,.lock 1,
    .openStorage 1 0 (some ⟨⟨some "ELOCKED",none⟩,[]⟩) false false,.finish 1 0,.finish 2 0]

theorem fresh_tokens_kept_rescued :
    Legal step Right (started ⟨poolOf spentRow,some (poolOf spentRow),true⟩ (some (poolOf spentRow))) rescuedRun := by
  refine fresh_tokens_kept _ _ ?_ ?_
  · refine ⟨⟨rfl,List.mem_cons_self⟩,⟨rfl,List.mem_cons_self⟩,rfl,trivial,trivial,?_,rfl,trivial,trivial,trivial⟩
    exact enabled_lock rfl rfl rfl
  · refine ⟨trivial,trivial,trivial,trivial,trivial,?_,⟨?_,?_⟩,trivial,trivial,trivial⟩
    · intro commit manager here waits current
      obtain rfl := Option.some.inj here
      refine ⟨⟨0,0⟩,rfl,.inr ?_⟩
      split
      · exact List.mem_cons_self
      · next replaced => exact absurd rfl replaced
    · rintro ⟨id,pending,result,here,phase,-⟩
      by_cases own : id = 1
      · subst own
        obtain rfl := Option.some.inj here
        cases phase
      · have there : Function.update (Function.update (fun _ => none) 1 (some _)) 1 (some _) id = some pending := here
        rw [Function.update_of_ne own,Function.update_of_ne own] at there
        cases there
    · intro commit target here opens
      obtain rfl := Option.some.inj here
      obtain rfl := CommitPhase.opening.inj opens
      refine ⟨⟨fun meets => (nomatch meets),?_⟩,?_⟩
      · intro error found meets rescuable identified
        have own : getAccountByIdentity (@State.pool (started ⟨poolOf spentRow,some (poolOf spentRow),true⟩ (some (poolOf spentRow))) 0)
            ⟨some "a",none,some "r"⟩ refreshedAuth.val = some 0 := by decide +kernel
        exact Option.some.inj (identified.symm.trans own)
      · rintro current there row ⟨listed,newer,-⟩
        obtain rfl := Option.some.inj there
        obtain rfl := List.mem_singleton.mp listed
        exact absurd List.mem_cons_self newer

/-- While the commit waits for the lock, a native sync finds that the account was removed from the file. -/
def removedMeanwhile : List Action :=
  [.start 1 ⟨⟨0,0⟩,0,0,0⟩,.sync 7,.refreshed 1 (.ok refreshedAuth) 0,.synced 7 (some (poolOf otherRow)),.lock 1,.lock 1,.finish 1 0]

theorem removed_account_is_handed_out : ¬ ∀ loaded storage actions, Legal step enabled (started loaded storage) actions →
    Legal step Right (started loaded storage) actions := by
  intro all
  have legal : Legal step enabled (started ⟨poolOf spentRow,none,true⟩ none) removedMeanwhile := by
    refine ⟨⟨rfl,List.mem_cons_self⟩,⟨rfl,rfl⟩,trivial,?_,?_,?_,trivial,trivial⟩
    · rfl
    · exact enabled_lock rfl rfl rfl
    · exact enabled_lock rfl rfl rfl
  have returns : Returns (removedMeanwhile.dropLast.foldl step (started ⟨poolOf spentRow,none,true⟩ none))
      (removedMeanwhile.foldl step (started ⟨poolOf spentRow,none,true⟩ none)) 1 (.ok "access" ⟨0,0⟩) := by
    refine ⟨⟨_,rfl,rfl⟩,?_⟩
    intro call other here phase
    obtain rfl := Option.some.inj here
    cases phase
  have fresh := (all _ _ _ legal).2.2.2.2.2.2.1.fresh 1 _ returns
  have listed : (0 : ℕ) ∈ [Nat.pair 1 0] := fresh.2.1
  revert listed
  decide

end

end CodexMultiAuth.TokenRefresh
