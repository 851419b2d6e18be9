import CodexMultiAuth.ManagerSwap

/-!
What a request writes when it succeeds. The redirects always lead to the active manager,
so an account that was just brought over has its place there; only a reload after that
can take the place away.
-/
namespace CodexMultiAuth.ManagerSwap
open SessionAffinity (Text SessionAffinityStore normalizeSessionKey)
open RotationProxyState Option
set_option linter.unusedSectionVars false

section
variable [Host]

def started (rows : List ManagedAccount) (baseline : Option AccountStorageV3) (store : Option SessionAffinityStore) : RotationProxyState where
  managers := [AccountManager.new rows baseline]
  runtimeRefreshManagerRedirects := []
  activeAccountManager := 0
  sessionAffinityStore := store

/-- Which actions may be taken. A change in place leaves the account the login it is. -/
def enabled {κ : Type} (login : ManagedAccount → κ) (state : RotationProxyState) : Action → Prop
  | .start id _ => state.requests id = none
  | .select id index => ∃ request, state.requests id = some request ∧ index < (state.accountsOf request.accountManager).length
  | .refresh id => ∃ request, state.requests id = some request ∧ request.account.isSome
  | .commit id index => ∃ request, state.requests id = some request ∧ request.account.isSome ∧
      index < (state.accountsOf (refreshRequest state request).accountManager).length
  | .change manager index update => ∀ account, state.getAccountByIndex manager index = some account →
      login (inPlace update account) = login account
  | .succeed id _ => ∃ request, state.requests id = some request ∧ request.refreshed = true
  | _ => True

/-- A reload that moves no account of a request that is being sent. -/
def KeepsPlaces {κ : Type} (login : ManagedAccount → κ) (state : RotationProxyState) : Action → Prop
  | .reload rows baseline _ => ∀ id request account, state.requests id = some request → request.refreshed = true →
      state.accountOf request = some account →
      ∃ row, (AccountManager.new rows baseline).accounts[account.index]? = some row ∧ login row = login account
  | _ => True

/-- The redirects lead upwards to the active manager, and requests hold rows that exist. -/
structure WellFormed (state : RotationProxyState) : Prop where
  active : state.activeAccountManager + 1 = state.managers.length
  latest : ∀ manager, state.activeAccountManager ≤ manager → state.runtimeRefreshManagerRedirects.find manager = none
  ahead : ∀ manager, manager < state.activeAccountManager →
    ∃ next, state.runtimeRefreshManagerRedirects.find manager = some next ∧ manager < next ∧ next ≤ state.activeAccountManager
  manager : ∀ id request, state.requests id = some request → request.accountManager ≤ state.activeAccountManager
  account : ∀ id request index, state.requests id = some request → request.account = some index →
    (state.getAccountByIndex request.accountManager index).isSome
  refreshed : ∀ id request, state.requests id = some request → request.refreshed = true → request.account.isSome

theorem follow_active {redirects : OrderedMap Nat Nat} {active : Nat} (latest : redirects.find active = none)
    (ahead : ∀ manager, manager < active → ∃ next, redirects.find manager = some next ∧ manager < next ∧ next ≤ active)
    (fuel : Nat) (seen : List Nat) {current : Nat} (below : current ≤ active) (enough : active < current + fuel)
    (passed : ∀ manager ∈ seen, manager < current) : follow redirects fuel seen current = active := by
  induction fuel generalizing seen current with
  | zero => omega
  | succ fuel ih =>
    have unseen : seen.contains current = false := by
      rw [List.contains_eq_mem,decide_eq_false_iff_not]
      intro again
      exact lt_irrefl _ (passed current again)
    rw [follow,unseen]
    simp only [Bool.false_eq_true,if_false]
    rcases Nat.lt_or_eq_of_le below with less | rfl
    · obtain ⟨next,found,higher,within⟩ := ahead current less
      rw [found]
      refine ih (current :: seen) within (by omega) ?_
      intro manager member
      rcases List.mem_cons.mp member with rfl | earlier
      · exact higher
      · exact lt_trans (passed manager earlier) higher
    · rw [latest]

namespace WellFormed
variable {state : RotationProxyState}

theorem resolves (well : WellFormed state) {manager : Nat} (published : manager ≤ state.activeAccountManager) :
    state.resolveRuntimeRefreshCommitManager manager = state.activeAccountManager :=
  follow_active (well.latest _ (le_refl _)) well.ahead _ _ published (by have := well.active; omega) (by simp)

theorem target (well : WellFormed state) {manager index : Nat} (published : manager ≤ state.activeAccountManager)
    (here : (state.getAccountByIndex manager index).isSome) {target : Nat × Nat}
    (found : state.resolveRuntimeRefreshTarget manager index = some target) :
    target.1 = state.activeAccountManager ∧ (state.getAccountByIndex target.1 target.2).isSome := by
  simp only [resolveRuntimeRefreshTarget,well.resolves published] at found
  split at found
  · next same =>
    obtain rfl := Option.some.inj found
    exact ⟨same.symm,here⟩
  · split at found
    · split at found
      · split at found
        · next row =>
          obtain rfl := Option.some.inj found
          exact ⟨rfl,row⟩
        · cases found
      · cases found
    · cases found

theorem refreshRequest_spec (well : WellFormed state) {id : Nat} {request : Request} (under_way : state.requests id = some request)
    (chosen : request.account.isSome) :
    (refreshRequest state request).accountManager = state.activeAccountManager ∧
      (∀ index, (refreshRequest state request).account = some index →
        (state.getAccountByIndex state.activeAccountManager index).isSome) ∧
      ((refreshRequest state request).refreshed = true → (refreshRequest state request).account.isSome) := by
  have published := well.manager id request under_way
  obtain ⟨index,row⟩ := isSome_iff_exists.mp chosen
  have here := well.account id request index under_way row
  unfold refreshRequest
  rw [row]
  dsimp only
  cases found : state.resolveRuntimeRefreshTarget request.accountManager index with
  | none =>
    refine ⟨well.resolves published,?_,?_⟩
    · intro index held
      cases held
    · intro ready
      cases ready
  | some target =>
    obtain ⟨active,exists_row⟩ := well.target published here found
    refine ⟨active,?_,fun _ => rfl⟩
    intro held same
    obtain rfl := Option.some.inj same
    rw [← active]
    exact exists_row

end WellFormed

/-! ### What steps do to accounts -/

def view {κ : Type} (login : ManagedAccount → κ) (state : RotationProxyState) (manager index : Nat) : Option (Nat × κ) :=
  (state.getAccountByIndex manager index).map (fun account => (account.index,login account))

variable {state : RotationProxyState}

theorem view_isSome {κ : Type} {login : ManagedAccount → κ} {manager index : Nat} :
    (view login state manager index).isSome = (state.getAccountByIndex manager index).isSome := by
  rw [view,isSome_map]

variable (rows : List ManagedAccount)

theorem getAccountByIndex_publish (baseline : Option AccountStorageV3)
    {manager : Nat} (published : manager < state.managers.length) (index : Nat) :
    (state.publish rows baseline).getAccountByIndex manager index = state.getAccountByIndex manager index := by
  simp only [getAccountByIndex,accountsOf,publish,List.getElem?_append_left published]

theorem getAccountByIndex_new (baseline : Option AccountStorageV3) (index : Nat) :
    (state.publish rows baseline).getAccountByIndex state.managers.length index = (AccountManager.new rows baseline).accounts[index]? := by
  simp only [getAccountByIndex,accountsOf,publish,List.getElem?_concat_length]

theorem accountsOf_change (state : RotationProxyState) (manager index : Nat) (update : ManagedAccount → ManagedAccount) (other : Nat) :
    (step state (.change manager index update)).accountsOf other =
      if manager = other then (state.accountsOf other).modify index (inPlace update) else state.accountsOf other := by
  simp only [step,accountsOf,List.getElem?_modify]
  cases state.managers[other]? with
  | none =>
    simp only [map_eq_map,map_none,List.modify_nil]
    split <;> rfl
  | some found =>
    simp only [map_eq_map,map_some]
    split <;> rfl

theorem view_change {κ : Type} {login : ManagedAccount → κ} {manager index : Nat}
    {update : ManagedAccount → ManagedAccount} (may : enabled login state (.change manager index update)) (other place : Nat) :
    view login (step state (.change manager index update)) other place = view login state other place := by
  rw [view,getAccountByIndex,accountsOf_change]
  split
  · next same =>
    subst same
    rw [List.getElem?_modify]
    change _ = ((state.accountsOf manager)[place]?).map _
    cases row : (state.accountsOf manager)[place]? with
    | none => rfl
    | some account =>
      by_cases at_place : index = place
      · subst at_place
        have kept : login (inPlace update account) = login account := may account row
        simp only [map_some,if_true,map_eq_map,kept]
        rfl
      · simp [at_place]
  · rfl

/-- A state with the same managers, redirects and accounts: the steps that only write sticky state. -/
structure SamePools (before after : RotationProxyState) : Prop where
  managers : after.managers = before.managers
  redirects : after.runtimeRefreshManagerRedirects = before.runtimeRefreshManagerRedirects
  active : after.activeAccountManager = before.activeAccountManager

theorem SamePools.getAccountByIndex {before after : RotationProxyState} (same : SamePools before after) (manager index : Nat) :
    after.getAccountByIndex manager index = before.getAccountByIndex manager index := by
  simp only [RotationProxyState.getAccountByIndex,accountsOf,same.managers]

/-- The rows that requests hold exist if every request either is as it was or is well formed by itself. -/
theorem WellFormed.of_requests {before after : RotationProxyState} (well : WellFormed before) (same : SamePools before after)
    (requests : ∀ id request, after.requests id = some request → before.requests id = some request ∨
      request.accountManager ≤ before.activeAccountManager ∧
        (∀ index, request.account = some index → (before.getAccountByIndex request.accountManager index).isSome) ∧
        (request.refreshed = true → request.account.isSome)) : WellFormed after := by
  refine ⟨?_,?_,?_,?_,?_,?_⟩
  · rw [same.active,same.managers]
    exact well.active
  · rw [same.redirects,same.active]
    exact well.latest
  · rw [same.redirects,same.active]
    exact well.ahead
  · intro id request under_way
    rw [same.active]
    rcases requests id request under_way with kept | ⟨published,_,_⟩
    · exact well.manager id request kept
    · exact published
  · intro id request index under_way held
    rw [same.getAccountByIndex]
    rcases requests id request under_way with kept | ⟨_,row,_⟩
    · exact well.account id request index kept held
    · exact row index held
  · intro id request under_way ready
    rcases requests id request under_way with kept | ⟨_,_,chosen⟩
    · exact well.refreshed id request kept ready
    · exact chosen ready

theorem requests_setRequest {id other : Nat} {changed : Option Request} {request : Request}
    (under_way : (state.setRequest id changed).requests other = some request) :
    state.requests other = some request ∨ changed = some request := by
  simp only [setRequest,Function.update_apply] at under_way
  split at under_way
  · exact .inr under_way
  · exact .inl under_way

theorem samePools_recordSuccess (state : RotationProxyState) (request : Request) (account : ManagedAccount) (success : Success) :
    SamePools state (state.recordSuccess request account success) ∧
      (state.recordSuccess request account success).requests = state.requests := by
  unfold recordSuccess
  split
  · exact ⟨⟨rfl,rfl,rfl⟩,rfl⟩
  · split <;> exact ⟨⟨rfl,rfl,rfl⟩,rfl⟩

theorem samePools_step (state : RotationProxyState) (action : Action)
    (others : ∀ rows baseline generation, action ≠ .reload rows baseline generation)
    (in_place : ∀ manager index update, action ≠ .change manager index update) : SamePools state (step state action) := by
  cases action with
  | start id sessionKey => exact ⟨rfl,rfl,rfl⟩
  | prefer sessionKey now => exact ⟨rfl,rfl,rfl⟩
  | select id index => exact ⟨rfl,rfl,rfl⟩
  | refresh id => exact ⟨rfl,rfl,rfl⟩
  | commit id index => exact ⟨rfl,rfl,rfl⟩
  | fail id =>
    simp only [step]
    split <;> exact ⟨rfl,rfl,rfl⟩
  | reload rows baseline generation => exact absurd rfl (others rows baseline generation)
  | reconcile generation =>
    simp only [step]
    split <;> exact ⟨rfl,rfl,rfl⟩
  | change manager index update => exact absurd rfl (in_place manager index update)
  | succeed id success =>
    simp only [step]
    split
    · next request _ =>
      split
      · next account _ =>
        have same := (samePools_recordSuccess state request account success).1
        exact ⟨same.managers,same.redirects,same.active⟩
      · exact ⟨rfl,rfl,rfl⟩
    · exact ⟨rfl,rfl,rfl⟩

theorem WellFormed.publish (well : WellFormed state) (rows : List ManagedAccount)
    (baseline : Option AccountStorageV3) : WellFormed (state.publish rows baseline) := by
  have active := well.active
  refine ⟨?_,?_,?_,?_,?_,well.refreshed⟩
  · simp [RotationProxyState.publish]
  · intro manager above
    simp only [RotationProxyState.publish,OrderedMap.find_put] at above ⊢
    rw [if_neg (by omega)]
    exact well.latest manager (by omega)
  · intro manager below
    simp only [RotationProxyState.publish,OrderedMap.find_put] at below ⊢
    by_cases here : state.activeAccountManager = manager
    · rw [if_pos here]
      exact ⟨_,rfl,below,le_refl _⟩
    · rw [if_neg here]
      obtain ⟨next,found,higher,within⟩ := well.ahead manager (by omega)
      exact ⟨next,found,higher,by omega⟩
  · intro id request under_way
    have published := well.manager id request under_way
    simp only [RotationProxyState.publish]
    omega
  · intro id request index under_way held
    have published := well.manager id request under_way
    rw [getAccountByIndex_publish rows baseline (by omega)]
    exact well.account id request index under_way held

theorem requests_step {κ : Type} {login : ManagedAccount → κ} (well : WellFormed state) {action : Action}
    (may : enabled login state action) {other : Nat} {request : Request} (under_way : (step state action).requests other = some request) :
    state.requests other = some request ∨
      request.accountManager ≤ state.activeAccountManager ∧
        (∀ index, request.account = some index → (state.getAccountByIndex request.accountManager index).isSome) ∧
        (request.refreshed = true → request.account.isSome ∧ request.accountManager = state.activeAccountManager) := by
  cases action with
  | start id sessionKey =>
    rcases requests_setRequest under_way with kept | new
    · exact .inl kept
    · obtain rfl := Option.some.inj new
      refine .inr ⟨le_refl _,?_,?_⟩
      · intro index held
        cases held
      · intro ready
        cases ready
  | prefer sessionKey now => exact .inl under_way
  | select id index =>
    obtain ⟨before,found,row⟩ := may
    rcases requests_setRequest under_way with kept | new
    · exact .inl kept
    · rw [found] at new
      obtain rfl := Option.some.inj new
      refine .inr ⟨well.manager id before found,?_,?_⟩
      · intro held same
        obtain rfl := Option.some.inj same
        simp only [getAccountByIndex,List.getElem?_eq_getElem row,isSome_some]
      · intro ready
        cases ready
  | refresh id =>
    obtain ⟨before,found,chosen⟩ := may
    rcases requests_setRequest under_way with kept | new
    · exact .inl kept
    · rw [found] at new
      obtain rfl := Option.some.inj new
      obtain ⟨active,rows,ready⟩ := well.refreshRequest_spec found chosen
      refine .inr ⟨le_of_eq active,?_,fun done => ⟨ready done,active⟩⟩
      intro index held
      rw [active]
      exact rows index held
  | commit id index =>
    obtain ⟨before,found,chosen,row⟩ := may
    rcases requests_setRequest under_way with kept | new
    · exact .inl kept
    · rw [found] at new
      obtain rfl := Option.some.inj new
      obtain ⟨active,rows,ready⟩ := well.refreshRequest_spec found chosen
      dsimp only
      split
      · refine .inr ⟨le_of_eq active,?_,fun _ => ⟨rfl,active⟩⟩
        intro held same
        obtain rfl := Option.some.inj same
        simp only [getAccountByIndex,Request.hold,List.getElem?_eq_getElem row,isSome_some]
      · refine .inr ⟨le_of_eq active,?_,fun done => ⟨ready done,active⟩⟩
        intro index held
        rw [active]
        exact rows index held
  | fail id =>
    simp only [step] at under_way
    split at under_way <;> exact .inl under_way
  | reload rows baseline generation =>
    simp only [step] at under_way
    split at under_way
    · split at under_way <;> exact .inl under_way
    · exact .inl under_way
  | reconcile generation =>
    simp only [step] at under_way
    split at under_way <;> exact .inl under_way
  | change manager index update => exact .inl under_way
  | succeed id success =>
    simp only [step] at under_way
    split at under_way
    · next before _ =>
      split at under_way
      · next account _ =>
        rcases requests_setRequest under_way with kept | new
        · rw [(samePools_recordSuccess state before account success).2] at kept
          exact .inl kept
        · cases new
      · exact .inl under_way
    · exact .inl under_way

theorem step_reload (state : RotationProxyState) (rows : List ManagedAccount) (baseline : Option AccountStorageV3) (generation : Option ℚ) :
    ∃ between, SamePools state between ∧ between.requests = state.requests ∧
      step state (.reload rows baseline generation) = between.publish rows baseline := by
  simp only [step]
  split
  · split
    · exact ⟨state.clearAffinity,⟨rfl,rfl,rfl⟩,rfl,rfl⟩
    · exact ⟨state,⟨rfl,rfl,rfl⟩,rfl,rfl⟩
  · exact ⟨state,⟨rfl,rfl,rfl⟩,rfl,rfl⟩

theorem WellFormed.step {κ : Type} {login : ManagedAccount → κ} {action : Action}
    (may : enabled login state action) (well : WellFormed state) : WellFormed (step state action) := by
  have requests := fun other request => @requests_step _ state κ login well action may other request
  by_cases reloads : ∃ rows baseline generation, action = .reload rows baseline generation
  · obtain ⟨rows,baseline,generation,rfl⟩ := reloads
    obtain ⟨between,same,kept,done⟩ := step_reload state rows baseline generation
    rw [done]
    refine WellFormed.publish (well.of_requests same ?_) rows baseline
    intro id request under_way
    rw [kept] at under_way
    exact .inl under_way
  by_cases changes : ∃ manager index update, action = .change manager index update
  · obtain ⟨manager,index,update,rfl⟩ := changes
    refine ⟨?_,well.latest,well.ahead,well.manager,?_,well.refreshed⟩
    · simp only [ManagerSwap.step,List.length_modify]
      exact well.active
    · intro id request place under_way held
      rw [← @view_isSome _ _ κ login,view_change may,view_isSome]
      exact well.account id request place under_way held
  · refine well.of_requests (samePools_step state action ?_ ?_) ?_
    · rintro rows baseline generation rfl
      exact reloads ⟨rows,baseline,generation,rfl⟩
    · rintro manager index update rfl
      exact changes ⟨manager,index,update,rfl⟩
    · intro id request under_way
      rcases requests id request under_way with kept | ⟨published,row,ready⟩
      · exact .inl kept
      · exact .inr ⟨published,row,fun done => (ready done).1⟩

theorem wellFormed_started (baseline : Option AccountStorageV3) (store : Option SessionAffinityStore) :
    WellFormed (started rows baseline store) := by
  refine ⟨rfl,fun _ _ => rfl,?_,?_,?_,?_⟩
  · intro manager below
    cases below
  · intro id request under_way
    cases under_way
  · intro id request index under_way
    cases under_way
  · intro id request under_way
    cases under_way

section
variable {κ : Type} (login : ManagedAccount → κ)

/-- The account of a request still has its place: its manager is the active one,
    or the active one has the same account at that index. -/
def InPlace (state : RotationProxyState) (request : Request) : Prop :=
  request.accountManager = state.activeAccountManager ∨
    ∀ account, state.accountOf request = some account →
      ∃ row, state.getAccountByIndex state.activeAccountManager account.index = some row ∧ login row = login account

/-- An index denotes an account in the manager that is active. -/
def Denotes (state : RotationProxyState) (account : ManagedAccount) (index : ℚ) : Prop :=
  ∃ position row, index = (position : ℕ) ∧ state.getAccountByIndex state.activeAccountManager position = some row ∧ login row = login account

/-- The sticky state that a request has written denotes the account that served it. -/
structure StickyDenotes (request : Request) (account : ManagedAccount) (after : RotationProxyState) : Prop where
  affinity : ∀ store key, after.sessionAffinityStore = some store → normalizeSessionKey request.sessionKey = some key →
    ∃ entry, store.entries.find key = some entry ∧ Denotes login after account entry.accountIndex
  lastUsed : ∃ index, after.lastGlobalAccountIndex = some index ∧ Denotes login after account (index : ℕ)

variable {state : RotationProxyState} {request : Request}

theorem inPlace_iff_view :
    InPlace login state request ↔ request.accountManager = state.activeAccountManager ∨
      ∀ index entry, request.account = some index → view login state request.accountManager index = some entry →
        ∃ place, view login state state.activeAccountManager entry.1 = some (place,entry.2) := by
  refine or_congr_right ?_
  simp only [accountOf,view,bind_eq_some_iff,map_eq_some_iff]
  constructor
  · rintro kept index _ held ⟨account,found,rfl⟩
    obtain ⟨row,here,same⟩ := kept account ⟨index,held,found⟩
    exact ⟨row.index,row,here,by rw [same]⟩
  · rintro kept account ⟨index,held,found⟩
    obtain ⟨place,row,here,same⟩ := kept index _ held ⟨account,found,rfl⟩
    exact ⟨row,here,congrArg Prod.snd same⟩

theorem InPlace.of_view {before after : RotationProxyState} (active : after.activeAccountManager = before.activeAccountManager)
    (views : ∀ manager index, view login after manager index = view login before manager index) (kept : InPlace login before request) :
    InPlace login after request := by
  rw [inPlace_iff_view] at kept ⊢
  simp only [active,views]
  exact kept

/-- Every account that is being sent has its place. -/
def Settled (state : RotationProxyState) : Prop :=
  ∀ id request, state.requests id = some request → request.refreshed = true → InPlace login state request

theorem settled_step {action : Action} (well : WellFormed state)
    (may : enabled login state action ∧ KeepsPlaces login state action) (settled : Settled login state) :
    Settled login (step state action) := by
  intro id request under_way ready
  by_cases reloads : ∃ rows baseline generation, action = .reload rows baseline generation
  · obtain ⟨rows,baseline,generation,rfl⟩ := reloads
    obtain ⟨between,same,kept,done⟩ := step_reload state rows baseline generation
    rw [done] at under_way ⊢
    have before : state.requests id = some request := by
      rw [← kept]
      exact under_way
    have published := well.manager id request before
    have active := well.active
    right
    intro account held
    obtain ⟨index,row,found⟩ := bind_eq_some_iff.mp held
    rw [getAccountByIndex_publish rows baseline (by rw [same.managers]; omega),same.getAccountByIndex] at found
    obtain ⟨moved,here,same_login⟩ := may.2 id request account before ready (bind_eq_some_iff.mpr ⟨index,row,found⟩)
    refine ⟨moved,?_,same_login⟩
    exact (@getAccountByIndex_new _ between rows baseline account.index).trans here
  rcases requests_step well may.1 under_way with kept | ⟨_,_,brought⟩
  · by_cases changes : ∃ manager index update, action = .change manager index update
    · obtain ⟨manager,index,update,rfl⟩ := changes
      refine (settled id request kept ready).of_view login ?_ (view_change may.1)
      rfl
    · have same := samePools_step state action (fun rows baseline generation is => reloads ⟨rows,baseline,generation,is⟩)
        (fun manager index update is => changes ⟨manager,index,update,is⟩)
      refine (settled id request kept ready).of_view login same.active ?_
      intro manager index
      rw [view,same.getAccountByIndex]
      rfl
  · left
    have active := (brought ready).2
    by_cases changes : ∃ manager index update, action = .change manager index update
    · obtain ⟨manager,index,update,rfl⟩ := changes
      exact active
    · rw [(samePools_step state action (fun rows baseline generation is => reloads ⟨rows,baseline,generation,is⟩)
        (fun manager index update is => changes ⟨manager,index,update,is⟩)).active]
      exact active

variable {account : ManagedAccount}

theorem InPlace.row (kept : InPlace login state request)
    (held : state.accountOf request = some account) :
    ∃ row, state.getAccountByIndex state.activeAccountManager account.index = some row ∧ login row = login account := by
  rcases kept with active | moved
  · obtain ⟨index,row,found⟩ := bind_eq_some_iff.mp held
    rw [active] at found
    have placed : account.index = index := by
      simp only [getAccountByIndex,accountsOf] at found
      split at found
      · next manager _ => exact manager.placed index account found
      · cases found
    rw [placed]
    exact ⟨account,found,rfl⟩
  · exact moved account held

theorem stickyDenotes_iff {id : Nat} {success : Success}
    (under_way : state.requests id = some request) (held : state.accountOf request = some account)
    (inference : success.isTranscribeRequest = false) (spare : success.nearExhaustionWaitMs ≤ 0) :
    StickyDenotes login request account (step state (.succeed id success)) ↔
      Denotes login state account (account.index : ℕ) := by
  have after : step state (.succeed id success) = (state.recordSuccess request account success).setRequest id none := by
    simp only [step,under_way,held]
  have recorded : state.recordSuccess request account success =
      { state with
        sessionAffinityStore := state.sessionAffinityStore.map (fun store => store.remember request.sessionKey account.index success.now)
        lastGlobalAccountIndex :=
          if some account.index ≠ state.lastGlobalAccountIndex then some account.index else state.lastGlobalAccountIndex
        lastGlobalSwitchAt := success.now } := by
    rw [recordSuccess,inference,if_neg (by simp),if_neg (not_lt.mpr spare)]
  have last : (step state (.succeed id success)).lastGlobalAccountIndex = some account.index := by
    rw [after,recorded]
    simp only [setRequest]
    split
    · rfl
    · next same => exact (not_not.mp same).symm
  have pools : ∀ index, Denotes login (step state (.succeed id success)) account index ↔ Denotes login state account index := by
    intro index
    rw [after,recorded]
    rfl
  constructor
  · rintro ⟨_,index,found,denotes⟩
    rw [last] at found
    obtain rfl := Option.some.inj found
    exact (pools _).mp denotes
  · intro denotes
    refine ⟨?_,account.index,last,(pools _).mpr denotes⟩
    intro store key stored named
    rw [after,recorded] at stored
    obtain ⟨before,_,rfl⟩ := map_eq_some_iff.mp stored
    obtain ⟨entry,found,same,_⟩ := before.find_remember success.now named (Nat.cast_nonneg account.index)
    refine ⟨entry,found,?_⟩
    rw [same]
    exact (pools _).mpr denotes

theorem denotes_iff_inPlace
    (held : state.accountOf request = some account) : Denotes login state account (account.index : ℕ) ↔ InPlace login state request := by
  constructor
  · rintro ⟨position,row,same,found,same_login⟩
    right
    intro other also
    obtain rfl := Option.some.inj (held.symm.trans also)
    rw [Nat.cast_inj.mp same]
    exact ⟨row,found,same_login⟩
  · intro kept
    obtain ⟨row,found,same_login⟩ := kept.row login held
    exact ⟨account.index,row,rfl,found,same_login⟩

/-- A request is about to write the sticky state of the account that served it. -/
structure Writes (state : RotationProxyState) (id : Nat) (request : Request) (account : ManagedAccount) (success : Success) : Prop where
  under_way : state.requests id = some request
  refreshed : request.refreshed = true
  held : state.accountOf request = some account
  inference : success.isTranscribeRequest = false
  spare : success.nearExhaustionWaitMs ≤ 0

/-- In every run, what a request writes when it succeeds denotes the account that
    served it exactly when that account still has its place; and it has, in every
    run whose reloads leave the accounts that are being sent where they are. -/
theorem sticky_state_denotes_iff (rows : List ManagedAccount) (baseline : Option AccountStorageV3) (store : Option SessionAffinityStore) :
    (∀ state, Runs.Run step (fun state action => enabled login state action ∧ KeepsPlaces login state action) (started rows baseline store) state →
      ∀ id request account success, Writes state id request account success →
        StickyDenotes login request account (step state (.succeed id success))) ∧
    (∀ state, Runs.Run step (enabled login) (started rows baseline store) state →
      ∀ id request account success, Writes state id request account success →
        (StickyDenotes login request account (step state (.succeed id success)) ↔ InPlace login state request)) := by
  constructor
  · intro state run id request account success writes
    have both : WellFormed state ∧ Settled login state := by
      refine run.invariant (P := fun state => WellFormed state ∧ Settled login state) ?_ ?_
      · intro between action may holds
        exact ⟨holds.1.step may.1,settled_step login holds.1 may holds.2⟩
      · refine ⟨wellFormed_started rows baseline store,?_⟩
        intro id request under_way
        cases under_way
    rw [stickyDenotes_iff login writes.under_way writes.held writes.inference writes.spare,denotes_iff_inPlace login writes.held]
    exact both.2 id request writes.under_way writes.refreshed
  · intro state run id request account success writes
    rw [stickyDenotes_iff login writes.under_way writes.held writes.inference writes.spare,denotes_iff_inPlace login writes.held]

end

end

section
attribute [local instance] asciiHost

def storedRow (recordId : String) : ManagedAccount := { ref := 0,index := 0,recordId := some recordId,refreshToken := recordId }

/-- A request is served by the second of two accounts, which a reload then makes the first. -/
def swappedRun : List Action :=
  [.start 0 (some [115]),.select 0 1,.refresh 0,.reload [storedRow "b",storedRow "a"] none (some 0)]

def beforeSuccess (actions : List Action) : RotationProxyState :=
  actions.foldl step (started [storedRow "a",storedRow "b"] none (some (SessionAffinityStore.new {})))

theorem swapped_reached : Runs.Run step (enabled (·.recordId))
    (started [storedRow "a",storedRow "b"] none (some (SessionAffinityStore.new {}))) (beforeSuccess swappedRun) := by
  refine (Runs.Run.nil _).ofList swappedRun ⟨rfl,⟨_,rfl,?_⟩,⟨_,rfl,rfl⟩,trivial,trivial⟩
  decide

/-- The sticky state then denotes an account that did not serve the request. -/
theorem swapped_account_sticks : ¬ ∀ (rows : List ManagedAccount) (store : Option SessionAffinityStore) (state : RotationProxyState),
    Runs.Run step (enabled (·.recordId)) (started rows none store) state →
      ∀ id request account success, Writes state id request account success →
        StickyDenotes (·.recordId) request account (step state (.succeed id success)) := by
  intro claim
  have sticky := claim _ _ _ swapped_reached 0 ⟨some [115],0,some 1,true⟩ { storedRow "b" with index := 1 } { now := 0 }
    ⟨rfl,rfl,rfl,rfl,le_refl _⟩
  obtain ⟨index,found,position,row,same,here,login⟩ := sticky.lastUsed
  obtain rfl : index = 1 := by
    have last : (step (beforeSuccess swappedRun) (.succeed 0 { now := 0 })).lastGlobalAccountIndex = some 1 := by decide
    exact (Option.some.inj (last.symm.trans found)).symm
  obtain rfl : position = 1 := (Nat.cast_inj.mp same).symm
  have other : ((step (beforeSuccess swappedRun) (.succeed 0 { now := 0 })).getAccountByIndex 1 1).map (·.recordId) = some (some "a") := by
    decide
  have active : (step (beforeSuccess swappedRun) (.succeed 0 { now := 0 })).activeAccountManager = 1 := by decide
  rw [active] at here
  rw [here] at other
  exact absurd (login.symm.trans (Option.some.inj other)) (by decide)

/-- A reload that adds an account behind them keeps the sticky state right. -/
def grownRun : List Action :=
  [.start 0 (some [115]),.select 0 1,.refresh 0,.reload [storedRow "a",storedRow "b",storedRow "c"] none (some 0)]

theorem grown_account_sticks : StickyDenotes (·.recordId) ⟨some [115],0,some 1,true⟩ { storedRow "b" with index := 1 }
    (step (beforeSuccess grownRun) (.succeed 0 { now := 0 })) := by
  have reached : Runs.Run step (fun state action => enabled (·.recordId) state action ∧ KeepsPlaces (·.recordId) state action)
      (started [storedRow "a",storedRow "b"] none (some (SessionAffinityStore.new {}))) (beforeSuccess grownRun) := by
    refine (Runs.Run.nil _).ofList grownRun ⟨⟨rfl,trivial⟩,⟨⟨_,rfl,?_⟩,trivial⟩,⟨⟨_,rfl,rfl⟩,trivial⟩,⟨trivial,?_⟩,trivial⟩
    · decide
    · intro id request account under_way ready held
      by_cases first : id = 0
      · subst first
        obtain rfl := Option.some.inj under_way
        obtain rfl := Option.some.inj held
        exact ⟨_,rfl,rfl⟩
      · have absent : (beforeSuccess [.start 0 (some [115]),.select 0 1,.refresh 0]).requests id = none := by
          simp [beforeSuccess,step,setRequest,first,started]
        exact absurd (under_way.symm.trans absent) (by simp)
  exact (sticky_state_denotes_iff (·.recordId) _ _ _).1 _ reached 0 _ _ { now := 0 } ⟨rfl,rfl,rfl,rfl,le_refl _⟩

end
end CodexMultiAuth.ManagerSwap
