import CodexMultiAuth.ChoiceContract

/-!
Sequential scheduling: a request moves its family's active pointer only off an
account that it may not use, whatever the request has tried before.
-/
namespace CodexMultiAuth

namespace AccountPool

inductive Drained (pool : AccountPool) (env : Runtime) (params : ChooseParams) (account : ManagedAccount) : Prop where
  | disabled (disabled : account.enabled = false)
  | workspace (disabled : hasEnabledWorkspaces account = false)
  | blocked (blocked : account.index ∈ params.blockedAccountIndexes)
  /-- An eligible account that is not passed over for its reserve has a better priority. -/
  | tier (other : ManagedAccount) (member : other ∈ pool.accounts) (eligible : Eligible env params other)
    (ranked : ¬ Outranked pool env params other) (better : priority params other < priority params account)
  | exhausted (exhausted : params.isExhausted account.index = true)
  | reserve (outranked : Outranked pool env params account)
  | skipped (reason : getManagedAccountRuntimeSkipReason env account params.family params.model ≠ none)

variable {pool : AccountPool} {params : ChooseParams} {account : ManagedAccount}

theorem hasNonReserve_outranked (indexed : pool.Indexed) {env : Runtime}
    (free_left : pool.hasNonReserve env params = true) (reserve : params.inReserve account.index = true) :
    Outranked pool env params account := by
  simp only [hasNonReserve,Bool.and_eq_true,List.any_eq_true,Bool.not_eq_true'] at free_left
  obtain ⟨-,other,member,⟨candidate,available⟩,free⟩ := free_left
  exact ⟨reserve,other,member,(isCandidate_iff indexed env params member).mp ⟨candidate,available⟩,free⟩

variable {family : ModelFamily}

theorem skipReason_of_not_isAvailable {env : Runtime} {model : Option String}
    (unavailable : isAvailable env account family model = false) : getManagedAccountRuntimeSkipReason env account family model ≠ none := by
  intro runs
  obtain ⟨enabled,workspace⟩ := skipReason_enabled runs
  unfold getManagedAccountRuntimeSkipReason at runs
  rw [if_neg (by simp [enabled]),if_neg (by simp [workspace])] at runs
  cases invalidated : isAccountAuthInvalidated account with
  | true => simp [invalidated] at runs
  | false =>
    cases limited : isRateLimitedForFamily env account family model with
    | true => simp [invalidated,limited] at runs
    | false =>
      cases cooling : isAccountCoolingDown env account with
      | true =>
        simp only [invalidated,limited,cooling,Bool.false_eq_true,if_false,if_true] at runs
        split at runs <;> cases runs
      | false =>
        cases circuit : env.isCircuitAvailable account.ref with
        | true => simp [isAvailable,invalidated,limited,cooling,circuit] at unavailable
        | false => simp [invalidated,limited,cooling,circuit] at runs

theorem activePosition_of_active (active : pool.activeAccount family = some account) :
    ∃ position : Nat, pool.activePosition family = some position ∧ pool.accounts[position]? = some account := by
  rw [activeAccount,item_intCast] at active
  split at active
  · next lower =>
    have inside := lt_count active
    refine ⟨_,?_,active⟩
    unfold activePosition
    exact if_pos ⟨lower,by omega⟩
  · cases active

theorem getCurrentOrNextForFamilySequential_sticky (env : Runtime) (model : Option String)
    {blocked : List Nat} (active : pool.activeAccount family = some account)
    (usable : isUsable env family model blocked account = true) :
    (pool.getCurrentOrNextForFamilySequential env family model blocked).1.currentAccountIndexByFamily =
      pool.currentAccountIndexByFamily := by
  obtain ⟨position,at_position,found⟩ := activePosition_of_active active
  unfold getCurrentOrNextForFamilySequential
  simp only [at_position,found,Option.any_some,usable,if_true]
  rfl

theorem getCurrentOrNextForFamilySequential_other (pool : AccountPool) (env : Runtime) (family : ModelFamily) (model : Option String)
    (blocked : List Nat) {other : ModelFamily} (different : other ≠ family) :
    (pool.getCurrentOrNextForFamilySequential env family model blocked).1.currentAccountIndexByFamily other =
      pool.currentAccountIndexByFamily other := by
  have moved : ∀ position : Nat, (((pool.setActive family position).setCursor family ((position + 1) % pool.count)).touch env.now
      position).currentAccountIndexByFamily other = pool.currentAccountIndexByFamily other :=
    fun position => Function.update_of_ne different _ _
  unfold getCurrentOrNextForFamilySequential
  split
  · split
    · rfl
    · split
      · rfl
      · exact moved _
  · split
    · rfl
    · exact moved _

theorem chooseSequential_active (pool : AccountPool) (env : Runtime) (params : ChooseParams) (blocked : List Nat) :
    (pool.chooseSequential env params blocked).1.currentAccountIndexByFamily =
      (pool.getCurrentOrNextForFamilySequential env params.family params.model blocked).1.currentAccountIndexByFamily := by
  unfold chooseSequential
  simp only
  split
  · rfl
  · unfold chooseLinearScanFallback
    split <;> rfl

/-! ### The request -/

/-- What the choice can come to for the active pointers: they stay, or they are the
    selector's with the policy's blocks, or with everything blocked outside the tier. -/
theorem chooseAccount_active (pool : AccountPool) (env : Runtime)
    (sequential : params.schedulingStrategy = .sequential) :
    (pool.chooseAccount env params).1.currentAccountIndexByFamily = pool.currentAccountIndexByFamily ∨
      ∃ blocked, (pool.chooseAccount env params).1.currentAccountIndexByFamily =
          (pool.getCurrentOrNextForFamilySequential env params.family params.model blocked).1.currentAccountIndexByFamily ∧
        (blocked = params.blockedAccountIndexes ∨
          ∃ priorities, params.policy.bind RuntimePolicyDecision.priorityByAccount = some priorities ∧
            blocked = pool.blockedBeyond env params (pool.tierIndexes env params priorities)) := by
  have within : ∀ pinned blocked, (pool.chooseWithin env params pinned blocked).1.currentAccountIndexByFamily =
        pool.currentAccountIndexByFamily ∨
      (pool.chooseWithin env params pinned blocked).1.currentAccountIndexByFamily =
        (pool.getCurrentOrNextForFamilySequential env params.family params.model blocked).1.currentAccountIndexByFamily := by
    intro pinned blocked
    unfold chooseWithin
    rw [sequential]
    cases pinned with
    | some pinned => exact .inl rfl
    | none => exact .inr (chooseSequential_active pool env params blocked)
  unfold chooseAccount
  split
  · exact .inl rfl
  · split
    · next priorities _ ranked =>
      by_cases empty : pool.rankedCandidates env params = []
      · left
        simp [chooseRanked,empty]
      · obtain ⟨pinned,-,-,active⟩ := chooseRanked_within pool env params priorities empty
        rw [active]
        rcases within pinned _ with same | moved
        · exact .inl same
        · exact .inr ⟨_,moved,.inr ⟨priorities,ranked,rfl⟩⟩
    · rcases within params.pinnedIndex params.blockedAccountIndexes with same | moved
      · exact .inl same
      · exact .inr ⟨_,moved,.inl rfl⟩

theorem usable_of_not_drained (indexed : pool.Indexed) {env : Runtime}
    (sequential : params.schedulingStrategy = .sequential) (member : account ∈ pool.accounts) (stays : ¬ Drained pool env params account) {blocked : List Nat}
    (which : blocked = params.blockedAccountIndexes ∨
      ∃ priorities, params.policy.bind RuntimePolicyDecision.priorityByAccount = some priorities ∧
        blocked = pool.blockedBeyond env params (pool.tierIndexes env params priorities)) :
    isUsable env params.family params.model blocked account = true := by
  have enabled : account.enabled = true := by
    by_contra disabled
    exact stays (.disabled (by simpa using disabled))
  have workspace : hasEnabledWorkspaces account = true := by
    by_contra disabled
    exact stays (.workspace (by simpa using disabled))
  have available : isAvailable env account params.family params.model = true := by
    by_contra unavailable
    exact stays (.skipped (skipReason_of_not_isAvailable (by simpa using unavailable)))
  have allowed : account.index ∉ params.blockedAccountIndexes := fun blocked => stays (.blocked blocked)
  have unblocked : account.index ∉ blocked := by
    rcases which with rfl | ⟨priorities,ranked,rfl⟩
    · exact allowed
    · intro member_blocked
      rcases List.mem_append.mp member_blocked with policy | outside
      · exact allowed policy
      · obtain ⟨other,kept,same⟩ := List.mem_map.mp outside
        obtain ⟨-,excluded⟩ := List.mem_filter.mp kept
        rw [same] at excluded
        simp only [Bool.and_eq_true,Bool.or_eq_true,Bool.not_eq_true',List.contains_eq_mem,decide_eq_false_iff_not] at excluded
        obtain ⟨outside_tier,why⟩ := excluded
        have runs : getManagedAccountRuntimeSkipReason env account params.family params.model = none := by
          by_contra reason
          exact stays (.skipped reason)
        have left : params.isExhausted account.index = false := by
          by_contra exhausted
          exact stays (.exhausted (by simpa using exhausted))
        have fine : ¬ Outranked pool env params account := fun outranked => stays (.reserve outranked)
        have fresh : account.index ∉ params.attemptedIndexes := by
          rcases why with ((strategy | fresh) | exhausted) | ⟨free_left,reserve⟩
          · simp [sequential] at strategy
          · exact fresh
          · simp [left] at exhausted
          · exact absurd (hasNonReserve_outranked indexed free_left reserve) fine
        have among : account ∈ pool.rankedCandidates env params :=
          (mem_rankedCandidates indexed env params account).mpr ⟨member,⟨enabled,workspace,allowed,fresh,runs,left⟩,fine⟩
        have not_least : ¬ ∀ other ∈ pool.rankedCandidates env params,
            priorityOf priorities account.index ≤ priorityOf priorities other.index :=
          fun least => outside_tier ((mem_tierIndexes pool env params priorities _).mpr ⟨account,among,rfl,least⟩)
        simp only [not_forall,not_le] at not_least
        obtain ⟨other,other_ranked,better⟩ := not_least
        obtain ⟨other_member,other_eligible,other_fine⟩ := (mem_rankedCandidates indexed env params other).mp other_ranked
        refine stays (.tier other other_member other_eligible other_fine ?_)
        simpa [priority,ranked] using better
  simp [isUsable,enabled,workspace,available,unblocked]

/-- A request moves only its own family's pointer, and only off an account it may not use. -/
theorem chooseAccount_moves (indexed : pool.Indexed) (env : Runtime)
    (sequential : params.schedulingStrategy = .sequential)
    (active : pool.activeAccount family = some account)
    (moved : (pool.chooseAccount env params).1.currentAccountIndexByFamily family ≠ pool.currentAccountIndexByFamily family) :
    family = params.family ∧ Drained pool env params account := by
  rcases chooseAccount_active pool env sequential with same | ⟨blocked,outcome,which⟩
  · exact absurd (congrFun same family) moved
  · rw [outcome] at moved
    have own : family = params.family := by
      by_contra different
      exact moved (getCurrentOrNextForFamilySequential_other pool env params.family params.model blocked different)
    refine ⟨own,?_⟩
    subst own
    by_contra stays
    obtain ⟨position,-,found⟩ := activePosition_of_active active
    have usable := usable_of_not_drained indexed sequential (List.mem_of_getElem? found) stays which
    exact moved (congrFun (getCurrentOrNextForFamilySequential_sticky env params.model active usable) _)

theorem chooseWithin_same (pool : AccountPool) (env : Runtime) (params : ChooseParams) (pinned : Option ℤ) (blocked : List Nat) :
    SameAccounts pool (pool.chooseWithin env params pinned blocked).1 := by
  unfold chooseWithin
  split
  · exact SameAccounts.refl pool
  · unfold chooseSequential
    have same := getCurrentOrNextForFamilySequential_same pool env params.family params.model blocked
    simp only
    split
    · exact same
    · exact same.trans (chooseLinearScanFallback_same _ env params blocked false)
  · unfold chooseHybrid
    split
    · exact markSwitched_same pool _ _ _
    · have same := getCurrentOrNextForFamilyHybrid_same pool env params.family params.model params.score blocked
      simp only
      split
      · exact same
      · exact same.trans (chooseLinearScanFallback_same _ env params blocked true)

theorem chooseAccount_same (pool : AccountPool) (env : Runtime) (params : ChooseParams) :
    SameAccounts pool (pool.chooseAccount env params).1 := by
  unfold chooseAccount
  split
  · exact SameAccounts.refl pool
  · split
    · unfold chooseRanked
      split
      · exact SameAccounts.refl pool
      · simp only
        split
        · exact (chooseWithin_same pool env params _ _).trans (sameAccounts_touch _ _ _)
        · exact chooseWithin_same pool env params _ _
    · exact chooseWithin_same pool env params _ _

theorem choices_same (pool : AccountPool) (requests : List (Runtime × ChooseParams)) :
    let unhindered (account : ManagedAccount) := { account with rateLimitResetTimes := [],coolingDownUntil := none,cooldownReason := none }
    let after := requests.foldl (fun pool request => (pool.chooseAccount request.1 request.2).1) pool
    (after.accounts.map settled).map unhindered = (pool.accounts.map settled).map unhindered := by
  intro unhindered after
  have same : SameAccounts pool after := by
    induction requests generalizing pool with
    | nil => exact SameAccounts.refl pool
    | cons request rest ih => exact (chooseAccount_same pool request.1 request.2).trans (ih _)
  exact congrArg (List.map unhindered) same

/-- A call for a request, or anything else that happens to the pool. -/
inductive RequestAction where
  | choose (env : Runtime) (params : ChooseParams)
  | change (next : AccountPool)

def serve (pool : AccountPool) : RequestAction → AccountPool
  | .choose env params => (pool.chooseAccount env params).1
  | .change next => next

/-- Every call is sequential; the rest keeps each account at its index. -/
def Served (_ : AccountPool) : RequestAction → Prop
  | .choose _ params => params.schedulingStrategy = .sequential
  | .change next => next.Indexed

/-- The family's pointer denotes an account that no call of the family moves on
    from, and nothing but the calls moves the pointer. -/
def Undrained (family : ModelFamily) (pool : AccountPool) (action : RequestAction) : Prop :=
  Served pool action ∧ (pool.activeAccount family).isSome = true ∧
    match action with
    | .choose env params => params.family = family → ∀ account, pool.activeAccount family = some account → ¬ Drained pool env params account
    | .change next => next.currentAccountIndexByFamily family = pool.currentAccountIndexByFamily family

theorem serve_indexed (indexed : pool.Indexed) {action : RequestAction} (served : Served pool action) :
    (pool.serve action).Indexed := by
  cases action with
  | choose env params => exact (chooseAccount_same pool env params).indexed indexed
  | change next => exact served

/-- In every run of requests a call moves a pointer only off an account that its
    request may not use, so a pointer stays as long as its account may be used. -/
theorem sequential_drains_first {start pool : AccountPool} (indexed : start.Indexed) (run : Runs.Run serve Served start pool) :
    (∀ env params family account, params.schedulingStrategy = .sequential → pool.activeAccount family = some account →
      (pool.chooseAccount env params).1.currentAccountIndexByFamily family ≠ pool.currentAccountIndexByFamily family →
        family = params.family ∧ Drained pool env params account) ∧
    ∀ family later, Runs.Run serve (Undrained family) pool later →
      later.currentAccountIndexByFamily family = pool.currentAccountIndexByFamily family := by
  have here : pool.Indexed := run.invariant (P := Indexed) (fun _ _ served holds => serve_indexed holds served) indexed
  refine ⟨?_,?_⟩
  · intro env params family account sequential active moved
    exact chooseAccount_moves here env sequential active moved
  · intro family later undrained
    have kept : later.Indexed ∧ later.currentAccountIndexByFamily family = pool.currentAccountIndexByFamily family := by
      refine undrained.invariant (P := fun other => other.Indexed ∧
        other.currentAccountIndexByFamily family = pool.currentAccountIndexByFamily family) ?_ ⟨here,rfl⟩
      rintro other action ⟨served,denotes,stays⟩ ⟨holds,same⟩
      refine ⟨serve_indexed holds served,?_⟩
      cases action with
      | change next => exact stays.trans same
      | choose env params =>
        obtain ⟨account,active⟩ := Option.isSome_iff_exists.mp denotes
        by_contra moved
        obtain ⟨own,drained⟩ := chooseAccount_moves holds env served active (fun unmoved => moved (unmoved.trans same))
        exact stays own.symm account active drained
    exact kept.2

section
private def firstAccount : ManagedAccount := { ref := 0,index := 0,refreshToken := "a" }

private def twoAccounts : AccountPool where
  accounts := [firstAccount,{ ref := 1,index := 1,refreshToken := "b" }]
  cursorByFamily _ := 0
  currentAccountIndexByFamily _ := 0
  pinnedAccountIndex := none

/-- The first account's circuit is open. -/
private def trippedRuntime : Runtime where
  now := 100
  isCircuitAvailable ref := decide (ref ≠ 0)
  selectedQuotaWorkspace _ := none
  workspaceQuotaKey key _ := key

private def secondTry : ChooseParams where
  family := .codex
  attemptedIndexes := [0]
  schedulingStrategy := .sequential

/-- Another family's request runs first. -/
theorem sequential_drains_first_tripped :
    Drained (twoAccounts.serve (.choose trippedRuntime { secondTry with family := .gpt52 })) trippedRuntime secondTry firstAccount := by
  have indexed : twoAccounts.Indexed := by
    intro i account found
    match i with
    | 0 | 1 =>
      cases found
      rfl
    | i + 2 => simp [twoAccounts] at found
  have run : Runs.Run serve Served twoAccounts (twoAccounts.serve (.choose trippedRuntime { secondTry with family := .gpt52 })) :=
    (Runs.Run.nil twoAccounts).snoc rfl
  refine ((sequential_drains_first indexed run).1 trippedRuntime secondTry .codex firstAccount rfl ?_ ?_).2
  · rfl
  · decide
end

end AccountPool
end CodexMultiAuth
