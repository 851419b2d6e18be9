import CodexMultiAuth.ChooseAccount
import CodexMultiAuth.PoolIndexes

/-!
What `chooseAccount` returns for a request without a pin: an account that can
serve, in the best tier, and nothing only if no account can serve.
-/
namespace CodexMultiAuth

open List

namespace AccountPool

def settled (account : ManagedAccount) : ManagedAccount := { account with lastUsed := 0,lastSwitchReason := none }

/-- The same accounts up to their last use and the reason of their last switch. -/
def SameAccounts (pool after : AccountPool) : Prop := after.accounts.map settled = pool.accounts.map settled

theorem SameAccounts.refl (pool : AccountPool) : SameAccounts pool pool := rfl

theorem SameAccounts.trans {first second third : AccountPool} (same : SameAccounts first second) (next : SameAccounts second third) :
    SameAccounts first third := Eq.trans next same

theorem sameAccounts_update (pool : AccountPool) (position : Nat) {change : ManagedAccount → ManagedAccount}
    (keeps : ∀ account, settled (change account) = settled account) : SameAccounts pool (pool.update position change) :=
  map_modify settled change keeps pool.accounts position

theorem sameAccounts_touch (pool : AccountPool) (now : ℚ) (position : Nat) : SameAccounts pool (pool.touch now position) :=
  sameAccounts_update pool position (fun _ => rfl)

variable {pool after : AccountPool}

theorem SameAccounts.at (same : SameAccounts pool after) (position : Nat) :
    (after.accounts[position]?).map settled = (pool.accounts[position]?).map settled := by
  rw [← List.getElem?_map,← List.getElem?_map,same]

variable {position : Nat} {account : ManagedAccount}

theorem SameAccounts.getElem (same : SameAccounts pool after)
    (found : pool.accounts[position]? = some account) :
    ∃ other, after.accounts[position]? = some other ∧ settled other = settled account := by
  have here := same.at position
  rw [found] at here
  exact Option.map_eq_some_iff.mp here

theorem SameAccounts.symm (same : SameAccounts pool after) : SameAccounts after pool := Eq.symm same

theorem settled_index {account other : ManagedAccount} (same : settled other = settled account) : other.index = account.index := by
  show (settled other).index = (settled account).index
  rw [same]

theorem settled_skipReason (env : Runtime) {account other : ManagedAccount} (same : settled other = settled account) (family : ModelFamily)
    (model : Option String) : getManagedAccountRuntimeSkipReason env other family model = getManagedAccountRuntimeSkipReason env account family model := by
  show getManagedAccountRuntimeSkipReason env (settled other) family model =
    getManagedAccountRuntimeSkipReason env (settled account) family model
  rw [same]

theorem SameAccounts.indexed (same : SameAccounts pool after) (indexed : pool.Indexed) : after.Indexed := by
  intro i account found
  obtain ⟨other,here,alike⟩ := same.symm.getElem found
  rw [← settled_index alike]
  exact indexed i other here

theorem SameAccounts.canRun_eq (same : SameAccounts pool after) (env : Runtime) (params : ChooseParams)
    (index : Nat) : after.canRun env params index = pool.canRun env params index := by
  unfold canRun getAccountRuntimeSkipReason getAccountByIndex
  cases here : pool.accounts[index]? with
  | none =>
    have none_after := same.at index
    rw [here] at none_after
    rw [Option.map_eq_none_iff.mp none_after]
  | some account =>
    obtain ⟨other,there,alike⟩ := same.getElem here
    rw [there]
    simp only [settled_skipReason env alike]

/-- The account at a position can serve the request, blocked accounts aside. -/
structure Serves (pool : AccountPool) (env : Runtime) (params : ChooseParams) (blocked : List Nat) (position : Nat) : Prop where
  fresh : position ∉ params.attemptedIndexes
  unblocked : position ∉ blocked
  runs : pool.canRun env params position = true

/-- The answer is an account that can serve, or there is none. -/
def Answers (pool : AccountPool) (env : Runtime) (params : ChooseParams) (blocked : List Nat) : Option Nat → Prop
  | some position => pool.Serves env params blocked position
  | none => ∀ position, ¬ pool.Serves env params blocked position

variable {pool : AccountPool} {env : Runtime} {params : ChooseParams}

theorem canRun_some (runs : pool.canRun env params position = true) :
    ∃ account, pool.accounts[position]? = some account ∧
      getManagedAccountRuntimeSkipReason env account params.family params.model = none := by
  unfold canRun getAccountRuntimeSkipReason getAccountByIndex at runs
  cases here : pool.accounts[position]? with
  | none => simp [here] at runs
  | some account => exact ⟨account,rfl,by simpa [here] using runs⟩

variable {blocked : List Nat}

theorem Serves.congr
    (same : SameAccounts pool after) (serves : after.Serves env params blocked position) : pool.Serves env params blocked position :=
  ⟨serves.fresh,serves.unblocked,by rw [← same.canRun_eq]; exact serves.runs⟩

theorem Answers.congr {answer : Option Nat}
    (same : SameAccounts pool after) (answers : after.Answers env params blocked answer) : pool.Answers env params blocked answer := by
  cases answer with
  | some position => exact Serves.congr same answers
  | none => exact fun position serves => answers position (Serves.congr same.symm serves)

theorem Indexed.at (indexed : pool.Indexed) (member : account ∈ pool.accounts) :
    pool.accounts[account.index]? = some account := by
  obtain ⟨i,found⟩ := mem_iff_getElem?.mp member
  rw [indexed i account found]
  exact found

theorem markSwitched_same (pool : AccountPool) (position : Nat) (reason : String) (family : ModelFamily) :
    SameAccounts pool (pool.markSwitched position reason family) := by
  unfold markSwitched
  split
  · exact SameAccounts.refl pool
  · exact sameAccounts_update pool position (fun _ => rfl)

theorem getCurrentOrNextForFamilySequential_same (pool : AccountPool) (env : Runtime) (family : ModelFamily) (model : Option String)
    (blocked : List Nat) : SameAccounts pool (pool.getCurrentOrNextForFamilySequential env family model blocked).1 := by
  unfold getCurrentOrNextForFamilySequential
  split
  · split
    · exact sameAccounts_touch pool _ _
    · split
      · exact SameAccounts.refl pool
      · exact sameAccounts_touch _ _ _
  · split
    · exact SameAccounts.refl pool
    · exact sameAccounts_touch _ _ _

theorem getCurrentOrNextForFamilyHybrid_same (pool : AccountPool) (env : Runtime) (family : ModelFamily) (model : Option String)
    (score : HybridScore) (blocked : List Nat) : SameAccounts pool (pool.getCurrentOrNextForFamilyHybrid env family model score blocked).1 := by
  unfold getCurrentOrNextForFamilyHybrid
  split
  · exact SameAccounts.refl pool
  · split
    · exact SameAccounts.refl pool
    · exact sameAccounts_touch _ _ _

theorem chooseLinearScanFallback_same (pool : AccountPool) (env : Runtime) (params : ChooseParams) (blocked : List Nat) (advance : Bool) :
    SameAccounts pool (pool.chooseLinearScanFallback env params blocked advance).1 := by
  unfold chooseLinearScanFallback
  split
  · exact SameAccounts.refl pool
  · cases advance with
    | true => exact markSwitched_same pool _ _ _
    | false => exact SameAccounts.refl pool

theorem chooseLinearScanFallback_answers (indexed : pool.Indexed) (env : Runtime) (params : ChooseParams)
    (blocked : List Nat) (advance : Bool) :
    pool.Answers env params blocked (pool.chooseLinearScanFallback env params blocked advance).2 := by
  unfold chooseLinearScanFallback
  split
  · next exhausted =>
    intro position serves
    obtain ⟨account,found,-⟩ := canRun_some serves.runs
    have own := indexed position account found
    have skipped := List.findSome?_eq_none_iff.mp exhausted account (mem_of_getElem? found)
    simp only [own] at skipped
    simp [serves.fresh,serves.unblocked,serves.runs,getAccountByIndex,found] at skipped
  · next idx found =>
    obtain ⟨account,-,passes⟩ := exists_of_findSome?_eq_some found
    split at passes
    · cases passes
    · next fresh =>
      split at passes
      · cases passes
      · next unblocked =>
        split at passes
        · next runs =>
          split at passes
          · obtain rfl := Option.some.inj passes
            exact ⟨by simpa using fresh,by simpa using unblocked,runs⟩
          · cases passes
        · cases passes

theorem accepts_some (indexed : pool.Indexed)
    {selected : Option Nat} (accepted : pool.accepts env params blocked selected = some position) :
    pool.Serves env params blocked position := by
  obtain ⟨-,passes⟩ := Option.filter_eq_some_iff.mp accepted
  cases here : pool.accounts[position]? with
  | none => simp [here] at passes
  | some account =>
    have own := indexed position account here
    simp only [here,Option.any_some,own,Bool.and_eq_true,Bool.not_eq_true',contains_eq_mem,decide_eq_false_iff_not] at passes
    exact ⟨passes.1.1,passes.1.2,passes.2⟩

theorem chooseSequential_answers (indexed : pool.Indexed) (env : Runtime) (params : ChooseParams) (blocked : List Nat) :
    pool.Answers env params blocked (pool.chooseSequential env params blocked).2 := by
  unfold chooseSequential
  simp only
  have same := getCurrentOrNextForFamilySequential_same pool env params.family params.model blocked
  generalize pool.getCurrentOrNextForFamilySequential env params.family params.model blocked = drained at same ⊢
  split
  · next position accepted => exact Serves.congr same (accepts_some (same.indexed indexed) accepted)
  · exact (chooseLinearScanFallback_answers (same.indexed indexed) env params blocked false).congr same

theorem chooseHybrid_answers (indexed : pool.Indexed) (env : Runtime) (params : ChooseParams) (blocked : List Nat) :
    pool.Answers env params blocked (pool.chooseHybrid env params blocked).2 := by
  unfold chooseHybrid
  split
  · next position preferred =>
    obtain ⟨-,passes⟩ := Option.filter_eq_some_iff.mp preferred
    cases here : pool.accounts[position]? with
    | none => simp [here,getAccountByIndex] at passes
    | some account =>
      have own := indexed position account here
      simp only [here,getAccountByIndex,Option.any_some,own,Bool.and_eq_true,Bool.not_eq_true',contains_eq_mem,
        decide_eq_false_iff_not] at passes
      exact ⟨passes.1.1,passes.1.2,passes.2⟩
  · simp only
    have same := getCurrentOrNextForFamilyHybrid_same pool env params.family params.model params.score blocked
    generalize pool.getCurrentOrNextForFamilyHybrid env params.family params.model params.score blocked = scored at same ⊢
    split
    · next position accepted => exact Serves.congr same (accepts_some (same.indexed indexed) accepted)
    · exact (chooseLinearScanFallback_answers (same.indexed indexed) env params blocked true).congr same

theorem chooseWithin_answers (indexed : pool.Indexed) (env : Runtime) (params : ChooseParams) (blocked : List Nat) :
    pool.Answers env params blocked (pool.chooseWithin env params none blocked).2 := by
  unfold chooseWithin
  cases params.schedulingStrategy with
  | sequential => exact chooseSequential_answers indexed env params blocked
  | hybrid => exact chooseHybrid_answers indexed env params blocked

theorem choosePinned_serves (serves : pool.Serves env params blocked position) (allowPinnedCooldown : Bool) :
    pool.choosePinned env params position blocked allowPinnedCooldown = some position := by
  obtain ⟨account,found,passes⟩ := canRun_some serves.runs
  have inside := lt_count found
  have enabled : account.enabled ≠ false := by
    intro disabled
    simp [getManagedAccountRuntimeSkipReason,disabled] at passes
  have unblocked := serves.unblocked
  unfold choosePinned
  rw [if_neg (by omega),if_neg (by simpa using unblocked)]
  simp only [Int.toNat_natCast,getAccountByIndex,found,if_neg enabled,getAccountRuntimeSkipReason,passes]

/-! ### Across the tiers -/

structure Eligible (env : Runtime) (params : ChooseParams) (account : ManagedAccount) : Prop where
  enabled : account.enabled = true
  workspace : hasEnabledWorkspaces account = true
  unblocked : account.index ∉ params.blockedAccountIndexes
  fresh : account.index ∉ params.attemptedIndexes
  runs : getManagedAccountRuntimeSkipReason env account params.family params.model = none
  available : params.isExhausted account.index = false

theorem skipReason_enabled {family : ModelFamily} {model : Option String}
    (runs : getManagedAccountRuntimeSkipReason env account family model = none) :
    account.enabled = true ∧ hasEnabledWorkspaces account = true := by
  unfold getManagedAccountRuntimeSkipReason at runs
  cases enabled : account.enabled with
  | false => simp [enabled] at runs
  | true =>
    cases workspace : hasEnabledWorkspaces account with
    | false => simp [enabled,workspace] at runs
    | true => exact ⟨rfl,rfl⟩

theorem canRun_iff (env : Runtime) (params : ChooseParams)
    (found : pool.accounts[position]? = some account) :
    pool.canRun env params position = true ↔ getManagedAccountRuntimeSkipReason env account params.family params.model = none := by
  simp [canRun,getAccountRuntimeSkipReason,getAccountByIndex,found]

theorem isCandidate_iff (indexed : pool.Indexed) (env : Runtime) (params : ChooseParams)
    (member : account ∈ pool.accounts) :
    pool.isCandidate env params account = true ∧ params.isExhausted account.index = false ↔ Eligible env params account := by
  have runs := canRun_iff env params (indexed.at member)
  constructor
  · rintro ⟨candidate,available⟩
    simp only [isCandidate,Bool.and_eq_true,Bool.not_eq_true',contains_eq_mem,decide_eq_false_iff_not] at candidate
    have passes := runs.mp candidate.2
    exact ⟨candidate.1.1.1,(skipReason_enabled passes).2,candidate.1.2,candidate.1.1.2,passes,available⟩
  · intro eligible
    refine ⟨?_,eligible.available⟩
    simp only [isCandidate,Bool.and_eq_true,Bool.not_eq_true',contains_eq_mem,decide_eq_false_iff_not]
    exact ⟨⟨⟨eligible.enabled,eligible.fresh⟩,eligible.unblocked⟩,runs.mpr eligible.runs⟩

theorem unhinted (none_given : params.subscriptionQuotaByAccount = none) (index : Nat) :
    params.isExhausted index = false ∧ params.inReserve index = false := by
  simp [ChooseParams.isExhausted,ChooseParams.inReserve,ChooseParams.quota,none_given,usesSubscriptionReserve]

/-- Between eligible accounts, one in reserve is left only where all are. -/
def Outranked (pool : AccountPool) (env : Runtime) (params : ChooseParams) (account : ManagedAccount) : Prop :=
  params.inReserve account.index = true ∧ ∃ other ∈ pool.accounts, Eligible env params other ∧ params.inReserve other.index = false

theorem mem_rankedCandidates (indexed : pool.Indexed) (env : Runtime) (params : ChooseParams) (account : ManagedAccount) :
    account ∈ pool.rankedCandidates env params ↔
      account ∈ pool.accounts ∧ Eligible env params account ∧ ¬ Outranked pool env params account := by
  have usable : ∀ account, account ∈ (pool.accounts.filter (pool.isCandidate env params)).filter
      (fun account => !params.isExhausted account.index) ↔ account ∈ pool.accounts ∧ Eligible env params account := by
    intro account
    simp only [mem_filter,Bool.not_eq_true',and_assoc]
    exact and_congr_right (fun member => isCandidate_iff indexed env params member)
  unfold rankedCandidates
  cases hinted : params.subscriptionQuotaByAccount with
  | none =>
    have free := unhinted hinted
    simp only [Option.isSome_none,Bool.false_eq_true,if_false]
    have simple := usable account
    simp only [(free _).1,Bool.not_false,filter_true] at simple
    rw [simple]
    simp [Outranked,(free _).2]
  | some quotas =>
    simp only [Option.isSome_some,if_true]
    split
    · next all_reserve =>
      rw [usable]
      refine and_congr_right (fun _ => ⟨fun eligible => ⟨eligible,?_⟩,And.left⟩)
      rintro ⟨-,other,member,other_eligible,free⟩
      have := filter_eq_nil_iff.mp all_reserve other ((usable other).mpr ⟨member,other_eligible⟩)
      simp [free] at this
    · next some_free =>
      rw [mem_filter,usable,and_assoc]
      refine and_congr_right (fun _ => and_congr_right (fun _ => ?_))
      obtain ⟨other,among⟩ := exists_mem_of_ne_nil _ some_free
      obtain ⟨member,free⟩ := mem_filter.mp among
      have other_eligible := (usable other).mp member
      constructor
      · rintro outside ⟨inside,-⟩
        simp [inside] at outside
      · intro fine
        by_contra inside
        exact fine ⟨by simpa using inside,other,other_eligible.1,other_eligible.2,by simpa using free⟩

theorem rankedCandidates_empty (indexed : pool.Indexed)
    (empty : pool.rankedCandidates env params = []) (account : ManagedAccount) (member : account ∈ pool.accounts) :
    ¬ Eligible env params account := by
  intro eligible
  have outranked : ∀ account ∈ pool.accounts, Eligible env params account → Outranked pool env params account := by
    intro account member eligible
    by_contra fine
    have := (mem_rankedCandidates indexed env params account).mpr ⟨member,eligible,fine⟩
    rw [empty] at this
    cases this
  obtain ⟨-,other,other_member,other_eligible,free⟩ := outranked account member eligible
  have := (outranked other other_member other_eligible).1
  simp [free] at this

theorem mem_tierIndexes (pool : AccountPool) (env : Runtime) (params : ChooseParams) (priorities : OrderedMap Nat ℚ) (position : Nat) :
    position ∈ pool.tierIndexes env params priorities ↔
      ∃ account ∈ pool.rankedCandidates env params, account.index = position ∧
        ∀ other ∈ pool.rankedCandidates env params, priorityOf priorities account.index ≤ priorityOf priorities other.index := by
  unfold tierIndexes
  cases lowest : ((pool.rankedCandidates env params).map (fun account => priorityOf priorities account.index)).min? with
  | none =>
    have empty : pool.rankedCandidates env params = [] := by simpa using lowest
    simp [empty]
  | some tier =>
    obtain ⟨reached,below⟩ := List.min?_eq_some_iff.mp lowest
    obtain ⟨first,first_member,first_tier⟩ := mem_map.mp reached
    have minimal : ∀ account ∈ pool.rankedCandidates env params, priorityOf priorities account.index = tier ↔
        ∀ other ∈ pool.rankedCandidates env params, priorityOf priorities account.index ≤ priorityOf priorities other.index := by
      intro account member
      constructor
      · intro here other other_member
        rw [here]
        exact below _ (mem_map_of_mem other_member)
      · intro least
        apply le_antisymm
        · rw [← first_tier]
          exact least first first_member
        · exact below _ (mem_map_of_mem member)
    simp only [mem_map,mem_filter,decide_eq_true_eq]
    constructor
    · rintro ⟨account,⟨member,here⟩,same⟩
      exact ⟨account,member,same,(minimal account member).mp here⟩
    · rintro ⟨account,member,same,least⟩
      exact ⟨account,⟨member,(minimal account member).mpr least⟩,same⟩

theorem exists_mem_tierIndexes (some_ranked : pool.rankedCandidates env params ≠ [])
    (priorities : OrderedMap Nat ℚ) : ∃ position, position ∈ pool.tierIndexes env params priorities := by
  cases lowest : ((pool.rankedCandidates env params).map (fun account => priorityOf priorities account.index)).min? with
  | none => exact absurd (by simpa using lowest) some_ranked
  | some tier =>
    obtain ⟨reached,below⟩ := List.min?_eq_some_iff.mp lowest
    obtain ⟨account,member,here⟩ := mem_map.mp reached
    refine ⟨account.index,(mem_tierIndexes pool env params priorities _).mpr ⟨account,member,rfl,?_⟩⟩
    intro other other_member
    rw [here]
    exact below _ (mem_map_of_mem other_member)

def blockedBeyond (pool : AccountPool) (env : Runtime) (params : ChooseParams) (tier : List Nat) : List Nat :=
  params.blockedAccountIndexes ++ pool.outsideTier env params tier

theorem serves_of_mem_tier (indexed : pool.Indexed)
    {priorities : OrderedMap Nat ℚ} (member : position ∈ pool.tierIndexes env params priorities) :
    pool.Serves env params (pool.blockedBeyond env params (pool.tierIndexes env params priorities)) position := by
  obtain ⟨account,ranked,same,-⟩ := (mem_tierIndexes pool env params priorities position).mp member
  obtain ⟨among,eligible,-⟩ := (mem_rankedCandidates indexed env params account).mp ranked
  subst same
  refine ⟨eligible.fresh,?_,(canRun_iff _ _ (indexed.at among)).mpr eligible.runs⟩
  intro blocked
  rcases mem_append.mp blocked with policy | outside
  · exact eligible.unblocked policy
  · obtain ⟨other,kept,same⟩ := mem_map.mp outside
    have excluded := (mem_filter.mp kept).2
    simp [same,member] at excluded

theorem mem_tier_of_serves (indexed : pool.Indexed) {tier : List Nat}
    (serves : pool.Serves env params (pool.blockedBeyond env params tier) position) : position ∈ tier := by
  by_contra outside
  obtain ⟨account,found,-⟩ := canRun_some serves.runs
  have own := indexed position account found
  apply serves.unblocked
  refine mem_append_right _ (mem_map.mpr ⟨account,mem_filter.mpr ⟨mem_of_getElem? found,?_⟩,own⟩)
  have fresh := serves.fresh
  simp [own,outside,fresh]

/-- The answer is an account of the tier, or there is no candidate. -/
def TierAnswers (pool : AccountPool) (env : Runtime) (params : ChooseParams) (priorities : OrderedMap Nat ℚ) : Option Nat → Prop
  | some position => position ∈ pool.tierIndexes env params priorities
  | none => pool.rankedCandidates env params = []

theorem Answers.tier (indexed : pool.Indexed) {priorities : OrderedMap Nat ℚ}
    (some_ranked : pool.rankedCandidates env params ≠ []) {answer : Option Nat}
    (answers : pool.Answers env params (pool.blockedBeyond env params (pool.tierIndexes env params priorities)) answer) :
    pool.TierAnswers env params priorities answer := by
  cases answer with
  | some position => exact mem_tier_of_serves indexed answers
  | none =>
    obtain ⟨position,member⟩ := exists_mem_tierIndexes some_ranked priorities
    exact absurd (serves_of_mem_tier indexed member) (answers position)

/-- `chooseRanked` chooses within its tier; marking the choice as used moves no active pointer. -/
theorem chooseRanked_within (pool : AccountPool) (env : Runtime) (params : ChooseParams) (priorities : OrderedMap Nat ℚ)
    (some_ranked : pool.rankedCandidates env params ≠ []) :
    ∃ pinned, pinned = ((pool.preferredInTier env params priorities (pool.tierIndexes env params priorities)).filter (fun preferred =>
        (pool.tierIndexes env params priorities).contains preferred)).map Int.ofNat ∧
      (pool.chooseRanked env params priorities).2 =
        (pool.chooseWithin env params pinned (pool.blockedBeyond env params (pool.tierIndexes env params priorities))).2 ∧
      (pool.chooseRanked env params priorities).1.currentAccountIndexByFamily =
        (pool.chooseWithin env params pinned
          (pool.blockedBeyond env params (pool.tierIndexes env params priorities))).1.currentAccountIndexByFamily := by
  refine ⟨_,rfl,?_⟩
  unfold chooseRanked
  rw [if_neg some_ranked]
  simp only
  split
  · next position _ chosen => exact ⟨chosen.symm,rfl⟩
  · exact ⟨rfl,rfl⟩

theorem chooseRanked_answers (indexed : pool.Indexed) (env : Runtime) (params : ChooseParams)
    (priorities : OrderedMap Nat ℚ) : pool.TierAnswers env params priorities (pool.chooseRanked env params priorities).2 := by
  by_cases empty : pool.rankedCandidates env params = []
  · simp [chooseRanked,empty,TierAnswers]
  · obtain ⟨choice,preference,answer,-⟩ := chooseRanked_within pool env params priorities empty
    rw [answer,preference]
    refine Answers.tier indexed empty ?_
    generalize pool.preferredInTier env params priorities (pool.tierIndexes env params priorities) = preferred
    cases pinned : preferred.filter (fun preferred => (pool.tierIndexes env params priorities).contains preferred) with
    | none => exact chooseWithin_answers indexed env params _
    | some position =>
      have member : position ∈ pool.tierIndexes env params priorities := by
        simpa using (Option.filter_eq_some_iff.mp pinned).2
      have serves := serves_of_mem_tier indexed member
      simp only [Option.map_some,chooseWithin,Int.ofNat_eq_natCast,choosePinned_serves serves]
      exact serves

theorem chooseAccount_unpinned (pool : AccountPool) (env : Runtime) (no_pin : params.pinnedIndex = none)
    (no_fallback : params.fallbackPinnedIndex = none) :
    pool.chooseAccount env params =
      match params.policy.bind RuntimePolicyDecision.priorityByAccount with
      | some priorities => pool.chooseRanked env params priorities
      | none => pool.chooseWithin env params none params.blockedAccountIndexes := by
  unfold chooseAccount chooseFallbackPin
  rw [no_pin,no_fallback]
  cases params.policy.bind RuntimePolicyDecision.priorityByAccount <;> rfl

def priority (params : ChooseParams) (account : ManagedAccount) : ℚ :=
  priorityOf ((params.policy.bind RuntimePolicyDecision.priorityByAccount).getD []) account.index

/-- Without a pin, what is returned is eligible, outside the reserve if that is
    possible, and in the best tier; and nothing is returned only if no account is eligible. -/
theorem chooseAccount_sound_complete {pool : AccountPool} (indexed : pool.Indexed) (env : Runtime) {params : ChooseParams}
    (no_pin : params.pinnedIndex = none) (no_fallback : params.fallbackPinnedIndex = none)
    (hinted_with_priorities : params.subscriptionQuotaByAccount.isSome = true →
      (params.policy.bind RuntimePolicyDecision.priorityByAccount).isSome = true) :
    (∀ position, (pool.chooseAccount env params).2 = some position → ∃ account, pool.accounts[position]? = some account ∧
      Eligible env params account ∧
      (params.inReserve account.index = true → ∀ other ∈ pool.accounts, Eligible env params other → params.inReserve other.index = true) ∧
      ∀ other ∈ pool.accounts, Eligible env params other → params.inReserve other.index = params.inReserve account.index →
        priority params account ≤ priority params other) ∧
    ((pool.chooseAccount env params).2 = none → ∀ account ∈ pool.accounts, ¬ Eligible env params account) := by
  rw [chooseAccount_unpinned pool env no_pin no_fallback]
  cases ranked : params.policy.bind RuntimePolicyDecision.priorityByAccount with
  | some priorities =>
    have answers := chooseRanked_answers indexed env params priorities
    constructor
    · intro position chosen
      rw [chosen] at answers
      obtain ⟨account,among,same,least⟩ := (mem_tierIndexes pool env params priorities position).mp answers
      obtain ⟨member,eligible,fine⟩ := (mem_rankedCandidates indexed env params account).mp among
      refine ⟨account,same ▸ indexed.at member,eligible,?_,?_⟩
      · intro reserve other other_member other_eligible
        by_contra free
        exact fine ⟨reserve,other,other_member,other_eligible,by simpa using free⟩
      · intro other other_member other_eligible same_reserve
        have other_ranked : other ∈ pool.rankedCandidates env params := by
          refine (mem_rankedCandidates indexed env params other).mpr ⟨other_member,other_eligible,?_⟩
          rintro ⟨reserve,outside⟩
          exact fine ⟨same_reserve ▸ reserve,outside⟩
        have := least other other_ranked
        simpa [priority,ranked] using this
    · intro nothing account member
      rw [nothing] at answers
      exact rankedCandidates_empty indexed answers account member
  | none =>
    have unhinted_here : params.subscriptionQuotaByAccount = none := by
      cases hints : params.subscriptionQuotaByAccount with
      | none => rfl
      | some quotas => simp [hints,ranked] at hinted_with_priorities
    have free := unhinted unhinted_here
    have answers := chooseWithin_answers indexed env params params.blockedAccountIndexes
    constructor
    · intro position chosen
      simp only at chosen
      rw [chosen] at answers
      obtain ⟨account,found,passes⟩ := canRun_some answers.runs
      have own := indexed position account found
      have usable := skipReason_enabled passes
      refine ⟨account,found,⟨usable.1,usable.2,own ▸ answers.unblocked,own ▸ answers.fresh,passes,(free _).1⟩,?_,?_⟩
      · intro reserve
        rw [(free _).2] at reserve
        cases reserve
      · intro other _ _ _
        simp [priority,ranked,priorityOf,OrderedMap.find]
    · intro nothing account member eligible
      simp only at nothing
      rw [nothing] at answers
      refine answers account.index ⟨eligible.fresh,eligible.unblocked,?_⟩
      exact (canRun_iff _ _ (indexed.at member)).mpr eligible.runs

section
private def threeAccounts : AccountPool where
  accounts := [{ ref := 0,index := 0,refreshToken := "a" },{ ref := 1,index := 1,refreshToken := "b" },
    { ref := 2,index := 2,refreshToken := "c" }]
  cursorByFamily _ := 0
  currentAccountIndexByFamily _ := 0
  pinnedAccountIndex := none

private def quietRuntime : Runtime where
  now := 100
  isCircuitAvailable _ := true
  selectedQuotaWorkspace _ := none
  workspaceQuotaKey key _ := key

/-- The first account is in reserve; the third is in a better tier than the second. -/
private def tieredRequest : ChooseParams where
  family := .codex
  policy := some { blockedAccountIndexes := [],priorityByAccount := some [(0,1),(1,3),(2,2)] }
  subscriptionQuotaByAccount := some [(0,{ remainingPercent := some 4 }),(1,{ remainingPercent := some 90 })]
  schedulingStrategy := .sequential

theorem chooseAccount_sound_complete_tiers : ∃ account, threeAccounts.accounts[2]? = some account ∧
    Eligible quietRuntime tieredRequest account := by
  have indexed : threeAccounts.Indexed := by
    intro i account found
    match i with
    | 0 | 1 | 2 =>
      cases found
      rfl
    | i + 3 => simp [threeAccounts] at found
  have chosen : (threeAccounts.chooseAccount quietRuntime tieredRequest).2 = some 2 := by decide
  obtain ⟨account,found,eligible,-⟩ := (chooseAccount_sound_complete indexed quietRuntime rfl rfl (fun _ => rfl)).1 2 chosen
  exact ⟨account,found,eligible⟩
end

end AccountPool
end CodexMultiAuth
