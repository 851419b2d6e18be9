import CodexMultiAuth.AccountPool
import CodexMultiAuth.BreakerProbes
import Mathlib.Tactic.Linarith

/-!
How long a request is told to wait for an account: the least, over the accounts that
count, of the time until the last of what holds an account back has passed. It does not
look at workspaces.
-/
namespace CodexMultiAuth.MinimumWait
open List
open RuntimeProxy (CircuitBreaker CircuitBreakerConfig)

/-- What a test of an account reads besides the pool and the clock. -/
structure Surroundings where
  circuit : CircuitBreakerConfig := {}
  breakers : ℕ → CircuitBreaker
  selectedQuotaWorkspace : RateLimitedEntity → Option String
  workspaceQuotaKey : String → String → String

def Surroundings.at_ (world : Surroundings) (now : ℚ) : Runtime where
  now := now
  isCircuitAvailable := fun ref => (world.breakers ref).isAvailable world.circuit now
  selectedQuotaWorkspace := world.selectedQuotaWorkspace
  workspaceQuotaKey := world.workspaceQuotaKey

def isAccountAvailableForFamily (env : Runtime) (pool : AccountPool) (index : ℕ) (family : ModelFamily) (model : Option String) : Bool :=
  match pool.getAccountByIndex index with
  | none => false
  | some account =>
    if account.enabled = false then false
    else if hasEnabledWorkspaces account = false then false
    else isAvailable env account family model

/-- The accounts that a request may wait for. -/
def isCandidate (excludedIndexes : List ℕ) (account : ManagedAccount) : Bool :=
  account.enabled && !isAccountAuthInvalidated account && !excludedIndexes.contains account.index

/-- Whether nothing that passes with time holds an account back. -/
def isUnhindered (env : Runtime) (family : ModelFamily) (model : Option String) (account : ManagedAccount) : Bool :=
  !isRateLimitedForFamily env account family model && !isAccountCoolingDown env account && env.isCircuitAvailable account.ref

section
variable (world : Surroundings) (now : ℚ) (family : ModelFamily) (model : Option String)

/-- The cooldown once the account was tested; the test drops one that is over, if it comes to it. -/
def testedCooldown (account : ManagedAccount) : Option ℚ :=
  if isRateLimitedForFamily (world.at_ now) account family model then account.coolingDownUntil
  else account.coolingDownUntil.filter (fun deadline => decide (now < deadline))

def limitWait (account : ManagedAccount) (key : String) : List ℚ :=
  let resetAt := quotaResetTime (world.at_ now) account key
  if now < resetAt then [max 0 (resetAt - now)] else []

def perAccountWaitTimes (account : ManagedAccount) : List ℚ :=
  let breakerWait := (world.breakers account.ref).getTimeUntilAvailable world.circuit now
  (if model ≠ some LUNA_RESERVE_MODEL then limitWait world now account (getQuotaKey family none) else []) ++
    (if (model.bind nonEmpty).isSome then limitWait world now account (getQuotaKey family model) else []) ++
    ((testedCooldown world now family model account).map (fun deadline => max 0 (deadline - now))).toList ++
    (if 0 < breakerWait then [breakerWait] else [])

def getMinWaitTimeForFamily (pool : AccountPool) (excludedIndexes : List ℕ) : ℚ :=
  let enabledAccounts := pool.accounts.filter (isCandidate excludedIndexes)
  if enabledAccounts.any (isUnhindered (world.at_ now) family model) then 0
  else if enabledAccounts = [] then 0
  else ((enabledAccounts.filterMap (fun account => (perAccountWaitTimes world now family model account).max?)).min?).getD 0

end

/-! ### What holds an account back -/

theorem isAvailable_iff {config : CircuitBreakerConfig} {breaker : CircuitBreaker} {now later : ℚ} (onwards : now ≤ later) :
    breaker.isAvailable config later = true ↔ now + breaker.getTimeUntilAvailable config now ≤ later := by
  have waits : config.resetTimeoutMs ≤ later - breaker.lastStateChange ↔ now + CircuitBreaker.retryAfterMs config now breaker ≤ later := by
    unfold CircuitBreaker.retryAfterMs
    rw [← le_sub_iff_add_le',max_le_iff,and_iff_right (sub_nonneg.mpr onwards)]
    constructor
    · intro elapsed
      linarith
    · intro elapsed
      linarith
  unfold CircuitBreaker.isAvailable CircuitBreaker.getTimeUntilAvailable
  cases breaker.state with
  | closed => simpa using onwards
  | open_ =>
    dsimp only
    rw [decide_eq_true_iff]
    exact waits
  | halfOpen =>
    dsimp only
    rw [Bool.or_eq_true,decide_eq_true_iff,CircuitBreaker.hasHalfOpenProbeWaitElapsed_iff]
    by_cases full : config.halfOpenMaxAttempts ≤ breaker.halfOpenAttempts
    · rw [if_pos full,waits]
      exact or_iff_right (not_lt.mpr full)
    · rw [if_neg full,add_zero]
      exact iff_of_true (Or.inl (not_le.mp full)) onwards

section
variable (world : Surroundings) {now later : ℚ} (family : ModelFamily) (model : Option String) (account : ManagedAccount)

section
variable (onwards : now ≤ later)
include onwards

theorem limitWait_passed (key : String) :
    isRateLimitedForQuotaKey (world.at_ later) account key = false ↔ ∀ wait ∈ limitWait world now account key, now + wait ≤ later := by
  unfold isRateLimitedForQuotaKey limitWait
  rw [decide_eq_false_iff_not]
  show ¬later < quotaResetTime (world.at_ now) account key ↔ _
  rw [not_lt]
  dsimp only
  split_ifs with limited
  · rw [forall_mem_singleton,max_eq_right (sub_nonneg.mpr limited.le),add_sub_cancel]
  · exact iff_of_true ((not_lt.mp limited).trans onwards) fun wait member => absurd member not_mem_nil

theorem limits_passed : isRateLimitedForFamily (world.at_ later) account family model = false ↔
    (∀ wait ∈ (if model ≠ some LUNA_RESERVE_MODEL then limitWait world now account (getQuotaKey family none) else []), now + wait ≤ later) ∧
      ∀ wait ∈ (if (model.bind nonEmpty).isSome then limitWait world now account (getQuotaKey family model) else []), now + wait ≤ later := by
  have base := limitWait_passed world account onwards (getQuotaKey family none)
  have named := limitWait_passed world account onwards (getQuotaKey family model)
  have nothing : ∀ wait ∈ ([] : List ℚ), now + wait ≤ later := fun wait member => absurd member not_mem_nil
  unfold isRateLimitedForFamily
  by_cases reserve : model = some LUNA_RESERVE_MODEL
  · have some_model : (model.bind nonEmpty).isSome = true := by
      rw [reserve]
      rfl
    rw [if_neg (not_not.mpr reserve),and_iff_right nothing,if_pos some_model,← named]
    cases isRateLimitedForQuotaKey (world.at_ later) account (getQuotaKey family model) with
    | true => rw [if_pos ⟨some_model,rfl⟩]
    | false => rw [if_neg (fun both => nomatch both.2),if_pos reserve]
  · rw [if_pos reserve,← base]
    by_cases some_model : (model.bind nonEmpty).isSome = true
    · rw [if_pos some_model,← named]
      cases isRateLimitedForQuotaKey (world.at_ later) account (getQuotaKey family model) <;> simp [reserve,some_model]
    · rw [if_neg some_model,and_iff_left nothing,if_neg (fun both => some_model both.1),if_neg reserve]

theorem isUnhindered_iff : isUnhindered (world.at_ later) family model account = true ↔
    ∀ wait ∈ perAccountWaitTimes world now family model account, now + wait ≤ later := by
  have limits := limits_passed world family model account onwards
  have cooldown : isAccountCoolingDown (world.at_ later) account = false ↔
      ∀ deadline, account.coolingDownUntil = some deadline → deadline ≤ later := by
    unfold isAccountCoolingDown
    cases account.coolingDownUntil with
    | none => exact iff_of_true rfl fun deadline none => nomatch none
    | some deadline =>
      show decide (later < deadline) = false ↔ _
      rw [decide_eq_false_iff_not,not_lt]
      exact ⟨fun elapsed other same => Option.some.inj same ▸ elapsed,fun all => all deadline rfl⟩
  have tested : (∀ wait ∈ ((testedCooldown world now family model account).map (fun deadline => max 0 (deadline - now))).toList, now + wait ≤ later) ↔
      ∀ deadline, account.coolingDownUntil = some deadline → deadline ≤ later := by
    have wait_iff (deadline : ℚ) : now + max 0 (deadline - now) ≤ later ↔ deadline ≤ later := by
      rw [← le_sub_iff_add_le',max_le_iff,and_iff_right (sub_nonneg.mpr onwards),sub_le_sub_iff_right]
    unfold testedCooldown
    cases account.coolingDownUntil with
    | none => split_ifs <;> simp
    | some deadline =>
      split_ifs
      · simp [wait_iff]
      · rw [Option.filter_some]
        split_ifs with ahead
        · simp [wait_iff]
        · have elapsed : deadline ≤ later := (not_lt.mp (fun before => ahead (decide_eq_true before))).trans onwards
          simp [elapsed]
  have breaker : (world.breakers account.ref).isAvailable world.circuit later = true ↔
      ∀ wait ∈ (if 0 < (world.breakers account.ref).getTimeUntilAvailable world.circuit now then
        [(world.breakers account.ref).getTimeUntilAvailable world.circuit now] else []), now + wait ≤ later := by
    rw [isAvailable_iff onwards]
    split_ifs with waits
    · exact (forall_mem_singleton (p := fun wait => now + wait ≤ later)).symm
    · exact iff_of_true (by linarith) fun wait member => absurd member not_mem_nil
  unfold isUnhindered perAccountWaitTimes
  rw [Bool.and_eq_true,Bool.and_eq_true,Bool.not_eq_true',Bool.not_eq_true']
  rw [forall_mem_append,forall_mem_append,forall_mem_append]
  exact and_congr (and_congr limits (cooldown.trans tested.symm)) breaker

theorem isUnhindered_later {account : ManagedAccount} {family : ModelFamily} {model : Option String}
    (unhindered : isUnhindered (world.at_ now) family model account = true) : isUnhindered (world.at_ later) family model account = true :=
  (isUnhindered_iff world family model account onwards).mpr fun wait member =>
    ((isUnhindered_iff world family model account le_rfl).mp unhindered wait member).trans onwards

end

end

section
variable (world : Surroundings) {now later : ℚ} (family : ModelFamily) (model : Option String) (pool : AccountPool) (excludedIndexes : List ℕ)

theorem getMinWaitTime_zero
    (free : (pool.accounts.filter (isCandidate excludedIndexes)).any (isUnhindered (world.at_ now) family model) = true) :
    getMinWaitTimeForFamily world now family model pool excludedIndexes = 0 := if_pos free

theorem getMinWaitTime_le_iff (some_ : pool.accounts.filter (isCandidate excludedIndexes) ≠ []) (onwards : now ≤ later) :
    now + getMinWaitTimeForFamily world now family model pool excludedIndexes ≤ later ↔
      ∃ account ∈ pool.accounts.filter (isCandidate excludedIndexes), isUnhindered (world.at_ later) family model account = true := by
  cases free : (pool.accounts.filter (isCandidate excludedIndexes)).any (isUnhindered (world.at_ now) family model) with
  | true =>
    rw [getMinWaitTime_zero world family model pool excludedIndexes free,add_zero]
    obtain ⟨account,member,unhindered⟩ := any_eq_true.mp free
    exact iff_of_true onwards ⟨account,member,isUnhindered_later world onwards unhindered⟩
  | false =>
    unfold getMinWaitTimeForFamily
    dsimp only
    rw [free,if_neg Bool.false_ne_true,if_neg some_]
    generalize pool.accounts.filter (isCandidate excludedIndexes) = candidates at some_ free ⊢
    have longest (account : ManagedAccount) (member : account ∈ candidates) :
        ∃ wait, (perAccountWaitTimes world now family model account).max? = some wait ∧
          ∀ later, now ≤ later → (now + wait ≤ later ↔ isUnhindered (world.at_ later) family model account = true) := by
      cases last : (perAccountWaitTimes world now family model account).max? with
      | none =>
        have unhindered := (isUnhindered_iff world family model account (le_refl now)).mpr (by
          rw [List.max?_eq_none_iff.mp last]
          exact fun wait member => absurd member not_mem_nil)
        exact absurd (any_eq_true.mpr ⟨account,member,unhindered⟩) (by rw [free]; exact Bool.false_ne_true)
      | some wait =>
        refine ⟨wait,rfl,fun later onwards => ?_⟩
        rw [isUnhindered_iff world family model account onwards,← le_sub_iff_add_le',List.max?_le_iff last]
        simp only [← le_sub_iff_add_le']
    cases least : (candidates.filterMap (fun account => (perAccountWaitTimes world now family model account).max?)).min? with
    | none =>
      obtain ⟨account,member⟩ := exists_mem_of_ne_nil candidates some_
      obtain ⟨wait,found,-⟩ := longest account member
      have listed : wait ∈ candidates.filterMap (fun account => (perAccountWaitTimes world now family model account).max?) :=
        mem_filterMap.mpr ⟨account,member,found⟩
      rw [List.min?_eq_none_iff.mp least] at listed
      exact absurd listed not_mem_nil
    | some first =>
      obtain ⟨member,below⟩ := List.min?_eq_some_iff.mp least
      obtain ⟨account,candidate,found⟩ := mem_filterMap.mp member
      rw [Option.getD_some]
      constructor
      · intro elapsed
        obtain ⟨wait,same,ends⟩ := longest account candidate
        rw [found] at same
        cases same
        exact ⟨account,candidate,(ends later onwards).mp elapsed⟩
      · rintro ⟨other,listed,unhindered⟩
        obtain ⟨wait,same,ends⟩ := longest other listed
        have earlier := below wait (mem_filterMap.mpr ⟨other,listed,same⟩)
        have elapsed := (ends later onwards).mpr unhindered
        linarith

theorem getMinWaitTime_eq_zero (some_ : pool.accounts.filter (isCandidate excludedIndexes) ≠ []) :
    getMinWaitTimeForFamily world now family model pool excludedIndexes = 0 ↔
      ∃ account ∈ pool.accounts.filter (isCandidate excludedIndexes), isUnhindered (world.at_ now) family model account = true := by
  constructor
  · intro zero
    refine (getMinWaitTime_le_iff world family model pool excludedIndexes some_ (le_refl now)).mp ?_
    rw [zero,add_zero]
  · rintro ⟨account,member,unhindered⟩
    exact getMinWaitTime_zero world family model pool excludedIndexes (any_eq_true.mpr ⟨account,member,unhindered⟩)

def SomeAvailable (time : ℚ) : Prop :=
  ∃ index account, pool.accounts[index]? = some account ∧ excludedIndexes.contains account.index = false ∧
    isAccountAvailableForFamily (world.at_ time) pool index family model = true

variable (now) in
/-- The reported wait is that of the test of an account. -/
structure Agrees : Prop where
  zero : getMinWaitTimeForFamily world now family model pool excludedIndexes = 0 ↔ SomeAvailable world family model pool excludedIndexes now
  before : getMinWaitTimeForFamily world now family model pool excludedIndexes ≠ 0 → ∀ time, now ≤ time →
    time < now + getMinWaitTimeForFamily world now family model pool excludedIndexes → ¬SomeAvailable world family model pool excludedIndexes time
  atLast : getMinWaitTimeForFamily world now family model pool excludedIndexes ≠ 0 →
    SomeAvailable world family model pool excludedIndexes (now + getMinWaitTimeForFamily world now family model pool excludedIndexes)

variable (now) in
/-- No candidate without an enabled workspace is free before one that has an enabled workspace. -/
def NoneSooner : Prop :=
  ∀ time, now ≤ time → ∀ account ∈ pool.accounts, isCandidate excludedIndexes account = true → hasEnabledWorkspaces account = false →
    isUnhindered (world.at_ time) family model account = true →
      ∃ other ∈ pool.accounts, isCandidate excludedIndexes other = true ∧ hasEnabledWorkspaces other = true ∧
        isUnhindered (world.at_ time) family model other = true

theorem someAvailable_iff (time : ℚ) : SomeAvailable world family model pool excludedIndexes time ↔
    ∃ account ∈ pool.accounts, isCandidate excludedIndexes account = true ∧ hasEnabledWorkspaces account = true ∧
      isUnhindered (world.at_ time) family model account = true := by
  have tests (index : ℕ) (account : ManagedAccount) (found : pool.accounts[index]? = some account) :
      isAccountAvailableForFamily (world.at_ time) pool index family model =
        (account.enabled && hasEnabledWorkspaces account && isAvailable (world.at_ time) account family model) := by
    unfold isAccountAvailableForFamily AccountPool.getAccountByIndex
    rw [found]
    dsimp only
    cases account.enabled <;> cases hasEnabledWorkspaces account <;> simp
  constructor
  · rintro ⟨index,account,found,counts,available⟩
    rw [tests index account found] at available
    simp only [isAvailable,Bool.and_eq_true,Bool.not_eq_true'] at available
    refine ⟨account,mem_of_getElem? found,?_,available.1.2,?_⟩
    · simp only [isCandidate,Bool.and_eq_true,Bool.not_eq_true']
      exact ⟨⟨available.1.1,available.2.1.1.2⟩,counts⟩
    · simp only [isUnhindered,Bool.and_eq_true,Bool.not_eq_true']
      exact ⟨⟨available.2.1.1.1,available.2.1.2⟩,available.2.2⟩
  · rintro ⟨account,member,candidate,workspace,unhindered⟩
    obtain ⟨index,found⟩ := mem_iff_getElem?.mp member
    simp only [isCandidate,Bool.and_eq_true,Bool.not_eq_true'] at candidate
    simp only [isUnhindered,Bool.and_eq_true,Bool.not_eq_true'] at unhindered
    refine ⟨index,account,found,candidate.2,?_⟩
    rw [tests index account found]
    simp only [isAvailable,Bool.and_eq_true,Bool.not_eq_true']
    exact ⟨⟨candidate.1.1,workspace⟩,⟨⟨unhindered.1.1,candidate.1.2⟩,unhindered.1.2⟩,unhindered.2⟩

/-- Where some candidate has an enabled workspace, the reported wait agrees with the test of an
    account just when no candidate without one is free sooner. -/
theorem minimum_wait_agrees_iff
    (served : ∃ account ∈ pool.accounts, isCandidate excludedIndexes account = true ∧ hasEnabledWorkspaces account = true) :
    Agrees world now family model pool excludedIndexes ↔ NoneSooner world now family model pool excludedIndexes := by
  have some_ : pool.accounts.filter (isCandidate excludedIndexes) ≠ [] := by
    obtain ⟨account,member,candidate,-⟩ := served
    exact ne_nil_of_mem (mem_filter.mpr ⟨member,candidate⟩)
  have ends {time : ℚ} (onwards : now ≤ time) := getMinWaitTime_le_iff world family model pool excludedIndexes some_ onwards
  have zero : getMinWaitTimeForFamily world now family model pool excludedIndexes = 0 ↔ _ :=
    getMinWaitTime_eq_zero world family model pool excludedIndexes some_
  have available := someAvailable_iff world family model pool excludedIndexes
  constructor
  · intro agrees time onwards account member candidate _ unhindered
    have elapsed := (ends onwards).mpr ⟨account,mem_filter.mpr ⟨member,candidate⟩,unhindered⟩
    have first : SomeAvailable world family model pool excludedIndexes
        (now + getMinWaitTimeForFamily world now family model pool excludedIndexes) := by
      by_cases free : getMinWaitTimeForFamily world now family model pool excludedIndexes = 0
      · rw [free,add_zero]
        exact agrees.zero.mp free
      · exact agrees.atLast free
    obtain ⟨other,listed,counts,workspace,passes⟩ := (available _).mp first
    exact ⟨other,listed,counts,workspace,isUnhindered_later world elapsed passes⟩
  · intro sooner
    have same {time : ℚ} (onwards : now ≤ time) : SomeAvailable world family model pool excludedIndexes time ↔
        ∃ account ∈ pool.accounts.filter (isCandidate excludedIndexes), isUnhindered (world.at_ time) family model account = true := by
      rw [available]
      constructor
      · rintro ⟨account,member,candidate,-,unhindered⟩
        exact ⟨account,mem_filter.mpr ⟨member,candidate⟩,unhindered⟩
      · rintro ⟨account,listed,unhindered⟩
        obtain ⟨member,candidate⟩ := mem_filter.mp listed
        cases workspace : hasEnabledWorkspaces account with
        | true => exact ⟨account,member,candidate,workspace,unhindered⟩
        | false => exact sooner time onwards account member candidate workspace unhindered
    have nonneg : 0 ≤ getMinWaitTimeForFamily world now family model pool excludedIndexes := by
      by_contra negative
      have free := zero.mpr ((ends (le_refl now)).mp (by linarith))
      exact negative free.ge
    have onwards : now ≤ now + getMinWaitTimeForFamily world now family model pool excludedIndexes := by linarith
    refine ⟨zero.trans (same (le_refl now)).symm,fun _ time later earlier found => ?_,fun _ => (same onwards).mpr ((ends onwards).mp le_rfl)⟩
    have elapsed := (ends later).mpr ((same later).mp found)
    linarith

end

/-- An account that is limited until a second from now, and one that is free but whose one workspace is disabled. -/
def unservedPool : AccountPool where
  accounts :=
    [{ ref := 0,index := 0,refreshToken := "a",rateLimitResetTimes := [("codex",1000)] },
      { ref := 1,index := 1,refreshToken := "b",workspaces := some [[("id",.str "w"),("enabled",.bool false)]] }]
  cursorByFamily := fun _ => 0
  currentAccountIndexByFamily := fun _ => 0
  pinnedAccountIndex := none

def unservedWorld : Surroundings where
  breakers := fun _ => {}
  selectedQuotaWorkspace := fun _ => none
  workspaceQuotaKey := fun key _ => key

theorem unservedPool_agrees_iff : Agrees unservedWorld 0 .codex none unservedPool [] ↔ NoneSooner unservedWorld 0 .codex none unservedPool [] := by
  refine minimum_wait_agrees_iff unservedWorld .codex none unservedPool [] ⟨_,mem_cons_self,?_,?_⟩
  · decide
  · decide

/-- The wait is zero, and no account is available. -/
theorem unservedPool_waits : ¬∀ (world : Surroundings) (now : ℚ) (family : ModelFamily) (model : Option String) (pool : AccountPool)
    (excludedIndexes : List ℕ), (∃ account ∈ pool.accounts, isCandidate excludedIndexes account = true ∧ hasEnabledWorkspaces account = true) →
    Agrees world now family model pool excludedIndexes := by
  intro all
  have agrees := all unservedWorld 0 .codex none unservedPool [] ⟨_,mem_cons_self,by decide,by decide⟩
  obtain ⟨index,account,found,-,available⟩ := agrees.zero.mp (by decide)
  have position : index < 2 := (List.getElem?_eq_some_iff.mp found).1
  match index,position with
  | 0,_ => exact absurd available (by decide)
  | 1,_ => exact absurd available (by decide)

end CodexMultiAuth.MinimumWait
