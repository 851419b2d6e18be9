import CodexMultiAuth.AccountPool

/-!
The choice of an account for a request: the pins, the priority tiers, the two
scheduling strategies and the linear scan. One call reads the clock once. The
reasons that are kept for diagnostics are left out.
-/
namespace CodexMultiAuth

/-- The part of a quota hint that the choice reads. -/
structure SubscriptionQuotaPreference where
  remainingPercent : Option ℚ := none
  resetAtMs : Option ℚ := none
  exhausted : Bool := false

def SUBSCRIPTION_RESERVE_PERCENT : ℚ := 5

def usesSubscriptionReserve (preference : Option SubscriptionQuotaPreference) : Bool :=
  match preference.bind SubscriptionQuotaPreference.remainingPercent with
  | some remaining => decide (remaining ≤ SUBSCRIPTION_RESERVE_PERCENT)
  | none => false

/-- Numbers in order; no number is infinity. -/
def compareReset : Option ℚ → Option ℚ → Ordering
  | some a,some b => compare a b
  | some _,none => .lt
  | none,some _ => .gt
  | none,none => .eq

/-- `lt` says that `a` should be used first. -/
def compareSubscriptionQuota (a b : SubscriptionQuotaPreference) : Ordering :=
  (compare a.exhausted b.exhausted).then
    ((compare (usesSubscriptionReserve (some a)) (usesSubscriptionReserve (some b))).then
      ((compareReset a.resetAtMs b.resetAtMs).then
        (compare (b.remainingPercent.getD (-1)) (a.remainingPercent.getD (-1)))))

structure RuntimePolicyDecision where
  blockedAccountIndexes : List Nat
  priorityByAccount : Option (OrderedMap Nat ℚ) := none

inductive SchedulingStrategy where
  | hybrid
  | sequential
  deriving DecidableEq

structure ChooseParams where
  family : ModelFamily
  model : Option String := none
  /-- The account that the request's session used last. -/
  sessionPreferredIndex : Option Nat := none
  attemptedIndexes : List Nat := []
  now : ℚ := 0
  policy : Option RuntimePolicyDecision := none
  pinnedIndex : Option ℤ := none
  preferredIndex : Option Nat := none
  fallbackPinnedIndex : Option Nat := none
  subscriptionQuotaByAccount : Option (OrderedMap Nat SubscriptionQuotaPreference) := none
  score : AccountPool.HybridScore := fun _ => some 0
  schedulingStrategy : SchedulingStrategy := .hybrid
  allowPinnedCooldown : Bool := false

namespace ChooseParams
variable (params : ChooseParams)

def blockedAccountIndexes : List Nat := (params.policy.map RuntimePolicyDecision.blockedAccountIndexes).getD []

def quota (index : Nat) : Option SubscriptionQuotaPreference := params.subscriptionQuotaByAccount.bind (fun quotas => quotas.find index)

def isExhausted (index : Nat) : Bool := (params.quota index).any SubscriptionQuotaPreference.exhausted

def inReserve (index : Nat) : Bool := usesSubscriptionReserve (params.quota index)
end ChooseParams

def priorityOf (priorities : OrderedMap Nat ℚ) (index : Nat) : ℚ := (priorities.find index).getD 1

/-- A cooldown, the one blocker that a retry with a pin may waive. -/
def isCooldownReason (reason : String) : Bool := reason == "cooling-down" || "cooling-down:".toList.isPrefixOf reason.toList

namespace AccountPool
variable (pool : AccountPool) (env : Runtime) (params : ChooseParams)

def canRun (index : Nat) : Bool := (pool.getAccountRuntimeSkipReason env index params.family params.model).isNone

/-- A pinned account is served or nothing is. -/
def choosePinned (pinnedIndex : ℤ) (blockedAccountIndexes : List Nat) (allowPinnedCooldown : Bool) : Option Nat :=
  if pinnedIndex < 0 ∨ pool.count ≤ pinnedIndex then none
  else if blockedAccountIndexes.contains pinnedIndex.toNat then none
  else
    match pool.getAccountByIndex pinnedIndex.toNat with
    | none => none
    | some pinned =>
      if pinned.enabled = false then none
      else
        match pool.getAccountRuntimeSkipReason env pinnedIndex.toNat params.family params.model with
        | none => some pinnedIndex.toNat
        | some reason => if allowPinnedCooldown && isCooldownReason reason then some pinnedIndex.toNat else none

def chooseLinearScanFallback (blockedAccountIndexes : List Nat) (advanceActivePointer : Bool) : AccountPool × Option Nat :=
  match pool.accounts.findSome? (fun account =>
    if params.attemptedIndexes.contains account.index then none
    else if blockedAccountIndexes.contains account.index then none
    else if pool.canRun env params account.index then
      (if (pool.getAccountByIndex account.index).isSome then some account.index else none)
    else none) with
  | none => (pool,none)
  | some idx => (if advanceActivePointer then pool.markSwitched idx "rotation" params.family else pool,some idx)

def accepts (blockedAccountIndexes : List Nat) (selected : Option Nat) : Option Nat :=
  selected.filter (fun position => (pool.accounts[position]?).any (fun account =>
    !params.attemptedIndexes.contains account.index && !blockedAccountIndexes.contains account.index &&
      pool.canRun env params account.index))

/-- The sequential strategy: the scan after an attempted account moves no pointer. -/
def chooseSequential (blockedAccountIndexes : List Nat) : AccountPool × Option Nat :=
  let drained := pool.getCurrentOrNextForFamilySequential env params.family params.model blockedAccountIndexes
  match drained.1.accepts env params blockedAccountIndexes drained.2 with
  | some position => (drained.1,some position)
  | none => drained.1.chooseLinearScanFallback env params blockedAccountIndexes false

def sessionPreferred (blockedAccountIndexes : List Nat) : Option Nat :=
  params.sessionPreferredIndex.filter (fun preferredIndex =>
    !params.attemptedIndexes.contains preferredIndex && !blockedAccountIndexes.contains preferredIndex &&
      (pool.getAccountByIndex preferredIndex).any (fun preferred => pool.canRun env params preferred.index))

def chooseHybrid (blockedAccountIndexes : List Nat) : AccountPool × Option Nat :=
  match pool.sessionPreferred env params blockedAccountIndexes with
  | some preferredIndex => (pool.markSwitched preferredIndex "rotation" params.family,some preferredIndex)
  | none =>
    let scored := pool.getCurrentOrNextForFamilyHybrid env params.family params.model params.score blockedAccountIndexes
    match scored.1.accepts env params blockedAccountIndexes scored.2 with
    | some position => (scored.1,some position)
    | none => scored.1.chooseLinearScanFallback env params blockedAccountIndexes true

/-- The choice without priorities. -/
def chooseWithin (pinnedIndex : Option ℤ) (blockedAccountIndexes : List Nat) : AccountPool × Option Nat :=
  match pinnedIndex,params.schedulingStrategy with
  | some pinnedIndex,_ => (pool,pool.choosePinned env params pinnedIndex blockedAccountIndexes params.allowPinnedCooldown)
  | none,.sequential => pool.chooseSequential env params blockedAccountIndexes
  | none,.hybrid => pool.chooseHybrid env params blockedAccountIndexes

def isCandidate (account : ManagedAccount) : Bool :=
  account.enabled && !params.attemptedIndexes.contains account.index && !params.blockedAccountIndexes.contains account.index &&
    pool.canRun env params account.index

/-- There are hints, and an account to try that they neither exclude nor hold in reserve. -/
def hasNonReserve : Bool :=
  params.subscriptionQuotaByAccount.isSome && pool.accounts.any (fun account =>
    pool.isCandidate env params account && !params.isExhausted account.index && !params.inReserve account.index)

/-- A soft pin is tried first. -/
def chooseFallbackPin : Option Nat :=
  match params.pinnedIndex,params.fallbackPinnedIndex with
  | none,some fallbackPin =>
    if params.attemptedIndexes.contains fallbackPin || params.isExhausted fallbackPin ||
        (pool.hasNonReserve env params && params.inReserve fallbackPin) then none
    else pool.choosePinned env params fallbackPin params.blockedAccountIndexes false
  | _,_ => none

def rankedCandidates : List ManagedAccount :=
  let candidates := pool.accounts.filter (pool.isCandidate env params)
  if params.subscriptionQuotaByAccount.isSome then
    let usable := candidates.filter (fun account => !params.isExhausted account.index)
    let nonReserve := usable.filter (fun account => !params.inReserve account.index)
    if nonReserve = [] then usable else nonReserve
  else candidates

def tierIndexes (priorities : OrderedMap Nat ℚ) : List Nat :=
  match ((pool.rankedCandidates env params).map (fun account => priorityOf priorities account.index)).min? with
  | none => []
  | some tier =>
    ((pool.rankedCandidates env params).filter (fun account => decide (priorityOf priorities account.index = tier))).map
      ManagedAccount.index

def rankedFirst (tierIndexes : List Nat) : Option (Nat × SubscriptionQuotaPreference) :=
  (((pool.rankedCandidates env params).filterMap (fun account =>
    if tierIndexes.contains account.index then (params.quota account.index).map (fun quota => (account.index,quota)) else none)).mergeSort
      (fun a b => (compareSubscriptionQuota a.2 b.2).isLE)).head?

def preferredInTier (priorities : OrderedMap Nat ℚ) (tierIndexes : List Nat) : Option Nat :=
  let sequential := params.schedulingStrategy = .sequential
  -- the policy gives every account priority 1 even where no order was saved
  let useSavedOrder := sequential ∧ priorities.any (fun entry => decide (entry.2 ≠ 1)) = true
  let preferred :=
    if useSavedOrder then
      ((pool.rankedCandidates env params).find? (fun account => tierIndexes.contains account.index)).map ManagedAccount.index
    else params.preferredIndex
  let ranked := if params.subscriptionQuotaByAccount.isSome ∧ ¬ sequential then pool.rankedFirst env params tierIndexes else none
  match ranked with
  | none => preferred
  | some best =>
    if best.2.resetAtMs.isSome || best.2.remainingPercent.isSome then
      match preferred.bind (fun preferred => (params.quota preferred).map (fun quota => (preferred,quota))) with
      | none => some best.1
      | some current =>
        if !tierIndexes.contains current.1 || compareSubscriptionQuota best.2 current.2 == .lt then some best.1 else preferred
    else preferred

/-- The accounts outside the tier. With the sequential strategy an account that was
    only attempted stays, so that a retry does not move the active pointer. -/
def outsideTier (tierIndexes : List Nat) : List Nat :=
  (pool.accounts.filter (fun account => !tierIndexes.contains account.index &&
    (decide (params.schedulingStrategy ≠ .sequential) || !params.attemptedIndexes.contains account.index ||
      params.isExhausted account.index || (pool.hasNonReserve env params && params.inReserve account.index)))).map ManagedAccount.index

def chooseRanked (priorities : OrderedMap Nat ℚ) : AccountPool × Option Nat :=
  if pool.rankedCandidates env params = [] then (pool,none)
  else
    let tier := pool.tierIndexes env params priorities
    let preferred := (pool.preferredInTier env params priorities tier).filter (fun preferred => tier.contains preferred)
    let chosen := pool.chooseWithin env params (preferred.map Int.ofNat)
      (params.blockedAccountIndexes ++ pool.outsideTier env params tier)
    match params.schedulingStrategy,chosen.2 with
    | .sequential,some position => (chosen.1.touch params.now position,some position)
    | _,_ => chosen

/-- The calls that `chooseAccount` makes of itself, with a pin or without
    priorities, end in `choosePinned` and `chooseWithin`. -/
def chooseAccount : AccountPool × Option Nat :=
  match pool.chooseFallbackPin env params with
  | some position => (pool,some position)
  | none =>
    match params.pinnedIndex,params.policy.bind RuntimePolicyDecision.priorityByAccount with
    | none,some priorities => pool.chooseRanked env params priorities
    | pinnedIndex,_ => pool.chooseWithin env params pinnedIndex params.blockedAccountIndexes
end AccountPool

end CodexMultiAuth
