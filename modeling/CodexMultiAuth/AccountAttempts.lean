import CodexMultiAuth.ChoiceContract
import CodexMultiAuth.RateLimits
import Mathlib.Data.List.MinMax

/-!
The loop of a request over the accounts of the pool. Each turn asks the scoring selector
again, which knows nothing of the turns before, and the loop ends when the answer is an
account that was attempted. Others may change the pool during an attempt. The scores are
rational numbers here, and trackers are read by the position of an account.
-/
namespace CodexMultiAuth.AccountAttempts

structure Request where
  family : ModelFamily
  model : Option String
  blockedAccountIndexes : List Nat
  preferredSessionAccountIndex : Option Nat
  /-- How many accounts the pool has when the traversal starts. -/
  accountCount : Nat
  scoreBoostByAccount : Nat → ℚ
  pidBonus : Option ℚ

/-- What the key of a cached entitlement block is made of. -/
structure EntitlementAccountRef where
  accountId : Option String
  access : Option String
  email : Option String
  index : Nat
  workspaces : Option (List Workspace)
  currentWorkspaceIndex : Option ℚ

def entitlementRef (account : ManagedAccount) : EntitlementAccountRef where
  accountId := account.accountId
  access := account.access
  email := account.email
  index := account.index
  workspaces := account.workspaces
  currentWorkspaceIndex := account.currentWorkspaceIndex

/-- What a turn finds outside the pool. -/
structure Situation where
  env : Runtime
  health : Nat → ℚ
  tokens : Nat → ℚ
  /-- The cached blocks for the model of the request. -/
  entitlementBlocked : EntitlementAccountRef → Bool

/-- How the attempt of an account ends. -/
inductive Exit where
  /-- A failed refresh, a missing account id, a network failure or a server error, with its cooldown if it has one. -/
  | coolsDown (cooldownMs : Option ℚ) (reason : String)
  /-- Too many refreshes failed in a row. -/
  | removesAccount
  /-- A rejection, or a deferral that comes before it. -/
  | rateLimited (retryAfterMs : ℚ) (reason : RateLimitReason)
  /-- A cached entitlement block, an empty token bucket or an empty response. -/
  | skips
  /-- The model is not supported here, or a workspace that is not tracked is disabled. -/
  | triesRemaining
  | rotatesWorkspace (workspaces : List Workspace) (currentWorkspaceIndex : ℚ)
  | disablesAccount
  | answers
  | fallsBack

structure Turn where
  situation : Situation
  exit : Exit
  /-- The pool when the attempt ends, before its outcome is noted. -/
  meanwhile : AccountPool → AccountPool
  endsAt : ℚ

inductive Status where
  | running
  /-- The loop has ended without an answer. -/
  | exhausted (moment : Situation)
  | answered
  | fellBack

def Status.goesOn : Status → Bool
  | .running => true
  | _ => false

structure State where
  pool : AccountPool
  attempted : List Nat
  usedPreferredSessionAccount : Bool
  tried : List Nat
  status : Status

def HOUR_MS : ℚ := 60 * 60 * 1000

def fraction (value : ℚ) : ℚ := value - value.floor

/-- Health, tokens and freshness with their weights, the boosts and the offset of the process. -/
def points (request : Request) (situation : Situation) (account : AccountPool.AccountWithMetrics) : ℚ :=
  situation.health account.index * 2 + situation.tokens account.index * 5 +
    (situation.env.now - account.lastUsed) / HOUR_MS * 2 + request.scoreBoostByAccount account.index +
    match request.pidBonus with
    | none => 0
    | some pidBonus => fraction (account.index * (131 / 1000) + pidBonus) * 2 * (1 / 10)

def hybridScore (request : Request) (situation : Situation) : AccountPool.HybridScore := fun account => some (points request situation account)

def isAccountAvailableForFamily (pool : AccountPool) (env : Runtime) (index : Nat) (family : ModelFamily) (model : Option String) : Bool :=
  (pool.getAccountByIndex index).any (AccountPool.isEligible env family model)

/-- The account of the session, if it is its turn and it can serve. -/
def preferredAccount (request : Request) (situation : Situation) (s : State) : Option Nat :=
  if s.usedPreferredSessionAccount then none
  else request.preferredSessionAccountIndex.filter (fun index =>
    isAccountAvailableForFamily s.pool situation.env index request.family request.model && !request.blockedAccountIndexes.contains index)

/-- The pool after the selection, and the position of the account that it gives. -/
def selectAccount (request : Request) (situation : Situation) (s : State) : AccountPool × Option Nat :=
  match preferredAccount request situation s with
  | some index => ((s.pool.touch situation.env.now index).markSwitched index "rotation" request.family,some index)
  | none =>
    s.pool.getCurrentOrNextForFamilyHybrid situation.env request.family request.model (hybridScore request situation)
      request.blockedAccountIndexes

def taken (request : Request) (situation : Situation) (s : State) : Option ManagedAccount :=
  (selectAccount request situation s).2.bind (fun position => (selectAccount request situation s).1.accounts[position]?)

/-- A change of an account, if the pool still has it. -/
def changeObject (pool : AccountPool) (ref : Nat) (change : ManagedAccount → ManagedAccount) : AccountPool :=
  { pool with accounts := pool.accounts.map (fun account => if account.ref = ref then change account else account) }

def markAccountCoolingDown (now cooldownMs : ℚ) (reason : String) (account : ManagedAccount) : ManagedAccount :=
  { account with coolingDownUntil := some (now + max 0 cooldownMs.floor),cooldownReason := some reason }

def markRateLimited (now retryAfterMs : ℚ) (family : ModelFamily) (reason : RateLimitReason) (model : Option String) (account : ManagedAccount) :
    ManagedAccount :=
  { account with
    rateLimitResetTimes := (limitedKeys family reason model).foldl
      (fun times key => times.put key (max ((times.find key).getD 0) (now + retryTime retryAfterMs))) account.rateLimitResetTimes }

/-- The position that the account carries by now. -/
def currentIndex (pool : AccountPool) (account : ManagedAccount) : Nat :=
  ((pool.accounts.find? (fun other => decide (other.ref = account.ref))).map ManagedAccount.index).getD account.index

/-- The end of the attempt of an account. -/
def leave (request : Request) (turn : Turn) (account : ManagedAccount) (s : State) : State :=
  let s := { s with pool := turn.meanwhile s.pool }
  let now := turn.endsAt
  match turn.exit with
  | .coolsDown none _ => s
  | .coolsDown (some cooldownMs) reason => { s with pool := changeObject s.pool account.ref (markAccountCoolingDown now cooldownMs reason) }
  | .removesAccount => { s with pool := (s.pool.removeAccount account.ref).1 }
  | .rateLimited retryAfterMs reason =>
    { s with pool := changeObject s.pool account.ref (markRateLimited now retryAfterMs request.family reason request.model) }
  | .skips => s
  | .triesRemaining => s
  | .rotatesWorkspace workspaces currentWorkspaceIndex =>
    { s with
      pool := changeObject s.pool account.ref (fun account =>
        { account with workspaces := some workspaces,currentWorkspaceIndex := some currentWorkspaceIndex })
      attempted := s.attempted.filter (fun index => decide (index ≠ currentIndex s.pool account)) }
  | .disablesAccount => { s with pool := s.pool.setAccountEnabled (currentIndex s.pool account) false }
  | .answers => { s with status := .answered }
  | .fallsBack => { s with status := .fellBack }

def exhaust (turn : Turn) (s : State) : State := { s with status := .exhausted turn.situation }

/-- An account that is attempted, unless it is blocked. -/
def pursue (request : Request) (turn : Turn) (account : ManagedAccount) (s : State) : State :=
  let s := { s with attempted := s.attempted ++ [account.index] }
  if request.blockedAccountIndexes.contains account.index then s
  else leave request turn account { s with tried := s.tried ++ [account.ref] }

def selecting (request : Request) (situation : Situation) (s : State) : State :=
  { s with
    pool := (selectAccount request situation s).1
    usedPreferredSessionAccount := s.usedPreferredSessionAccount || request.preferredSessionAccountIndex.isSome }

def attempt (request : Request) (s : State) (turn : Turn) : State :=
  if max 1 request.accountCount ≤ s.attempted.length then exhaust turn s
  else
    match taken request turn.situation s with
    | none => exhaust turn (selecting request turn.situation s)
    | some account =>
      if s.attempted.contains account.index then exhaust turn (selecting request turn.situation s)
      else pursue request turn account (selecting request turn.situation s)

/-- Whether a turn can end so; where no account remains, the error is answered. -/
def enabled (request : Request) (s : State) (turn : Turn) : Prop :=
  s.status.goesOn = true ∧
  (match turn.exit with
    | .triesRemaining => s.attempted.length + 1 < max 1 request.accountCount
    | _ => True) ∧
  ∀ pool : AccountPool, pool.Indexed → (turn.meanwhile pool).Indexed

end CodexMultiAuth.AccountAttempts
