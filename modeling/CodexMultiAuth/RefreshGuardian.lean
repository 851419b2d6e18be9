import CodexMultiAuth.AccountPool

/-!
The refresh guardian of a running process. A tick takes a snapshot of the pool and
works through it, one refresh after the other; what a refresh gives is applied to
the row that its identity is found at by then. What others do to the same pool
meanwhile is a step of its own, also where a write looks at the file first and
follows a manual selection that it finds there. What is written to the file is
left out, and so are trackers and counters that nothing here reads.
-/
namespace CodexMultiAuth.RefreshGuardian

structure LiveAccount extends ManagedAccount where
  consecutiveAuthFailures : Nat := 0

def LiveAccount.toAccountLike (account : LiveAccount) : AccountLike :=
  ⟨account.accountId,account.email,some account.refreshToken⟩

instance : AccountRow LiveAccount :=
  ⟨LiveAccount.toAccountLike,fun account => some account.lastUsed,fun account => some account.addedAt⟩

def clearAuthFailures (account : LiveAccount) : LiveAccount := { account with consecutiveAuthFailures := 0 }

def incrementAuthFailures (account : LiveAccount) : LiveAccount :=
  { account with consecutiveAuthFailures := account.consecutiveAuthFailures + 1 }

def markAccountCoolingDown (now cooldownMs : ℚ) (reason : String) (account : LiveAccount) : LiveAccount :=
  { account with coolingDownUntil := some (now + max 0 cooldownMs.floor),cooldownReason := some reason }

def clearAccountCooldown (account : LiveAccount) : LiveAccount := { account with coolingDownUntil := none,cooldownReason := none }

def isCoolingDown (now : ℚ) (account : LiveAccount) : Bool :=
  match account.coolingDownUntil with
  | some deadline => decide (now < deadline)
  | none => false

/-- Only the limit of the family is raised: no model is named. -/
def markRateLimited (now retryAfterMs : ℚ) (family : ModelFamily) (account : LiveAccount) : LiveAccount :=
  let resetAt := now + min (max 0 (retryAfterMs.floor : ℚ)) RATE_LIMIT_CACHE_TTL_MS
  { account with
    rateLimitResetTimes := account.rateLimitResetTimes.put (getQuotaKey family none)
      (max ((account.rateLimitResetTimes.find (getQuotaKey family none)).getD 0) resetAt) }

def recordSuccess (now : ℚ) (account : LiveAccount) : LiveAccount :=
  if isCoolingDown now account then account else clearAuthFailures (clearAccountCooldown account)

def updatesAccountId (account : LiveAccount) : Bool :=
  ((account.accountId.bind nonEmpty).isNone || (account.accountIdSource.bind nonEmpty).isNone) ||
    (decide (account.accountIdSource = some "token") || decide (account.accountIdSource = some "id_token"))

def updateFromAuth (auth : OAuthAuthDetails) (account : LiveAccount) : LiveAccount :=
  let identified : LiveAccount :=
    match auth.accountId with
    | some accountId => if updatesAccountId account then { account with accountId := some accountId,accountIdSource := some "token" } else account
    | none => account
  { identified with
    refreshToken := auth.refresh,access := some auth.access,expires := some auth.expires,authInvalidatedAt := none,
    authInvalidationErrorCode := none,email := auth.email.or account.email }

section
variable [Host]

def identityCandidates (source : AccountLike) : Option OAuthAuthDetails → List AccountLike
  | none => [source]
  | some auth => buildAccountIdentityCandidates source auth

/-- The position of the row that an identity is found at. -/
def getAccountByIdentity (accounts : List LiveAccount) (source : LiveAccount) (auth : Option OAuthAuthDetails) : Option Nat :=
  (identityCandidates source.toAccountLike auth).findSome? (fun candidate => findMatchingAccountIndex accounts candidate true)

end

inductive TokenResult where
  | success (auth : OAuthAuthDetails)
  | failed (reason : Option String) (statusCode : Option Nat)

inductive RefreshReason where
  | notNeeded
  | noRefreshToken
  | success
  | failed

structure ProactiveRefreshResult where
  tokenResult : Option TokenResult := none
  reason : RefreshReason

def MIN_PROACTIVE_BUFFER_MS : ℚ := 30 * 1000

def shouldRefreshProactively (now bufferMs : ℚ) (account : LiveAccount) : Bool :=
  if (account.access.bind nonEmpty).isNone then true
  else
    match account.expires with
    | none => false
    | some expiresAt => decide (expiresAt - max MIN_PROACTIVE_BUFFER_MS bufferMs ≤ now)

inductive CooldownReason where
  | rateLimit
  | authFailure
  | networkError
  deriving DecidableEq

def classifyFailureReason : Option TokenResult → CooldownReason
  | some (.failed reason statusCode) =>
    if statusCode = some 429 then .rateLimit
    else if reason = some "network_error" then .networkError
    else if reason = some "missing_refresh" then .authFailure
    else if reason = some "invalid_response" then .authFailure
    else if reason = some "http_error" ∧ (statusCode = some 400 ∨ statusCode = some 401 ∨ statusCode = some 403) then .authFailure
    else .networkError
  | _ => .networkError

def NETWORK_FAILURE_COOLDOWN_MS : ℚ := 6000

def AUTH_FAILURE_COOLDOWN_MS : ℚ := 30000

def getNetworkFailureCooldownMs (bufferMs : ℚ) : ℚ := min bufferMs NETWORK_FAILURE_COOLDOWN_MS

def getAuthFailureCooldownMs (bufferMs : ℚ) (failureCount : Nat) : ℚ :=
  min bufferMs (AUTH_FAILURE_COOLDOWN_MS * (max 1 failureCount : Nat))

def penalize (bufferMs now : ℚ) : CooldownReason → LiveAccount → LiveAccount
  | .rateLimit,account => markRateLimited now bufferMs .codex (clearAuthFailures account)
  | .authFailure,account =>
    let failed := incrementAuthFailures account
    markAccountCoolingDown now (getAuthFailureCooldownMs bufferMs failed.consecutiveAuthFailures) "auth-failure" failed
  | .networkError,account => markAccountCoolingDown now (getNetworkFailureCooldownMs bufferMs) "network-error" (clearAuthFailures account)

structure RefreshQueue where
  pending : List String
  /-- From the old to the new token of a refresh. -/
  tokenRotationMap : OrderedMap String String

namespace RefreshQueue

def findOriginalToken (queue : RefreshQueue) (newToken : String) : Option String :=
  (queue.tokenRotationMap.find? (fun entry => decide (entry.2 = newToken))).map Prod.fst

/-- Whether a refresh of this token joins one that is in flight. -/
def joins (queue : RefreshQueue) (refreshToken : String) : Bool :=
  queue.pending.contains refreshToken ||
    ((queue.findOriginalToken refreshToken).bind nonEmpty).any (fun rotatedFrom => queue.pending.contains rotatedFrom)

def start (queue : RefreshQueue) (refreshToken : String) : RefreshQueue :=
  if queue.joins refreshToken then queue else { queue with pending := queue.pending ++ [refreshToken] }

def finish (queue : RefreshQueue) (refreshToken : String) : RefreshQueue :=
  { queue with
    pending := queue.pending.filter (fun token => decide (token ≠ refreshToken))
    tokenRotationMap := queue.tokenRotationMap.filter (fun entry => decide (entry.1 ≠ refreshToken ∧ entry.2 ≠ refreshToken)) }

end RefreshQueue

/-! ### The guardian -/

/-- Why the storage refuses a credential: it is unreadable or locked, a retry
    may help, or something else. -/
inductive CommitError where
  | unavailable
  | retryable
  | fatal
  deriving DecidableEq

/-- How far the guardian has come with one row of its snapshot. -/
inductive Flight where
  /-- Whether the refresh is one that was already in flight. -/
  | refreshing (source : LiveAccount) (joined : Bool)
  | outcome (source : LiveAccount) (result : ProactiveRefreshResult)
  /-- Waits for the lock of the storage. -/
  | committing (source : LiveAccount) (auth : OAuthAuthDetails)
  /-- The live row, if one was found, has the credential and is kept as it was before. -/
  | persisting (source : LiveAccount) (auth : OAuthAuthDetails) (previous : Option LiveAccount)
  | failing (source : LiveAccount) (auth : OAuthAuthDetails) (error : CommitError)
  | threw (source : LiveAccount) (auth : OAuthAuthDetails) (retryable : Bool)
  | uncommitted (source : LiveAccount) (auth : OAuthAuthDetails)
  | committed (source : LiveAccount) (auth : OAuthAuthDetails) (ref : Nat)

structure State where
  accounts : List LiveAccount
  queue : RefreshQueue
  /-- What the tick has still to do of its snapshot. -/
  waiting : List LiveAccount
  flight : Option Flight

inductive Action where
  /-- Whatever else happens to the pool: requests, logins, disabling, removals, and other refreshes. -/
  | outside (accounts : List LiveAccount) (queue : RefreshQueue)
  /-- The first row of the snapshot is taken at once, the others after a pause. -/
  | tick (now : ℚ)
  | next (now : ℚ)
  | refreshed (result : TokenResult)
  | apply (now : ℚ)
  /-- Under the lock; `resolved` tells whether the storage has a row of that identity. -/
  | commit (now : ℚ) (resolved : Bool)
  | commitFails (error : CommitError)
  | persists
  | persistFails (error : CommitError)
  /-- What follows a commit that has ended in some way. -/
  | settle (now : ℚ)

namespace State

def modify (s : State) (position : Option Nat) (change : LiveAccount → LiveAccount) : State :=
  match position with
  | none => s
  | some i => { s with accounts := s.accounts.modify i change }

def setAccountEnabled (s : State) (index : Nat) (enabled : Bool) : State :=
  s.modify (some index) (fun account => { account with enabled := enabled })

def landed (s : State) : State := { s with flight := none }

def modifyObject (s : State) (ref : Nat) (change : LiveAccount → LiveAccount) : State :=
  { s with accounts := s.accounts.map (fun account => if account.ref = ref then change account else account) }

end State

def snapshot (now bufferMs : ℚ) (accounts : List LiveAccount) : List LiveAccount :=
  (accounts.filter (fun account => account.enabled && !isCoolingDown now account)).filter (shouldRefreshProactively now bufferMs)

def proactiveRefreshAccount (s : State) (now bufferMs : ℚ) (source : LiveAccount) : State :=
  if shouldRefreshProactively now bufferMs source = false then { s with flight := some (.outcome source { reason := .notNeeded }) }
  else if (nonEmpty source.refreshToken).isNone then { s with flight := some (.outcome source { reason := .noRefreshToken }) }
  else { s with queue := s.queue.start source.refreshToken,flight := some (.refreshing source (s.queue.joins source.refreshToken)) }

def startNext (s : State) (now bufferMs : ℚ) : State :=
  match s.waiting with
  | [] => s
  | source :: rest => proactiveRefreshAccount { s with waiting := rest } now bufferMs source

def refreshResult (result : TokenResult) : ProactiveRefreshResult where
  tokenResult := some result
  reason := match result with
    | .success _ => .success
    | .failed _ _ => .failed

/-- A live cooldown that is not about the credential. -/
def preservesLiveCooldown (now : ℚ) (account : LiveAccount) : Bool :=
  account.cooldownReason.isSome && decide (account.cooldownReason ≠ some "auth-failure") &&
    decide (now < account.coolingDownUntil.getD 0)

def commitLive (now : ℚ) (auth : OAuthAuthDetails) (account : LiveAccount) : LiveAccount :=
  let updated : LiveAccount := { updateFromAuth auth account with enabled := true }
  clearAuthFailures (if preservesLiveCooldown now account then updated else clearAccountCooldown updated)

/-- The fields that are put back when the write fails. -/
def restoreLive (previous account : LiveAccount) : LiveAccount :=
  { account with
    access := previous.access,refreshToken := previous.refreshToken,expires := previous.expires,accountId := previous.accountId,
    accountIdSource := previous.accountIdSource,email := previous.email,enabled := previous.enabled,
    coolingDownUntil := previous.coolingDownUntil,cooldownReason := previous.cooldownReason,
    consecutiveAuthFailures := previous.consecutiveAuthFailures,authInvalidatedAt := previous.authInvalidatedAt,
    authInvalidationErrorCode := previous.authInvalidationErrorCode }

/-- A credential that the storage could not take is kept in the live row. -/
def rescueLive (auth : OAuthAuthDetails) (account : LiveAccount) : LiveAccount :=
  let updated : LiveAccount := { updateFromAuth auth account with enabled := true }
  clearAuthFailures (if updated.cooldownReason = some "auth-failure" then clearAccountCooldown updated else updated)

section
variable [Host]

/-- The guardian does not change a row that it cannot find. -/
def applyRefreshOutcome (bufferMs now : ℚ) (s : State) (source : LiveAccount) (result : ProactiveRefreshResult) : State :=
  let account := getAccountByIdentity s.accounts source none
  match result.reason,result.tokenResult with
  | .success,some (.success auth) => { s with flight := some (.committing source auth) }
  | .success,_ => (s.modify account (penalize bufferMs now .networkError)).landed
  | .failed,tokenResult => (s.modify account (penalize bufferMs now (classifyFailureReason tokenResult))).landed
  | .notNeeded,_ => s.landed
  | .noRefreshToken,_ =>
    match account.bind (fun i => s.accounts[i]?) with
    | none => s.landed
    | some found => ((s.modify account (penalize bufferMs now .authFailure)).setAccountEnabled found.index false).landed

/-- The row that a commit which came to nothing is blamed on. -/
def blamed (accounts : List LiveAccount) (source : LiveAccount) (auth : OAuthAuthDetails) : Option Nat :=
  (getAccountByIdentity accounts source (some auth)).or (getAccountByIdentity accounts source none)

def commitRefreshedAuth (now : ℚ) (s : State) (source : LiveAccount) (auth : OAuthAuthDetails) (resolved : Bool) : State :=
  if resolved = false then { s with flight := some (.uncommitted source auth) }
  else
    let live := getAccountByIdentity s.accounts source (some auth)
    { s.modify live (commitLive now auth) with flight := some (.persisting source auth (live.bind (fun i => s.accounts[i]?))) }

def rescueCommit (s : State) (source : LiveAccount) (auth : OAuthAuthDetails) (error : CommitError) : State :=
  let live := if error = .fatal then none else getAccountByIdentity s.accounts source (some auth)
  match live.bind (fun i => s.accounts[i]?) with
  | none => { s with flight := some (.threw source auth (decide (error = .retryable))) }
  | some found => { s.modify live (rescueLive auth) with flight := some (.committed source auth found.ref) }

def step (bufferMs : ℚ) (s : State) : Action → State
  | .outside accounts queue => { s with accounts := accounts,queue := queue }
  | .tick now => startNext { s with waiting := snapshot now bufferMs s.accounts } now bufferMs
  | .next now => startNext s now bufferMs
  | .refreshed result =>
    match s.flight with
    | some (.refreshing source joined) =>
      { s with
        queue := if joined then s.queue else s.queue.finish source.refreshToken
        flight := some (.outcome source (refreshResult result)) }
    | _ => s
  | .apply now =>
    match s.flight with
    | some (.outcome source result) => applyRefreshOutcome bufferMs now s source result
    | _ => s
  | .commit now resolved =>
    match s.flight with
    | some (.committing source auth) => commitRefreshedAuth now s source auth resolved
    | _ => s
  | .commitFails error =>
    match s.flight with
    | some (.committing source auth) => { s with flight := some (.failing source auth error) }
    | _ => s
  | .persists =>
    match s.flight with
    | some (.persisting source auth (some previous)) => { s with flight := some (.committed source auth previous.ref) }
    | some (.persisting source auth none) => { s with flight := some (.uncommitted source auth) }
    | _ => s
  | .persistFails error =>
    match s.flight with
    | some (.persisting source auth (some previous)) =>
      { s.modifyObject previous.ref (restoreLive previous) with flight := some (.failing source auth error) }
    | some (.persisting source auth none) => { s with flight := some (.failing source auth error) }
    | _ => s
  | .settle now =>
    match s.flight with
    | some (.failing source auth error) => rescueCommit s source auth error
    | some (.threw source auth retryable) =>
      (s.modify (blamed s.accounts source auth) (penalize bufferMs now (if retryable then .networkError else .authFailure))).landed
    | some (.uncommitted source auth) => (s.modify (blamed s.accounts source auth) (penalize bufferMs now .networkError)).landed
    | some (.committed _ _ ref) => (s.modifyObject ref (recordSuccess now)).landed
    | _ => s

end

/-- Rows are different objects, each at the position that it carries. -/
structure Pool (accounts : List LiveAccount) : Prop where
  refs : (accounts.map (fun account => account.ref)).Nodup
  indexes : ∀ (i : Nat) account, accounts[i]? = some account → account.index = i

def enabled (s : State) : Action → Prop
  | .outside accounts _ => Pool accounts
  | .tick _ => s.waiting = [] ∧ s.flight = none
  | .next _ => s.waiting ≠ [] ∧ s.flight = none
  | .refreshed _ => ∃ source joined, s.flight = some (.refreshing source joined)
  | .apply _ => ∃ source result, s.flight = some (.outcome source result)
  | .commit _ _ => ∃ source auth, s.flight = some (.committing source auth)
  | .commitFails _ => ∃ source auth, s.flight = some (.committing source auth)
  | .persists => ∃ source auth previous, s.flight = some (.persisting source auth previous)
  | .persistFails _ => ∃ source auth previous, s.flight = some (.persisting source auth previous)
  | .settle _ => (∃ source auth error, s.flight = some (.failing source auth error)) ∨
      (∃ source auth retryable, s.flight = some (.threw source auth retryable)) ∨
      (∃ source auth, s.flight = some (.uncommitted source auth)) ∨ ∃ source auth ref, s.flight = some (.committed source auth ref)

end CodexMultiAuth.RefreshGuardian
