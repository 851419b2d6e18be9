import Mathlib.Data.Rat.Floor

/-!
How the plugin host treats a failed request, and the token buckets of its accounts.
-/
namespace CodexMultiAuth.PluginHost

inductive FailureKind where
  | authRefresh
  | network
  | server
  | rateLimit
  | emptyResponse
  deriving DecidableEq

inductive FailoverMode where
  | aggressive
  | balanced
  | conservative
  deriving DecidableEq

structure FailurePolicyInput where
  kind : FailureKind
  consecutiveAuthFailures : Option ℚ := none
  maxAuthFailuresBeforeRemoval : Option ℚ := none
  serverRetryAfterMs : Option ℚ := none
  failoverMode : Option FailoverMode := none

inductive HandoffStrategy where
  | soft
  | hard
  deriving DecidableEq

structure FailurePolicyDecision where
  rotateAccount : Bool
  refundToken : Bool
  recordFailure : Bool
  markRateLimited : Bool := false
  removeAccount : Bool := false
  cooldownMs : Option ℚ := none
  cooldownReason : Option String := none
  retrySameAccount : Bool
  retryDelayMs : Option ℚ := none
  handoffStrategy : HandoffStrategy
  deriving DecidableEq

def DEFAULT_NETWORK_COOLDOWN_MS : ℚ := 6000
def DEFAULT_SERVER_COOLDOWN_MS : ℚ := 4000
def AUTH_FAILURE_COOLDOWN_MS : ℚ := 30000
def MAX_AUTH_FAILURES_BEFORE_REMOVAL : ℚ := 3

def NETWORK_RETRY_DELAY_MS : FailoverMode → ℚ
  | .aggressive => 0
  | .balanced => 250
  | .conservative => 900

def EMPTY_RESPONSE_RETRY_DELAY_MS : FailoverMode → ℚ
  | .aggressive => 0
  | .balanced => 200
  | .conservative => 600

def getFailoverMode (input : FailurePolicyInput) : FailoverMode := input.failoverMode.getD .aggressive

/-- A number without its fraction, but at least so much. -/
def wholeFrom (least value : ℚ) : ℚ := max least (⌊value⌋ : ℚ)

def evaluateFailurePolicy (input : FailurePolicyInput) (networkCooldownMs serverCooldownMs : Option ℚ) : FailurePolicyDecision :=
  match input.kind with
  | .authRefresh =>
    let failures := wholeFrom 0 (input.consecutiveAuthFailures.getD 0)
    let maxFailures := wholeFrom 1 (input.maxAuthFailuresBeforeRemoval.getD MAX_AUTH_FAILURES_BEFORE_REMOVAL)
    { rotateAccount := true,refundToken := false,recordFailure := false,removeAccount := decide (maxFailures ≤ failures)
      cooldownMs := some AUTH_FAILURE_COOLDOWN_MS,cooldownReason := some "auth-failure",retrySameAccount := false,handoffStrategy := .hard }
  | .network =>
    let cooldownMs := wholeFrom 0 (networkCooldownMs.getD DEFAULT_NETWORK_COOLDOWN_MS)
    let retryDelayMs := NETWORK_RETRY_DELAY_MS (getFailoverMode input)
    let retrySameAccount := decide (0 < retryDelayMs)
    { rotateAccount := !retrySameAccount,refundToken := true,recordFailure := true,cooldownMs := some cooldownMs
      cooldownReason := if 0 < cooldownMs then some "network-error" else none,retrySameAccount := retrySameAccount
      retryDelayMs := if retrySameAccount then some retryDelayMs else none,handoffStrategy := .soft }
  | .server =>
    let retryAfterMs := wholeFrom 0 (input.serverRetryAfterMs.getD 0)
    let fallbackCooldown := wholeFrom 0 (serverCooldownMs.getD DEFAULT_SERVER_COOLDOWN_MS)
    let cooldownMs := if 0 < retryAfterMs then retryAfterMs else fallbackCooldown
    let retrySameAccount := decide (getFailoverMode input = .conservative) && decide (retryAfterMs ≤ 0)
    { rotateAccount := !retrySameAccount,refundToken := true,recordFailure := true,cooldownMs := some cooldownMs
      cooldownReason := if 0 < cooldownMs then some "server-error" else none,retrySameAccount := retrySameAccount
      retryDelayMs := if retrySameAccount then some 500 else none,handoffStrategy := .hard }
  | .rateLimit =>
    { rotateAccount := true,refundToken := false,recordFailure := false,markRateLimited := true,retrySameAccount := false,handoffStrategy := .hard }
  | .emptyResponse =>
    let retryDelayMs := EMPTY_RESPONSE_RETRY_DELAY_MS (getFailoverMode input)
    let retrySameAccount := decide (0 < retryDelayMs)
    { rotateAccount := !retrySameAccount,refundToken := true,recordFailure := true,retrySameAccount := retrySameAccount
      retryDelayMs := if retrySameAccount then some retryDelayMs else none,handoffStrategy := .soft }

structure TokenBucketConfig where
  maxTokens : ℚ := 50
  tokensPerMinute : ℚ := 6

def TOKEN_REFUND_WINDOW_MS : ℚ := 90000

structure TokenBucketEntry where
  tokens : ℚ
  lastRefill : ℚ
  /-- When the tokens were consumed that may still be given back. -/
  consumptions : List ℚ
  deriving DecidableEq

section
variable {Key : Type} [DecidableEq Key]

abbrev Buckets (Key : Type) := Key → Option TokenBucketEntry

variable (config : TokenBucketConfig) (now : ℚ) (buckets : Buckets Key) (key : Key)

def refillTokens (entry : TokenBucketEntry) : ℚ :=
  min (entry.tokens + (now - entry.lastRefill) / (1000 * 60) * config.tokensPerMinute) config.maxTokens

def currentTokens : ℚ := ((buckets key).map (refillTokens config now)).getD config.maxTokens

def setEntry (entry : TokenBucketEntry) : Buckets Key := fun other => if other = key then some entry else buckets other

def isRecent (timestamp : ℚ) : Bool := decide (now - TOKEN_REFUND_WINDOW_MS ≤ timestamp)

/-- The buckets after a token is consumed, if there is one. -/
def tryConsume : Option (Buckets Key) :=
  if currentTokens config now buckets key < 1 then none
  else
    some (setEntry buckets key ⟨currentTokens config now buckets key - 1,now,
      (((buckets key).map TokenBucketEntry.consumptions).getD []).filter (isRecent now) ++ [now]⟩)

def eraseRecent (consumptions : List ℚ) : List ℚ := consumptions.eraseP (isRecent now)

def refundToken : Buckets Key × Bool :=
  match buckets key with
  | none => (buckets,false)
  | some entry =>
    if entry.consumptions.any (isRecent now) then
      (setEntry buckets key ⟨min (refillTokens config now entry + 1) config.maxTokens,now,eraseRecent now entry.consumptions⟩,true)
    else (buckets,false)

def drain (drainAmount : ℚ) : Buckets Key :=
  setEntry buckets key ⟨max 0 (currentTokens config now buckets key - drainAmount),now,((buckets key).map TokenBucketEntry.consumptions).getD []⟩

def hasRecent : Bool := ((buckets key).map (fun entry => entry.consumptions.any (isRecent now))).getD false

theorem refundToken_successful : (refundToken config now buckets key).2 = hasRecent now buckets key := by
  unfold refundToken hasRecent
  cases buckets key with
  | none => rfl
  | some entry =>
    dsimp only [Option.map_some,Option.getD_some]
    cases entry.consumptions.any (isRecent now) <;> rfl

end

end CodexMultiAuth.PluginHost
