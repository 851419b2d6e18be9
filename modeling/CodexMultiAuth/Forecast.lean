import CodexMultiAuth.QuotaKeyText

/-!
The forecast of stored accounts: which could serve a request now, which after a
wait, and which one is recommended. The quota entry of an account comes from the
quota cache by its workspace; it is an input here.
-/
namespace CodexMultiAuth.Forecast

/-- What the workspace of a stored row's quota is read from. -/
def storedEntity (row : AccountMetadataV3) : RateLimitedEntity where
  accountId := row.accountId
  access := row.accessToken
  workspaces := Record.records row "workspaces"
  currentWorkspaceIndex := Record.number row "currentWorkspaceIndex"
  codexCliMirror := OrderedMap.find row "codexCliMirror"

/-- The quota key that a stored deadline counts for, if it counts for the workspace. -/
def attributedQuotaKey (workspace : Option String) (key : String) : Option String :=
  if isWorkspaceKey key then
    match parseWorkspaceQuotaKey key with
    | some (workspaceId,quotaKey) => if some workspaceId = workspace then some quotaKey else none
    | none => none
  else some key

def selectLimit (workspace : Option String) (result : OrderedMap String ℚ) (entry : String × ℚ) : OrderedMap String ℚ :=
  match attributedQuotaKey workspace entry.1 with
  | some quotaKey => result.put quotaKey (max ((result.find quotaKey).getD 0) entry.2)
  | none => result

/-- The selected workspace's bounds plus legacy unscoped bounds for diagnostics. -/
def selectedQuotaLimits (workspace : Option String) (times : OrderedMap String ℚ) : OrderedMap String ℚ :=
  times.foldl (selectLimit workspace) []

/-- The value when it is still a live bound, otherwise none. -/
def activeBound (value : Option ℚ) (now : ℚ) : Option ℚ := value.bind (fun value => if now < value then some value else none)

/-- The later of two bounds, treating none as "does not bound". -/
def laterBound : Option ℚ → Option ℚ → Option ℚ
  | none,b => b
  | a,none => a
  | some a,some b => some (if b < a then a else b)

/-- When a request for a family and a model stops being rate limited. -/
def getRateLimitResetTimeForModel (env : Runtime) (row : AccountMetadataV3) (now : ℚ) (family : ModelFamily) (model : String) : Option ℚ :=
  let times := selectedQuotaLimits (env.selectedQuotaWorkspace (storedEntity row)) (storedRateLimits row)
  laterBound (if model = LUNA_RESERVE_MODEL then none else activeBound (times.find (getQuotaKey family none)) now)
    ((nonEmpty model).bind (fun _ => activeBound (times.find (getQuotaKey family (some model))) now))

/-- The earliest live deadline among all of a family's keys. -/
def getRateLimitResetTimeForFamily (env : Runtime) (row : AccountMetadataV3) (now : ℚ) (family : ModelFamily) : Option ℚ :=
  let times := selectedQuotaLimits (env.selectedQuotaWorkspace (storedEntity row)) (storedRateLimits row)
  (times.filter (fun entry => decide (now < entry.2) &&
    (decide (entry.1 = family.name) || (family.name ++ ":").toList.isPrefixOf entry.1.toList))).foldl
    (fun least entry => match least with
      | none => some entry.2
      | some least => some (if entry.2 < least then entry.2 else least)) none

structure QuotaWindow where
  usedPercent : Option ℚ := none
  windowMinutes : Option ℚ := none
  resetAtMs : Option ℚ := none

structure QuotaCacheEntry where
  updatedAt : ℚ
  primary : QuotaWindow
  secondary : QuotaWindow

structure CodexQuotaSnapshot where
  status : Nat
  primary : QuotaWindow
  secondary : QuotaWindow

def quotaUsedPercentIsExhausted (usedPercent : Option ℚ) : Bool :=
  match usedPercent with
  | some used => decide (100 ≤ used)
  | none => false

def quotaWindowIsExhausted (window : QuotaWindow) (now updatedAt : ℚ) : Bool :=
  match window.resetAtMs,window.windowMinutes with
  | some resetAt,_ => if resetAt ≤ now then false else quotaUsedPercentIsExhausted window.usedPercent
  | none,some minutes =>
    if 0 < minutes ∧ updatedAt + minutes * 60000 ≤ now then false else quotaUsedPercentIsExhausted window.usedPercent
  | none,none => quotaUsedPercentIsExhausted window.usedPercent

def isQuotaCacheEntryExhausted (entry : Option QuotaCacheEntry) (now : ℚ) : Bool :=
  match entry with
  | none => false
  | some entry =>
    if entry.updatedAt + RATE_LIMIT_CACHE_TTL_MS ≤ now then false
    else quotaWindowIsExhausted entry.primary now entry.updatedAt || quotaWindowIsExhausted entry.secondary now entry.updatedAt

def longest (waits : List ℚ) : Option ℚ := waits.foldl (fun latest wait => some (max (latest.getD wait) wait)) none

def getLiveQuotaWaitMs (snapshot : CodexQuotaSnapshot) (now : ℚ) (onlyExhausted : Bool) : ℚ :=
  (longest ([snapshot.primary,snapshot.secondary].filterMap (fun window =>
    if onlyExhausted && !quotaUsedPercentIsExhausted window.usedPercent then none
    else window.resetAtMs.bind (fun resetAt => if 0 < resetAt - now then some (resetAt - now) else none)))).getD 0

/-! ### The forecast of one account -/

inductive ForecastAvailability where
  | ready
  | delayed
  | unavailable
  deriving DecidableEq

inductive ForecastRiskLevel where
  | low
  | medium
  | high
  deriving DecidableEq

structure TokenFailure where
  reason : Option String := none
  statusCode : Option Nat := none
  message : Option String := none

structure RuntimeForecastOverlay where
  accountSkipReasons : OrderedMap String String := []
  lastPoolExhaustionSkipReasons : OrderedMap String String := []
  policyBlockedIndexes : List Nat := []

structure ForecastAccountInput where
  index : Nat
  account : AccountMetadataV3
  isCurrent : Bool
  now : ℚ
  refreshFailure : Option TokenFailure := none
  liveQuota : Option CodexQuotaSnapshot := none
  quotaEntry : Option QuotaCacheEntry := none
  runtimeOverlay : Option RuntimeForecastOverlay := none
  family : Option ModelFamily := none
  model : Option String := none

structure ForecastAccountResult where
  index : Nat
  label : String
  isCurrent : Bool
  availability : ForecastAvailability
  riskScore : ℤ
  riskLevel : ForecastRiskLevel
  waitMs : ℤ
  reasons : List String
  hardFailure : Bool
  disabled : Bool
  exhausted : Bool

/-- How an account is named in a report and which parts of a message are masked. -/
structure ForecastText where
  label : AccountMetadataV3 → Nat → String
  redactSensitiveReason : String → String

/-- The forecast while it is being put together. -/
structure Assessment where
  availability : ForecastAvailability := .ready
  riskScore : ℤ
  waitMs : ℚ := 0
  reasons : List String := []
  hardFailure : Bool := false
  exhausted : Bool := false

namespace Assessment
def unavailable (state : Assessment) (risk : ℤ) (reason : String) : Assessment :=
  { state with availability := .unavailable, riskScore := state.riskScore + risk, reasons := state.reasons ++ [reason] }

/-- An account that was ready waits; any other stays as it is. -/
def delay (state : Assessment) : Assessment := if state.availability = .ready then { state with availability := .delayed } else state

def wait (state : Assessment) (remaining : ℚ) : Assessment := { state with waitMs := max state.waitMs remaining }

def risk (state : Assessment) (risk : ℤ) : Assessment := { state with riskScore := state.riskScore + risk }

def note (state : Assessment) (reasons : List String) : Assessment := { state with reasons := state.reasons ++ reasons }
end Assessment

def formatWaitTime (ms : ℚ) : String :=
  let totalSeconds := max 0 (ms / 1000).floor
  let minutes := totalSeconds / 60
  let seconds := totalSeconds % 60
  if 0 < minutes then toString minutes ++ "m " ++ toString seconds ++ "s" else toString seconds ++ "s"

def waitReason (heading : String) (waitMs : ℚ) : List String := if waitMs ≤ 0 then [] else [heading ++ " " ++ formatWaitTime waitMs]

/-- `Math.round`: halves go up. -/
def roundHalfUp (value : ℚ) : ℤ := (value + 1 / 2).floor

def describeQuotaUsage (label : String) (usedPercent : Option ℚ) : List String :=
  (usedPercent.map (fun used => label ++ " quota " ++ toString (max 0 (min 100 (roundHalfUp used))) ++ "% used")).toList

def clampRisk (score : ℤ) : ℤ := max 0 (min 100 score)

def getRiskLevel (score : ℤ) : ForecastRiskLevel := if 75 ≤ score then .high else if 40 ≤ score then .medium else .low

section
variable [Host]

def includes (text part : String) : Bool := decide (part.toList <:+: text.toList)

def isHardRefreshFailure (failure : TokenFailure) : Bool :=
  if failure.reason = some "missing_refresh" then true
  else if failure.statusCode = some 401 then true
  else if failure.statusCode ≠ some 400 then false
  else
    let message := Host.toLowerCase (failure.message.getD "")
    includes message "invalid_grant" || includes message "invalid refresh" || includes message "token has been revoked"

def summarizeRefreshFailure (text : ForecastText) (failure : TokenFailure) : String :=
  match failure.reason.bind (fun reason => nonEmpty (trim reason)) with
  | some reasonCode => reasonCode ++ (match failure.statusCode with
    | some statusCode => " (" ++ toString statusCode ++ ")"
    | none => "")
  | none =>
    let fallback := (failure.message.bind (fun message => nonEmpty (trim message))).getD "refresh failed"
    String.ofList ((text.redactSensitiveReason fallback).toList.take 160)

variable (text : ForecastText) (env : Runtime) (input : ForecastAccountInput)

def isDisabled (row : AccountMetadataV3) : Bool := decide (OrderedMap.find row "enabled" = some (.bool false))

def assessEnabled (state : Assessment) : Assessment :=
  if isDisabled input.account then state.unavailable 95 "account is disabled" else state

def assessInvalidation (state : Assessment) : Assessment :=
  match Record.number input.account "authInvalidatedAt" with
  | some _ => state.unavailable 95 AUTH_INVALIDATION_MARKER
  | none => state

def assessRefreshFailure (state : Assessment) : Assessment :=
  match input.refreshFailure with
  | none => state
  | some failure =>
    let detail := summarizeRefreshFailure text failure
    if isHardRefreshFailure failure then { state.unavailable 90 ("hard auth failure: " ++ detail) with hardFailure := true }
    else { (state.risk 25).note ["refresh warning: " ++ detail] with hardFailure := false }

def cooldownRemaining : Option ℚ :=
  (Record.number input.account "coolingDownUntil").bind (fun deadline => if input.now < deadline then some (deadline - input.now) else none)

def assessCooldown (state : Assessment) : Assessment :=
  match cooldownRemaining input with
  | some remaining => (((state.wait remaining).delay).risk 45).note (waitReason "cooldown remaining" remaining)
  | none => state

def rateLimitResetAt : Option ℚ :=
  let forecastFamily := input.family.getD .codex
  match input.model.bind nonEmpty with
  | some model => getRateLimitResetTimeForModel env input.account input.now forecastFamily model
  | none => getRateLimitResetTimeForFamily env input.account input.now forecastFamily

def assessRateLimit (state : Assessment) : Assessment :=
  match rateLimitResetAt env input with
  | some resetAt =>
    let remaining := max 0 (resetAt - input.now)
    (((state.wait remaining).delay).risk 35).note (waitReason "rate limit resets in" remaining)
  | none => state

def assessQuotaCache (state : Assessment) : Assessment :=
  if isQuotaCacheEntryExhausted input.quotaEntry input.now then
    let windows := input.quotaEntry.elim [] (fun entry => [entry.primary,entry.secondary])
    let resetAts := windows.filterMap (fun window =>
      if quotaUsedPercentIsExhausted window.usedPercent then
        window.resetAtMs.bind (fun resetAt => if input.now < resetAt then some resetAt else none)
      else none)
    let quotaWait := (longest resetAts).elim state.waitMs (fun latest => latest - input.now)
    ({ ((state.wait quotaWait).delay).risk 60 with exhausted := true }.note ["quota cache exhausted"]).note (waitReason "quota resets in" quotaWait)
  else state

def overlayReason : Option String :=
  input.runtimeOverlay.bind (fun overlay =>
    (overlay.accountSkipReasons.find (toString input.index)).or (overlay.lastPoolExhaustionSkipReasons.find (toString input.index)))

/-- A reason whose own stored deadline is over. -/
def isStaleOverlayReason (reason : String) : Bool :=
  if reason = "rate-limited" then (rateLimitResetAt env input).isNone
  else if "cooling-down".toList.isPrefixOf reason.toList then (cooldownRemaining input).isNone
  else false

def overlayRisk (reason : String) : ℤ := if reason = "circuit-open" then 90 else if reason = "token-exhausted" then 70 else 50

def assessOverlay (state : Assessment) : Assessment :=
  if input.runtimeOverlay.any (fun overlay => overlay.policyBlockedIndexes.contains input.index) then
    state.unavailable 95 "runtime policy blocked account"
  else
    match (overlayReason input).bind nonEmpty with
    | some reason =>
      if reason ≠ "already-attempted" ∧ isStaleOverlayReason env input reason = false then
        state.unavailable (overlayRisk reason) ("runtime skip: " ++ reason)
      else state
    | none => state

def usageRisk (primaryUsed secondaryUsed : ℚ) : ℤ :=
  if 98 ≤ primaryUsed ∨ 98 ≤ secondaryUsed then 55
  else if 90 ≤ primaryUsed ∨ 90 ≤ secondaryUsed then 35
  else if 80 ≤ primaryUsed ∨ 80 ≤ secondaryUsed then 20
  else if 70 ≤ primaryUsed ∨ 70 ≤ secondaryUsed then 10
  else 0

def assessLiveQuota (state : Assessment) : Assessment :=
  match input.liveQuota with
  | none => state
  | some quota =>
    let primaryUsed := quota.primary.usedPercent.getD 0
    let secondaryUsed := quota.secondary.usedPercent.getD 0
    let quotaPressure := quota.status = 429 ∨ 90 ≤ primaryUsed ∨ 90 ≤ secondaryUsed
    let state := if quota.status = 429 then (((state.delay).risk 35).note ["live probe returned 429"]) else state
    let liveWait := if quotaPressure then getLiveQuotaWaitMs quota input.now (decide (quota.status ≠ 429)) else 0
    let state := state.wait liveWait
    let state := if 0 < liveWait then state.delay else state
    let liveExhausted := [quota.primary,quota.secondary].any (fun window =>
      quotaUsedPercentIsExhausted window.usedPercent && window.resetAtMs.isNone)
    let state := if liveExhausted then { state.delay with exhausted := true } else state
    ((state.note (describeQuotaUsage "primary" quota.primary.usedPercent)).note
      (describeQuotaUsage "secondary" quota.secondary.usedPercent)).risk (usageRisk primaryUsed secondaryUsed)

def WEEK_MS : ℚ := 7 * 24 * 60 * 60 * 1000

def assessLastUsed (state : Assessment) : Assessment :=
  match (input.account.lastUsed).bind (fun used => if 0 < used then some (input.now - used) else none) with
  | some age => if age < 0 then state.risk 5 else if WEEK_MS < age then state.risk 10 else state
  | none => state

def assess : Assessment :=
  let start : Assessment := { riskScore := if input.isCurrent then -5 else 0 }
  assessLastUsed input (assessLiveQuota input (assessOverlay env input (assessQuotaCache input (assessRateLimit env input
    (assessCooldown input (assessRefreshFailure text input (assessInvalidation input (assessEnabled input start))))))))

def evaluateForecastAccount : ForecastAccountResult :=
  let state := assess text env input
  let finalRisk := clampRisk state.riskScore
  { index := input.index
    label := text.label input.account input.index
    isCurrent := input.isCurrent
    availability := state.availability
    riskScore := finalRisk
    riskLevel := getRiskLevel finalRisk
    waitMs := max 0 state.waitMs.floor
    reasons := state.reasons
    hardFailure := state.hardFailure
    disabled := isDisabled input.account
    exhausted := state.exhausted }

end

structure ForecastRecommendation where
  recommendedIndex : Option Nat
  reason : String

def ForecastAvailability.rank : ForecastAvailability → ℤ
  | .ready => 0
  | .delayed => 1
  | .unavailable => 2

def compareForecastResults (a b : ForecastAccountResult) : ℤ :=
  if a.availability ≠ b.availability then a.availability.rank - b.availability.rank
  else if a.availability = .delayed ∧ b.availability = .delayed ∧ a.waitMs ≠ b.waitMs then a.waitMs - b.waitMs
  else if a.riskScore ≠ b.riskScore then a.riskScore - b.riskScore
  else if a.isCurrent ≠ b.isCurrent then (if a.isCurrent then -1 else 1)
  else (a.index : ℤ) - b.index

def isCandidate (result : ForecastAccountResult) : Bool :=
  !result.disabled && !result.hardFailure && !result.exhausted && decide (result.availability ≠ .unavailable)

def isBlockedOrExhausted (result : ForecastAccountResult) : Bool :=
  !result.disabled && !result.hardFailure && (result.exhausted || decide (result.availability = .unavailable))

def ForecastRiskLevel.name : ForecastRiskLevel → String
  | .low => "low"
  | .medium => "medium"
  | .high => "high"

def recommendForecastAccount (results : List ForecastAccountResult) : ForecastRecommendation :=
  let candidates := results.filter isCandidate
  match candidates.mergeSort (fun a b => decide (compareForecastResults a b ≤ 0)) with
  | [] =>
    { recommendedIndex := none
      reason :=
        if results.any isBlockedOrExhausted then
          "All accounts are blocked or exhausted. Wait for a reset, clear the block, or run `codex-multi-auth login` to add a fresh account."
        else "No healthy accounts are available. Run `codex-multi-auth login` to add a fresh account." }
  | best :: _ =>
    { recommendedIndex := some best.index
      reason :=
        if best.availability = .ready then
          "Lowest risk ready account (" ++ best.riskLevel.name ++ ", score " ++ toString best.riskScore ++ ")."
        else "No account is immediately ready; pick shortest wait (" ++ formatWaitTime best.waitMs ++ ")." }

end CodexMultiAuth.Forecast
