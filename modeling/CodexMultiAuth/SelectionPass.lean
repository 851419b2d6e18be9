import CodexMultiAuth.CircuitBreaker
import CodexMultiAuth.FailurePolicy

/-!
A pass of the selection loop of the runtime proxy. After an account is selected, the pass
takes a token of the pool and perhaps a probe of the half-open circuit, refreshes the
account, checks it again, and sends the request; it can end after every step. What it does
to token and probe is its trace.
-/
namespace CodexMultiAuth.RuntimeProxy
open PluginHost (TokenBucketConfig TokenBucketEntry Buckets TOKEN_REFUND_WINDOW_MS tryConsume refundToken isRecent eraseRecent)

inductive Act (Account : Type) where
  | consumeToken (account : Account)
  | refundToken (account : Account)
  | acquireProbe
  | releaseProbe
  | dispatch
  | recordFailure (account : Account)
  | recordSuccess (account : Account)
  | recordRateLimit (account : Account)
  deriving DecidableEq

/-- Where a pass can end. -/
inductive Exit where
  | tokenExhausted
  | circuitOpen
  | refreshThrew
  | adoptionFailed
  | refreshFailed
  | workspaceDisabled
  | deferred
  | noAccountId
  | workspaceRejected
  | storageThrew
  | eligibilityChanged
  | headersThrew
  /-- The client is gone before the response, or has cancelled. -/
  | clientGone
  | redirectRejected
  | transportError
  | capabilityRejected
  | capacityWait
  | rateLimited
  | workspaceError
  /-- The account is disabled now; whether it was enabled before. -/
  | deactivated (accountWasEnabled : Bool)
  /-- The token was refused; whether it is still the account's. -/
  | unauthorized (attributed : Bool)
  | serverError
  /-- The response was forwarded, with nothing to say about the account. -/
  | forwarded
  /-- Forwarding threw, or rebuilding for the reserve did. -/
  | threw
  | streamBroke
  | succeeded
  deriving DecidableEq

/-- How the loop goes on. -/
inductive Flow where
  | continues
  | breaks
  | returns
  | throws
  deriving DecidableEq

structure Trace (Account : Type) where
  acts : List (Act Account)
  exit : Exit
  flow : Flow
  deriving DecidableEq

namespace Trace
variable {Account : Type}

def ends (exit : Exit) (flow : Flow) : Trace Account := ⟨[],exit,flow⟩

def after (act : Act Account) (rest : Trace Account) : Trace Account := { rest with acts := act :: rest.acts }

def dispatched (trace : Trace Account) : Bool :=
  trace.acts.any fun act => match act with
    | .dispatch => true
    | _ => false

def takes (trace : Trace Account) : ℕ :=
  trace.acts.countP fun act => match act with
    | .consumeToken _ => true
    | _ => false

def refunds (trace : Trace Account) : ℕ :=
  trace.acts.countP fun act => match act with
    | .refundToken _ => true
    | _ => false

def probes (trace : Trace Account) : ℕ :=
  trace.acts.countP fun act => match act with
    | .acquireProbe => true
    | _ => false

def releases (trace : Trace Account) : ℕ :=
  trace.acts.countP fun act => match act with
    | .releaseProbe => true
    | _ => false

/-- Verdicts on the account, which resolve a probe of it. -/
def verdicts (trace : Trace Account) : ℕ :=
  trace.acts.countP fun act => match act with
    | .recordFailure _ => true
    | .recordSuccess _ => true
    | _ => false

end Trace

inductive Route where
  | responses
  | image
  | transcribe
  | threadGoal
  | search
  | realtimeCall
  deriving DecidableEq

structure Request where
  route : Route
  isPinned : Bool := false
  nativeOpenai : Bool := false
  model : Option String := none
  upstreamPath : String := ""

def LUNA_RESERVE_MODEL : String := "gpt-reserve"

def Request.bypassPoolTokenBucket (r : Request) : Bool :=
  r.isPinned || decide (r.route = .transcribe) || (r.nativeOpenai && decide (r.route = .responses))

structure Scope where
  id : String
  accountId : String
  storedWorkspaceId : Option String := none
  routable : Bool := true
  selected : Bool := false
  bound : Bool := false
  deriving DecidableEq

inductive Refreshed (Account : Type) where
  | ok (account : Account)
  /-- A failure that counts against an account was recorded. -/
  | failed (recorded : Option Account) (retryable invalidated coordinationFailed : Bool)
  | selectionRestart

inductive PolicyAnswer where
  | allowed
  | blocked
  | threw
  deriving DecidableEq

/-- What `waitOutModelCapacity` reads. -/
structure CapacityWait where
  /-- Nothing where it is not finite. -/
  budgetMs : Option ℚ := none
  capacityDeadlineAt : Option ℚ := none
  now : ℚ := 0
  capacityRetries : ℕ := 0
  gone : Bool := false
  /-- The client is gone after the wait. -/
  goneAfter : Bool := false

/-- How a response was forwarded. -/
inductive Forwarding where
  | complete
  /-- An error of the stream. -/
  | broke
  /-- The client is gone, or the response is not a success. -/
  | unfinished
  | threw
  deriving DecidableEq

/-- A response of the upstream, with what its body says. -/
structure Reply (Account : Type) where
  status : ℕ
  capabilityFailure : Bool := false
  modelAtCapacity : Bool := false
  subscriptionQuotaExceeded : Bool := false
  retryAfterHintMs : Option ℚ := none
  wait : CapacityWait := {}
  switchesToLunaReserve : Bool := false
  reservePolicy : Option PolicyAnswer := none
  rebuildThrows : Bool := false
  workspaceDisabled : Bool := false
  tokenInvalidated : Bool := false
  saveThrows : Bool := false
  /-- The account in the latest manager. -/
  responseStateTarget : Account
  enabled : Bool := true
  /-- The same, if the credential is still the one that was sent. -/
  responseAuthStateTarget : Option Account := none
  forwarding : Forwarding := .complete

inductive Fetched (Account : Type) where
  /-- No response; whether the client is gone, and whether a redirect was rejected. -/
  | rejected (clientGone redirectRejected : Bool)
  | replied (reply : Reply Account)

structure StoredAccount where
  enabled : Bool := true
  authInvalidated : Bool := false
  scopes : List Scope

/-- What `readNativeAccountStorage` leads to: the stored account, if any. -/
inductive StorageRead where
  | threw
  | read (disk : Option StoredAccount)

/-- The answers of one pass. -/
structure Answers (Account : Type) where
  /-- Nothing where it throws. -/
  ensureFreshAccessToken : Option (Refreshed Account)
  /-- The refresh has published another manager. -/
  managerReplaced : Bool := false
  runtimePolicy : Option PolicyAnswer := none
  workspaceCandidates : Option (List Scope) := none
  workspaceModelScopes : List Scope := []
  hasWorkspaces : Bool := false
  resolveAccountId : Option String := none
  familyResetAt : ℚ := 0
  modelResetAt : ℚ := 0
  deferralWaitMs : ℚ := 0
  deferralDefers : Bool := false
  now : ℚ := 0
  rejectedWorkspaces : List String := []
  /-- Nothing where the proxy has no native storage. -/
  readNativeAccountStorage : Option StorageRead := none
  headersThrow : Bool := false
  fetched : Fetched Account

inductive AdmissionResult where
  | ok (probe : Option ℕ)
  | tokenExhausted
  | circuitOpen
  deriving DecidableEq

/-- The two gates of an admission. -/
structure Gates (Key : Type) where
  buckets : Buckets Key
  breaker : CircuitBreaker

/-- A token is taken from the bucket first; it goes back if the circuit does not admit. -/
def consumeTokenWithReason {Key : Type} [DecidableEq Key] (bucket : TokenBucketConfig) (circuit : CircuitBreakerConfig) (now : ℚ)
    (key : Key) (bypassTokenBucket : Bool) (gates : Gates Key) : AdmissionResult × Gates Key :=
  match if bypassTokenBucket then some gates.buckets else tryConsume bucket now gates.buckets key with
  | none => (.tokenExhausted,gates)
  | some buckets =>
    match gates.breaker.tryCanExecute circuit now with
    | (.refused _ _,breaker) =>
      (.circuitOpen,⟨if bypassTokenBucket then buckets else (refundToken bucket now buckets key).1,breaker⟩)
    | (.admitted probe,breaker) => (.ok probe,⟨buckets,breaker⟩)

section
variable {Account : Type} (r : Request) (selected : Account)

def refundConsumedPoolToken (account : Account) (rest : Trace Account) : Trace Account :=
  if r.bypassPoolTokenBucket then rest else rest.after (.refundToken account)

/-- Whether the request goes on under the next manager. -/
def adoptAccountManager (runtimePolicy : Option PolicyAnswer) : Bool :=
  match runtimePolicy with
  | none => true
  | some .allowed => true
  | some .blocked => false
  | some .threw => false

/-- The selected scope first, then the bound one. -/
def scopeRank (scope : Scope) : ℕ := (if scope.selected then 2 else 0) + (if scope.bound then 1 else 0)

def pendingScopes (a : Answers Account) : Option (List Scope) :=
  let enabled := a.workspaceModelScopes.filter Scope.routable
  let pending :=
    if !r.nativeOpenai || decide (r.route ≠ .responses) then some (enabled.mergeSort fun one other => decide (scopeRank other ≤ scopeRank one))
    else a.workspaceCandidates
  let pending := if !r.nativeOpenai && !a.hasWorkspaces && (pending.getD []).isEmpty then none else pending
  pending.map fun scopes => scopes.dropWhile fun scope => !(enabled.map Scope.id).contains scope.id

def CAPACITY_RETRY_BACKOFF_STEPS_MS : List ℚ := [2000,5000,15000,30000,60000]

def capacityRetryBackoffMs (attempt : ℕ) : ℚ :=
  CAPACITY_RETRY_BACKOFF_STEPS_MS.getD (min (attempt - 1) (CAPACITY_RETRY_BACKOFF_STEPS_MS.length - 1)) 0

inductive CapacityOutcome where
  | retry
  | giveUp
  /-- Whether the token was refunded before. -/
  | clientGone (refunded : Bool)
  deriving DecidableEq

def waitOutModelCapacity (wait : CapacityWait) (retryAfterMs : Option ℚ) : CapacityOutcome :=
  match wait.budgetMs with
  | none => .giveUp
  | some budgetMs =>
    let remainingMs := wait.capacityDeadlineAt.getD (wait.now + budgetMs) - wait.now
    let hinted := match retryAfterMs with
      | some ms => if 0 < ms then ms else capacityRetryBackoffMs (wait.capacityRetries + 1)
      | none => capacityRetryBackoffMs (wait.capacityRetries + 1)
    if budgetMs ≤ 0 then .giveUp
    else if remainingMs ≤ 0 then .giveUp
    else if wait.gone then .clientGone false
    else if min (max 0 (⌊hinted⌋ : ℚ)) remainingMs ≤ 0 then .giveUp
    else if wait.goneAfter then .clientGone true
    else .retry

/-- The wait for a model at capacity, before what the pass does otherwise. -/
def withCapacity (account : Account) (reply : Reply Account) (hint : Option ℚ) (otherwise : Trace Account) : Trace Account :=
  if reply.modelAtCapacity then
    match waitOutModelCapacity reply.wait hint with
    | .retry => refundConsumedPoolToken r account (.ends .capacityWait .continues)
    | .clientGone refunded =>
      if refunded then refundConsumedPoolToken r account (.ends .capacityWait .returns) else .ends .capacityWait .returns
    | .giveUp => otherwise
  else otherwise

def forwardOnly (reply : Reply Account) : Trace Account :=
  match reply.forwarding with
  | .threw => .ends .threw .throws
  | _ => .ends .forwarded .returns

def afterRateLimit (account : Account) (reply : Reply Account) : Trace Account :=
  if r.route = .search ∨ r.route = .realtimeCall then .ends .forwarded .returns
  else if r.route = .transcribe then .ends .forwarded .returns
  else
    withCapacity r account reply reply.retryAfterHintMs <|
      Trace.after (.recordRateLimit reply.responseStateTarget) <|
        if !reply.modelAtCapacity && reply.subscriptionQuotaExceeded && reply.switchesToLunaReserve then
          match reply.reservePolicy with
          | some .blocked => .ends .rateLimited .returns
          | some .threw => .ends .rateLimited .returns
          | _ => if reply.rebuildThrows then .ends .threw .throws else .ends .rateLimited .continues
        else .ends .rateLimited .continues

def afterForbidden (account : Account) (requestScope : Option Scope) (reply : Reply Account) : Trace Account :=
  if reply.workspaceDisabled then
    match requestScope.bind Scope.storedWorkspaceId with
    | some _ => refundConsumedPoolToken r account (.ends .workspaceError .continues)
    | none =>
      refundConsumedPoolToken r account <|
        if reply.enabled then Trace.after (.recordFailure reply.responseStateTarget) (.ends (.deactivated true) .continues)
        else .ends (.deactivated false) .continues
  else .ends .forwarded .returns

def afterUnauthorized (account : Account) (reply : Reply Account) : Trace Account :=
  let attributed := reply.responseAuthStateTarget.filter fun _ => decide (r.route ≠ .transcribe)
  let ended (flow : Flow) : Trace Account :=
    match attributed with
    | some target => Trace.after (.recordFailure target) (.ends (.unauthorized true) flow)
    | none => .ends (.unauthorized false) flow
  refundConsumedPoolToken r account <|
    if reply.tokenInvalidated then
      if reply.responseAuthStateTarget.isSome && reply.saveThrows then ended .throws else ended .returns
    else if r.route = .transcribe then ended .returns
    else ended .continues

def afterServerError (account : Account) (reply : Reply Account) : Trace Account :=
  withCapacity r account reply reply.retryAfterHintMs <|
    refundConsumedPoolToken r account <|
      Trace.after (.recordFailure reply.responseStateTarget) (.ends .serverError .continues)

def afterAnswer (reply : Reply Account) : Trace Account :=
  match reply.forwarding with
  | .threw => .ends .threw .throws
  | .unfinished => .ends .forwarded .returns
  | .broke =>
    if r.route = .transcribe then .ends .forwarded .returns
    else Trace.after (.recordFailure reply.responseStateTarget) (.ends .streamBroke .returns)
  | .complete =>
    if 200 ≤ reply.status ∧ reply.status < 300 ∧ r.route ≠ .transcribe then
      Trace.after (.recordSuccess reply.responseStateTarget) (.ends .succeeded .returns)
    else .ends .forwarded .returns

def afterReply (account : Account) (pending : Option (List Scope)) (reply : Reply Account) : Trace Account :=
  if r.route = .responses ∧ r.model.any (fun model => decide (model ≠ "")) = true ∧ reply.status ∈ [400,403,404] ∧ r.nativeOpenai = true ∧ reply.capabilityFailure = true then
    if 1 < (pending.getD []).length then refundConsumedPoolToken r account (.ends .capabilityRejected .continues)
    else refundConsumedPoolToken r account (.ends .capabilityRejected (if r.isPinned then .returns else .continues))
  else if reply.status = 429 then afterRateLimit r account reply
  else if reply.status = 402 ∨ reply.status = 403 then afterForbidden r account (pending.bind List.head?) reply
  else if reply.status = 401 then afterUnauthorized r account reply
  else if r.route = .transcribe ∧ 400 ≤ reply.status then forwardOnly reply
  else if (r.route = .image ∨ r.route = .search ∨ r.route = .realtimeCall) ∧ 400 ≤ reply.status then forwardOnly reply
  else if 500 ≤ reply.status then afterServerError r account reply
  else if r.route = .threadGoal ∧ 400 ≤ reply.status then
    if r.upstreamPath.endsWith "/get" then .ends .forwarded .returns else forwardOnly reply
  else afterAnswer r reply

def dispatch (account : Account) (pending : Option (List Scope)) : Fetched Account → Trace Account
  | .rejected clientGone redirectRejected =>
    refundConsumedPoolToken r account <|
      if clientGone then .ends .clientGone .returns
      else if redirectRejected then .ends .redirectRejected .returns
      else if r.route = .image ∨ r.route = .transcribe ∨ r.route = .realtimeCall ∨ r.route = .search then .ends .transportError .returns
      else .ends .transportError .continues
  | .replied reply => afterReply r account pending reply

def stillEligible (accountId : String) (disk : Option StoredAccount) : Bool :=
  match disk with
  | none => false
  | some disk => disk.enabled && !disk.authInvalidated && disk.scopes.any fun scope => scope.routable && decide (scope.accountId = accountId)

/-- The last checks before the request is sent. -/
def afterEligibility (account : Account) (a : Answers Account) : Trace Account :=
  if a.headersThrow then .ends .headersThrew .throws
  else Trace.after .dispatch (dispatch r account (pendingScopes r a) a.fetched)

def afterChecks (account : Account) (accountId : String) (a : Answers Account) : Trace Account :=
  if a.rejectedWorkspaces.contains accountId then refundConsumedPoolToken r account (.ends .workspaceRejected .continues)
  else
    match a.readNativeAccountStorage with
    | none => afterEligibility r account a
    | some .threw => .ends .storageThrew .throws
    | some (.read disk) => if stillEligible accountId disk then afterEligibility r account a else .ends .eligibilityChanged .returns

/-- Whether the account is out of quota or deferred now that it is refreshed. -/
def deferredNow (accountId : Option String) (a : Answers Account) : Bool :=
  let reserve := decide (r.model = some LUNA_RESERVE_MODEL)
  !r.nativeOpenai && decide (r.route = .responses) && accountId.isSome &&
    (decide (a.now < max (if reserve then 0 else a.familyResetAt) a.modelResetAt) ||
      (!reserve && a.deferralDefers && decide (0 < a.deferralWaitMs)))

def afterRefresh (account : Account) (a : Answers Account) : Trace Account :=
  let pending := pendingScopes r a
  if pending = some [] then refundConsumedPoolToken r account (.ends .workspaceDisabled (if r.isPinned then .breaks else .continues))
  else
    let accountId := ((pending.bind List.head?).map Scope.accountId <|> a.resolveAccountId).filter fun id => decide (id ≠ "")
    if deferredNow r accountId a then refundConsumedPoolToken r account (.ends .deferred (if r.isPinned then .breaks else .continues))
    else
      match accountId with
      | none => refundConsumedPoolToken r account (Trace.after (.recordFailure account) (.ends .noAccountId .continues))
      | some accountId => afterChecks r account accountId a

/-- The pass from where it is admitted. -/
def refreshAndSend (a : Answers Account) : Trace Account :=
  match a.ensureFreshAccessToken with
  | none => .ends .refreshThrew .throws
  | some refreshed =>
    let adopted := !a.managerReplaced || adoptAccountManager a.runtimePolicy
    match refreshed with
    | .ok account => if adopted then afterRefresh r account a else .ends .adoptionFailed .returns
    | .selectionRestart =>
      if adopted then refundConsumedPoolToken r selected (.ends .refreshFailed .continues) else .ends .adoptionFailed .returns
    | .failed recorded retryable invalidated coordinationFailed =>
      let rest : Trace Account :=
        if adopted then
          refundConsumedPoolToken r selected
            (.ends .refreshFailed (if coordinationFailed || invalidated then .returns else .continues))
        else .ends .adoptionFailed .returns
      match recorded with
      | some account => rest.after (.recordFailure account)
      | none => rest

/-- An unused probe is released at the end, however the pass ends. -/
def releaseUnused (probe : Bool) (trace : Trace Account) : Trace Account :=
  if probe && !trace.dispatched then { trace with acts := trace.acts ++ [.releaseProbe] } else trace

/-- A token is taken unless the request bypasses the buckets. -/
def takeToken (trace : Trace Account) : Trace Account :=
  if r.bypassPoolTokenBucket then trace else trace.after (.consumeToken selected)

/-- An admitted pass, with or without a probe. -/
def admittedPass (probe : Bool) (a : Answers Account) : Trace Account :=
  takeToken r selected <|
    if probe then (releaseUnused true (refreshAndSend r selected a)).after .acquireProbe
    else refreshAndSend r selected a

/-- One pass for the account that was selected. -/
def selectionPass {Key : Type} [DecidableEq Key] (bucket : TokenBucketConfig) (circuit : CircuitBreakerConfig) (now : ℚ) (key : Key)
    (gates : Gates Key) (a : Answers Account) : Trace Account :=
  let refused (exit : Exit) : Trace Account := .ends exit (if r.isPinned then .breaks else .continues)
  if r.route = .transcribe then admittedPass r selected false a
  else
    match (consumeTokenWithReason bucket circuit now key r.bypassPoolTokenBucket gates).1 with
    | .ok probe => admittedPass r selected probe.isSome a
    | .tokenExhausted => refused .tokenExhausted
    | .circuitOpen => takeToken r selected (refundConsumedPoolToken r selected (refused .circuitOpen))

end

end CodexMultiAuth.RuntimeProxy
