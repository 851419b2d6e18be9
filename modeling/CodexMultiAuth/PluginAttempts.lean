import Mathlib.Algebra.Order.BigOperators.Group.List
import CodexMultiAuth.FailurePolicy
import CodexMultiAuth.Runs

/-!
The attempts of the plugin host to get a response for one request. An attempt consumes a
token of its account and sends, and may send again on the same account without another
token; a failure gives a token back, each time.
-/
namespace CodexMultiAuth.PluginHost
open List
set_option linter.unusedSectionVars false

/-- A bucket: that of an account for a model family or a model. -/
abbrev QuotaKey (Account : Type) := Account × String

def quotaKey {Account : Type} (account : Account) (family : String) (model : Option String) : QuotaKey Account :=
  (account,(model.map (fun model => family ++ ":" ++ model)).getD family)

def CURRENT_CODEX_MODEL : String := "gpt-5.6-sol"

def MAX_SHORT_RETRY_ATTEMPTS : ℕ := 3

/-- What an attempt has done since its token was consumed. -/
structure Attempt (Account : Type) where
  account : Account
  modelFamily : String
  model : Option String
  sameAccountRetryCount : ℕ := 0
  shortRateLimitRetryCount : ℕ := 0
  sends : ℕ := 0
  /-- Successful refunds to the bucket of the token. -/
  refunds : ℕ := 0
  /-- Successful refunds to another bucket. -/
  strays : ℕ := 0
  /-- A request is out. -/
  sent : Bool := false

namespace Attempt
variable {Account : Type} (attempt : Attempt Account)

def key : QuotaKey Account := quotaKey attempt.account attempt.modelFamily attempt.model

/-- The bucket that a model fallback refunds to. -/
def fallbackKey : QuotaKey Account := quotaKey attempt.account attempt.modelFamily (some (attempt.model.getD CURRENT_CODEX_MODEL))

end Attempt

structure Config where
  bucket : TokenBucketConfig := {}
  failoverMode : FailoverMode := .aggressive
  networkErrorCooldownMs : Option ℚ := none
  serverErrorCooldownMs : Option ℚ := none
  shortRetryThresholdMs : ℚ := 5000
  emptyResponseMaxRetries : ℕ := 2

def Config.maxSameAccountRetries (config : Config) : ℕ :=
  match config.failoverMode with
  | .conservative => 2
  | .balanced => 1
  | .aggressive => 0

/-! ### The request -/

structure State (Account : Type) where
  buckets : Buckets (QuotaKey Account)
  attempt : Option (Attempt Account) := none
  finished : List (Attempt Account) := []
  emptyResponseRetries : ℕ := 0

def State.attempts {Account : Type} (s : State Account) : List (Attempt Account) := s.attempt.toList ++ s.finished

/-- What comes of a request that was sent. -/
inductive Outcome where
  | userAborted
  | networkError
  /-- Not supported by the account, while others are left. -/
  | unsupportedModel
  /-- Not supported, and there is another model to fall back to. -/
  | fallbackModel
  | serverError (retryAfterMs : Option ℚ)
  /-- A rate limit, with the longer one of backoff and hint. -/
  | rateLimited (cooldownMs : ℚ)
  | emptyResponse
  /-- Anything else ends the attempt. -/
  | settled

inductive Action (Account : Type) where
  /-- Other requests consume, refund and drain. -/
  | otherConsumes (now : ℚ) (key : QuotaKey Account)
  | otherRefunds (now : ℚ) (key : QuotaKey Account)
  | otherDrains (now : ℚ) (key : QuotaKey Account) (drainAmount : ℚ)
  /-- The next account is attempted, if there is a token and the circuit admits it. -/
  | consume (now : ℚ) (account : Account) (modelFamily : String) (model : Option String) (admitted : Bool)
  | send
  | exhausted
  | outcome (now : ℚ) (outcome : Outcome)

section
variable {Account : Type} [DecidableEq Account] (config : Config)

def refund (now : ℚ) (key : QuotaKey Account) (s : State Account) (attempt : Attempt Account) : State Account × Attempt Account :=
  let refunded := refundToken config.bucket now s.buckets key
  ({ s with buckets := refunded.1 },
    if refunded.2 then
      if key = attempt.key then { attempt with refunds := attempt.refunds + 1 } else { attempt with strays := attempt.strays + 1 }
    else attempt)

def endAttempt (s : State Account) (attempt : Attempt Account) : State Account :=
  { s with attempt := none,finished := { attempt with sent := false } :: s.finished }

/-- Sends once more on the same account, if the policy wants it and there is a retry left. -/
def retryOrEnd (retrySameAccount : Bool) (s : State Account) (attempt : Attempt Account) : State Account :=
  if retrySameAccount = true ∧ attempt.sameAccountRetryCount < config.maxSameAccountRetries then
    { s with attempt := some { attempt with sameAccountRetryCount := attempt.sameAccountRetryCount + 1,sent := false } }
  else endAttempt s attempt

/-- A failure under a policy. -/
def failed (now : ℚ) (policy : FailurePolicyDecision) (s : State Account) (attempt : Attempt Account) : State Account :=
  if policy.refundToken then
    retryOrEnd config policy.retrySameAccount (refund config now attempt.key s attempt).1 (refund config now attempt.key s attempt).2
  else retryOrEnd config policy.retrySameAccount s attempt

def policyOf (kind : FailureKind) (serverRetryAfterMs : Option ℚ) : FailurePolicyDecision :=
  evaluateFailurePolicy { kind := kind,serverRetryAfterMs := serverRetryAfterMs,failoverMode := some config.failoverMode }
    config.networkErrorCooldownMs config.serverErrorCooldownMs

def refundAndEnd (now : ℚ) (key : QuotaKey Account) (s : State Account) (attempt : Attempt Account) : State Account :=
  endAttempt (refund config now key s attempt).1 (refund config now key s attempt).2

/-- A rate limit drains the bucket; a short one is waited for. -/
def rateLimited (now cooldownMs : ℚ) (s : State Account) (attempt : Attempt Account) : State Account :=
  let drained := { s with buckets := drain config.bucket now s.buckets attempt.key 10 }
  if cooldownMs ≤ config.shortRetryThresholdMs ∧ attempt.shortRateLimitRetryCount < MAX_SHORT_RETRY_ATTEMPTS then
    { drained with attempt := some { attempt with shortRateLimitRetryCount := attempt.shortRateLimitRetryCount + 1,sent := false } }
  else endAttempt drained attempt

/-- An empty response is refunded and asked for again as long as there are retries. -/
def emptyResponse (now : ℚ) (s : State Account) (attempt : Attempt Account) : State Account :=
  if s.emptyResponseRetries < config.emptyResponseMaxRetries then
    let counted := { s with emptyResponseRetries := s.emptyResponseRetries + 1 }
    retryOrEnd config (policyOf config .emptyResponse none).retrySameAccount (refund config now attempt.key counted attempt).1
      (refund config now attempt.key counted attempt).2
  else endAttempt s attempt

def afterOutcome (now : ℚ) (s : State Account) (attempt : Attempt Account) : Outcome → State Account
  | .userAborted => refundAndEnd config now attempt.key s attempt
  | .networkError => failed config now (policyOf config .network none) s attempt
  | .unsupportedModel => refundAndEnd config now attempt.key s attempt
  | .fallbackModel => refundAndEnd config now attempt.fallbackKey s attempt
  | .serverError retryAfterMs => failed config now (policyOf config .server retryAfterMs) s attempt
  | .rateLimited cooldownMs => rateLimited config now cooldownMs s attempt
  | .emptyResponse => emptyResponse config now s attempt
  | .settled => endAttempt s attempt

/-- The token goes back at once where the circuit does not admit the request. -/
def consumeToken (now : ℚ) (attempt : Attempt Account) (admitted : Bool) (s : State Account) : State Account :=
  match tryConsume config.bucket now s.buckets attempt.key with
  | none => { s with buckets := drain config.bucket now s.buckets attempt.key 10 }
  | some buckets =>
    if admitted then { s with buckets := buckets,attempt := some attempt }
    else { s with buckets := drain config.bucket now (refundToken config.bucket now buckets attempt.key).1 attempt.key 10 }

def step (s : State Account) : Action Account → State Account
  | .otherConsumes now key => { s with buckets := (tryConsume config.bucket now s.buckets key).getD s.buckets }
  | .otherRefunds now key => { s with buckets := (refundToken config.bucket now s.buckets key).1 }
  | .otherDrains now key drainAmount => { s with buckets := drain config.bucket now s.buckets key drainAmount }
  | .consume now account modelFamily model admitted => consumeToken config now { account := account,modelFamily := modelFamily,model := model } admitted s
  | .send => { s with attempt := s.attempt.map (fun attempt => { attempt with sends := attempt.sends + 1,sent := true }) }
  | .exhausted =>
    match s.attempt with
    | none => s
    | some attempt => endAttempt s attempt
  | .outcome now outcome =>
    match s.attempt with
    | none => s
    | some attempt => afterOutcome config now s attempt outcome

def enabled (s : State Account) : Action Account → Prop
  | .consume _ _ _ _ _ => s.attempt.map Attempt.sent = none
  | .send => s.attempt.map Attempt.sent = some false
  | .exhausted => s.attempt.map Attempt.sent = some false
  | .outcome _ _ => s.attempt.map Attempt.sent = some true
  | _ => True

instance (s : State Account) : (action : Action Account) → Decidable (enabled s action)
  | .consume _ _ _ _ _ => inferInstanceAs (Decidable (_ = none))
  | .send => inferInstanceAs (Decidable (_ = some false))
  | .exhausted => inferInstanceAs (Decidable (_ = some false))
  | .outcome _ _ => inferInstanceAs (Decidable (_ = some true))
  | .otherConsumes _ _ => isTrue trivial
  | .otherRefunds _ _ => isTrue trivial
  | .otherDrains _ _ _ => isTrue trivial

/-- For the one token of an attempt there is at most one refund, to the bucket that it is
    from, and no more than one send that is not refunded. -/
structure Fair (attempt : Attempt Account) : Prop where
  once : attempt.refunds + attempt.strays ≤ 1
  own : attempt.strays = 0
  sends : attempt.sends ≤ attempt.refunds + 1

def total (count : Attempt Account → ℕ) (key : QuotaKey Account) (attempts : List (Attempt Account)) : ℕ :=
  ((attempts.filter (fun attempt => decide (attempt.key = key))).map count).sum

/-- Every attempt is fair; so, of every bucket, the request gives back no more than it has
    consumed, and sends no more than it has consumed and given back. -/
structure Balanced (s : State Account) : Prop where
  fair : ∀ attempt ∈ s.attempts, Fair attempt
  refunds : ∀ key, total Attempt.refunds key s.attempts ≤ total (fun _ => 1) key s.attempts
  sends : ∀ key, total Attempt.sends key s.attempts ≤ total (fun _ => 1) key s.attempts + total Attempt.refunds key s.attempts

def refundedKey (s : State Account) (attempt : Attempt Account) : Outcome → Option (QuotaKey Account)
  | .userAborted => some attempt.key
  | .networkError => some attempt.key
  | .unsupportedModel => some attempt.key
  | .fallbackModel => some attempt.fallbackKey
  | .serverError _ => some attempt.key
  | .rateLimited _ => none
  | .emptyResponse => if s.emptyResponseRetries < config.emptyResponseMaxRetries then some attempt.key else none
  | .settled => none

/-- An attempt sends again only when what it has sent was refunded. A failure meets a recent
    consumption in the bucket only when its attempt has had no refund yet, and then in its
    own bucket. -/
def Careful (s : State Account) : Action Account → Prop
  | .send => ∀ attempt, s.attempt = some attempt → attempt.sends ≤ attempt.refunds
  | .outcome now outcome =>
    ∀ attempt key, s.attempt = some attempt → refundedKey config s attempt outcome = some key → hasRecent now s.buckets key = true →
      attempt.refunds = 0 ∧ key = attempt.key
  | _ => True

/-- Nothing is sent again on the same account, and a model fallback is of a request that names
    its model. -/
def Single (s : State Account) : Action Account → Prop
  | .outcome _ .networkError => config.failoverMode = .aggressive
  | .outcome _ (.serverError _) => config.failoverMode = .aggressive
  | .outcome _ .emptyResponse => config.failoverMode = .aggressive
  | .outcome _ (.rateLimited cooldownMs) => config.shortRetryThresholdMs < cooldownMs
  | .outcome _ .fallbackModel => ∀ attempt, s.attempt = some attempt → attempt.model.isSome = true
  | _ => True

end

/-! ### What an outcome counts -/

section
variable {Account : Type} [DecidableEq Account] {config : Config} {now : ℚ} {s : State Account} {attempt : Attempt Account}

/-- An attempt after an outcome that refunds to a bucket, or to none. -/
structure Counted (now : ℚ) (s : State Account) (attempt : Attempt Account) (refunded : Option (QuotaKey Account)) (after : Attempt Account) : Prop where
  key : after.key = attempt.key
  sends : after.sends = attempt.sends
  refunds : after.refunds = attempt.refunds + if refunded = some attempt.key ∧ hasRecent now s.buckets attempt.key = true then 1 else 0
  strays : after.strays = attempt.strays +
    if ∃ key, refunded = some key ∧ key ≠ attempt.key ∧ hasRecent now s.buckets key = true then 1 else 0

theorem Counted.none (now : ℚ) (s : State Account) (attempt : Attempt Account) : Counted now s attempt none attempt :=
  ⟨rfl,rfl,by simp,by simp⟩

variable {refunded : Option (QuotaKey Account)}

theorem Counted.of_same {after last : Attempt Account} (counted : Counted now s attempt refunded after)
    (key : last.key = after.key) (sends : last.sends = after.sends) (refunds : last.refunds = after.refunds) (strays : last.strays = after.strays) :
    Counted now s attempt refunded last :=
  ⟨key.trans counted.key,sends.trans counted.sends,refunds.trans counted.refunds,strays.trans counted.strays⟩

theorem refund_counted (key : QuotaKey Account) : Counted now s attempt (some key) (refund config now key s attempt).2 := by
  unfold refund
  dsimp only
  rw [refundToken_successful]
  by_cases own : key = attempt.key
  · subst own
    cases recent : hasRecent now s.buckets attempt.key with
    | false => exact ⟨rfl,rfl,by simp [recent],by simp⟩
    | true =>
      rw [if_pos rfl,if_pos rfl]
      exact ⟨rfl,rfl,by simp [recent],by simp⟩
  · cases recent : hasRecent now s.buckets key with
    | false => exact ⟨rfl,rfl,by simp [own],by simp [recent]⟩
    | true =>
      rw [if_pos rfl,if_neg own]
      exact ⟨rfl,rfl,by simp [own],by simp [own,recent]⟩

variable {after : Attempt Account}

theorem retryOrEnd_attempts (retrySameAccount : Bool) {t : State Account}
    (counted : Counted now s attempt refunded after) :
    ∃ last, (retryOrEnd config retrySameAccount t after).attempts = last :: t.finished ∧ Counted now s attempt refunded last := by
  unfold retryOrEnd
  split
  · exact ⟨_,rfl,counted.of_same rfl rfl rfl rfl⟩
  · exact ⟨_,rfl,counted.of_same rfl rfl rfl rfl⟩

theorem endAttempt_attempts {t : State Account}
    (counted : Counted now s attempt refunded after) :
    ∃ last, (endAttempt t after).attempts = last :: t.finished ∧ Counted now s attempt refunded last :=
  ⟨_,rfl,counted.of_same rfl rfl rfl rfl⟩

theorem failed_attempts {policy : FailurePolicyDecision} (refunds : policy.refundToken = true) :
    ∃ last, (failed config now policy s attempt).attempts = last :: s.finished ∧ Counted now s attempt (some attempt.key) last := by
  unfold failed
  rw [if_pos refunds]
  exact retryOrEnd_attempts _ (refund_counted _)

theorem afterOutcome_attempts (config : Config) (now : ℚ) (s : State Account) (attempt : Attempt Account) (outcome : Outcome) :
    ∃ last, (afterOutcome config now s attempt outcome).attempts = last :: s.finished ∧
      Counted now s attempt (refundedKey config s attempt outcome) last := by
  cases outcome with
  | userAborted => exact endAttempt_attempts (refund_counted _)
  | networkError => exact failed_attempts rfl
  | unsupportedModel => exact endAttempt_attempts (refund_counted _)
  | fallbackModel => exact endAttempt_attempts (refund_counted _)
  | serverError retryAfterMs => exact failed_attempts rfl
  | rateLimited cooldownMs =>
    rw [afterOutcome,rateLimited]
    dsimp only
    split
    · exact ⟨_,rfl,(Counted.none now s attempt).of_same rfl rfl rfl rfl⟩
    · exact ⟨_,rfl,(Counted.none now s attempt).of_same rfl rfl rfl rfl⟩
  | emptyResponse =>
    rw [afterOutcome,emptyResponse,refundedKey]
    split
    · exact retryOrEnd_attempts _ (refund_counted _)
    · exact endAttempt_attempts (Counted.none now s attempt)
  | settled => exact endAttempt_attempts (Counted.none now s attempt)

/-- An attempt is as fair after an outcome just when a refund that it makes is its first and
    in its own bucket. -/
theorem Counted.fair_iff (counted : Counted now s attempt refunded after)
    (fair : Fair attempt) :
    Fair after ↔ ∀ key, refunded = some key → hasRecent now s.buckets key = true → attempt.refunds = 0 ∧ key = attempt.key := by
  obtain ⟨once,own,sends⟩ := fair
  constructor
  · rintro ⟨onceAfter,ownAfter,-⟩ key refunds recent
    rw [counted.strays] at ownAfter
    have same : key = attempt.key := by
      by_contra other
      rw [if_pos ⟨key,refunds,other,recent⟩] at ownAfter
      omega
    subst same
    rw [counted.refunds,if_pos ⟨refunds,recent⟩] at onceAfter
    exact ⟨by omega,rfl⟩
  · intro first
    have none_ : after.strays = 0 := by
      rw [counted.strays,if_neg,own]
      rintro ⟨key,refunds,other,recent⟩
      exact other (first key refunds recent).2
    refine ⟨?_,none_,?_⟩
    · rw [none_,counted.refunds]
      split
      · next refunds =>
        rw [(first _ refunds.1 refunds.2).1]
      · omega
    · rw [counted.sends,counted.refunds]
      omega

theorem total_le {count bound : Attempt Account → ℕ} {attempts : List (Attempt Account)} (each : ∀ attempt ∈ attempts, count attempt ≤ bound attempt)
    (key : QuotaKey Account) : total count key attempts ≤ total bound key attempts := by
  unfold total
  exact sum_le_sum (fun attempt member => each attempt (mem_filter.mp member).1)

theorem total_add (count other : Attempt Account → ℕ) (key : QuotaKey Account) (attempts : List (Attempt Account)) :
    total (fun attempt => count attempt + other attempt) key attempts = total count key attempts + total other key attempts := by
  unfold total
  exact sum_map_add

theorem balanced_of_fair (fair : ∀ attempt ∈ s.attempts, Fair attempt) : Balanced s where
  fair := fair
  refunds := total_le (fun attempt member => (Nat.le_add_right _ _).trans (fair attempt member).once)
  sends key := by
    rw [← total_add]
    exact total_le (fun attempt member => (fair attempt member).sends.trans (Nat.add_comm _ _).le) key

theorem attempts_cons (here : s.attempt = some attempt) : s.attempts = attempt :: s.finished := by
  rw [State.attempts,here]
  rfl

theorem consumeToken_attempts (config : Config) (now : ℚ) (attempt : Attempt Account) (idle : s.attempt = none) (admitted : Bool) :
    (consumeToken config now attempt admitted s).attempts = s.attempts ∨ (consumeToken config now attempt admitted s).attempts = attempt :: s.attempts := by
  have over_ : s.attempts = s.finished := by
    rw [State.attempts,idle]
    rfl
  unfold consumeToken
  split
  · exact Or.inl rfl
  · split
    · rw [over_]
      exact Or.inr rfl
    · exact Or.inl rfl

variable {action : Action Account}

theorem step_fair (may : enabled s action) (fair : ∀ attempt ∈ s.attempts, Fair attempt) (careful : Careful config s action) :
    ∀ attempt ∈ (step config s action).attempts, Fair attempt := by
  cases action with
  | otherConsumes now key => exact fair
  | otherRefunds now key => exact fair
  | otherDrains now key drainAmount => exact fair
  | consume now account modelFamily model admitted =>
    intro attempt member
    rw [step] at member
    rcases consumeToken_attempts config now { account := account,modelFamily := modelFamily,model := model }
      (Option.map_eq_none_iff.mp may) admitted with same | more
    · rw [same] at member
      exact fair attempt member
    · rw [more] at member
      rcases mem_cons.mp member with rfl | old
      · exact ⟨Nat.zero_le 1,rfl,Nat.zero_le 1⟩
      · exact fair attempt old
  | send =>
    obtain ⟨attempt,here,-⟩ := Option.map_eq_some_iff.mp may
    have before := fair attempt (attempts_cons here ▸ mem_cons_self)
    have after : (step config s .send).attempts = { attempt with sends := attempt.sends + 1,sent := true } :: s.finished := by
      rw [step,here]
      rfl
    rw [after]
    intro other member
    rcases mem_cons.mp member with rfl | old
    · exact ⟨before.once,before.own,Nat.succ_le_succ (careful attempt here)⟩
    · exact fair other (attempts_cons here ▸ mem_cons_of_mem _ old)
  | exhausted =>
    obtain ⟨attempt,here,-⟩ := Option.map_eq_some_iff.mp may
    have before := fair attempt (attempts_cons here ▸ mem_cons_self)
    have after : (step config s .exhausted).attempts = { attempt with sent := false } :: s.finished := by
      rw [step,here]
      rfl
    rw [after]
    intro other member
    rcases mem_cons.mp member with rfl | old
    · exact ⟨before.once,before.own,before.sends⟩
    · exact fair other (attempts_cons here ▸ mem_cons_of_mem _ old)
  | outcome now outcome =>
    obtain ⟨attempt,here,-⟩ := Option.map_eq_some_iff.mp may
    have before := fair attempt (attempts_cons here ▸ mem_cons_self)
    obtain ⟨last,after,counted⟩ := afterOutcome_attempts config now s attempt outcome
    rw [step,here]
    dsimp only
    rw [after]
    intro other member
    rcases mem_cons.mp member with rfl | old
    · exact (counted.fair_iff before).mpr (fun key refunds recent => careful attempt key here refunds recent)
    · exact fair other (attempts_cons here ▸ mem_cons_of_mem _ old)

theorem careful_of_fair (fair : ∀ attempt ∈ s.attempts, Fair attempt)
    (after : ∀ attempt ∈ (step config s action).attempts, Fair attempt) : Careful config s action := by
  cases action with
  | send =>
    intro attempt here
    have sent : { attempt with sends := attempt.sends + 1,sent := true } ∈ (step config s .send).attempts := by
      rw [step,here]
      exact mem_cons_self
    exact Nat.le_of_succ_le_succ (after _ sent).sends
  | outcome now outcome =>
    intro attempt key here refunds recent
    have before := fair attempt (attempts_cons here ▸ mem_cons_self)
    obtain ⟨last,left_,counted⟩ := afterOutcome_attempts config now s attempt outcome
    rw [step,here] at after
    dsimp only at after
    rw [left_] at after
    exact (counted.fair_iff before).mp (after last mem_cons_self) key refunds recent
  | _ => trivial

/-- An attempt that has had no refund, and has sent nothing before the request that is out. -/
def Unspent (s : State Account) : Prop := ∀ attempt, s.attempt = some attempt → attempt.refunds = 0 ∧ (attempt.sent = false → attempt.sends = 0)

theorem unspent_of_none (none_ : s.attempt = none) : Unspent s := by
  intro attempt here
  rw [none_] at here
  cases here

theorem retryOrEnd_aggressive (aggressive : config.failoverMode = .aggressive) (retrySameAccount : Bool) :
    (retryOrEnd config retrySameAccount s attempt).attempt = none := by
  have retries : config.maxSameAccountRetries = 0 := by rw [Config.maxSameAccountRetries,aggressive]
  rw [retryOrEnd,if_neg (fun more => Nat.not_lt_zero _ (retries ▸ more.2))]
  rfl

theorem failed_aggressive (aggressive : config.failoverMode = .aggressive) (policy : FailurePolicyDecision) :
    (failed config now policy s attempt).attempt = none := by
  unfold failed
  split
  · exact retryOrEnd_aggressive aggressive _
  · exact retryOrEnd_aggressive aggressive _

theorem afterOutcome_single {outcome : Outcome} (single : Single config s (.outcome now outcome)) :
    (afterOutcome config now s attempt outcome).attempt = none := by
  cases outcome with
  | userAborted => rfl
  | networkError => exact failed_aggressive single _
  | unsupportedModel => rfl
  | fallbackModel => rfl
  | serverError retryAfterMs => exact failed_aggressive single _
  | rateLimited cooldownMs =>
    rw [afterOutcome,rateLimited,if_neg (fun short => absurd short.1 (not_le.mpr single))]
    rfl
  | emptyResponse =>
    rw [afterOutcome,emptyResponse]
    split
    · exact retryOrEnd_aggressive single _
    · rfl
  | settled => rfl

theorem Unspent.step (unspent : Unspent s) (may : enabled s action) (single : Single config s action) :
    Unspent (step config s action) := by
  cases action with
  | otherConsumes now key => exact unspent
  | otherRefunds now key => exact unspent
  | otherDrains now key drainAmount => exact unspent
  | consume now account modelFamily model admitted =>
    rw [PluginHost.step]
    unfold consumeToken
    split
    · exact unspent
    · split
      · rintro attempt ⟨rfl⟩
        exact ⟨rfl,fun _ => rfl⟩
      · exact unspent
  | send =>
    rintro attempt here
    obtain ⟨before,there,rfl⟩ := Option.map_eq_some_iff.mp here
    exact ⟨(unspent before there).1,fun unsent => by cases unsent⟩
  | exhausted =>
    obtain ⟨attempt,here,-⟩ := Option.map_eq_some_iff.mp may
    rw [PluginHost.step,here]
    exact unspent_of_none rfl
  | outcome now outcome =>
    obtain ⟨attempt,here,-⟩ := Option.map_eq_some_iff.mp may
    rw [PluginHost.step,here]
    exact unspent_of_none (afterOutcome_single single)

theorem Unspent.careful (unspent : Unspent s) (may : enabled s action) (single : Single config s action) :
    Careful config s action := by
  cases action with
  | send =>
    intro attempt here
    rw [enabled,here] at may
    rw [(unspent attempt here).2 (Option.some.inj may)]
    exact Nat.zero_le _
  | outcome now outcome =>
    intro attempt key here refunds _
    refine ⟨(unspent attempt here).1,?_⟩
    cases outcome with
    | fallbackModel =>
      obtain ⟨model,named⟩ := Option.isSome_iff_exists.mp (single attempt here)
      rw [← Option.some.inj refunds,Attempt.fallbackKey,Attempt.key,named]
      rfl
    | rateLimited | settled => cases refunds
    | emptyResponse =>
      rw [refundedKey] at refunds
      split at refunds
      · exact (Option.some.inj refunds).symm
      · cases refunds
    | _ => exact (Option.some.inj refunds).symm
  | _ => trivial

/-- Of a request that starts without attempts, whatever other requests do to the buckets, the
    attempts are fair throughout just when each of its steps is careful; and so they are where
    none of them sends twice. -/
theorem attempts_fair_iff (config : Config) (buckets : Buckets (QuotaKey Account)) (actions : List (Action Account))
    (legal : Runs.Legal (step config) enabled ⟨buckets,none,[],0⟩ actions) :
    (Runs.Along (step config) Balanced ⟨buckets,none,[],0⟩ actions ↔ Runs.Legal (step config) (Careful config) ⟨buckets,none,[],0⟩ actions) ∧
      (Runs.Legal (step config) (Single config) ⟨buckets,none,[],0⟩ actions → Runs.Along (step config) Balanced ⟨buckets,none,[],0⟩ actions) := by
  have equiv : Runs.Along (step config) Balanced ⟨buckets,none,[],0⟩ actions ↔ Runs.Legal (step config) (Careful config) ⟨buckets,none,[],0⟩ actions := by
    refine Runs.along_iff_legal (fun s (fair : ∀ attempt ∈ s.attempts, Fair attempt) => ?_) ?_ ?_ legal ?_
    · exact balanced_of_fair fair
    · exact fun s action may fair careful => step_fair may fair careful
    · exact fun s action may fair after => careful_of_fair fair after.fair
    · exact fun attempt absent => absurd absent not_mem_nil
  refine ⟨equiv,fun single => equiv.mpr ?_⟩
  have both := legal.and single
  exact Runs.Legal.of_invariant (fun _ _ may unspent => unspent.step may.1 may.2) (fun _ _ _ unspent may => unspent.careful may.1 may.2)
    (unspent_of_none rfl) both both

end

/-- An attempt that fails in the aggressive mode, and is not made again. -/
def failingOnce : List (Action ℕ) := [.consume 0 0 "codex" none true,.send,.outcome 1 .networkError]

theorem failing_once_is_fair : Runs.Along (step {}) Balanced ⟨fun _ => none,none,[],0⟩ failingOnce := by
  exact (attempts_fair_iff {} (fun _ => none) failingOnce (by decide +kernel)).2 ⟨trivial,trivial,rfl,trivial⟩

/-- Another request has a token out; this one fails twice on the same account and gets back
    both tokens. -/
def failingTwice : List (Action ℕ) :=
  [.otherConsumes 0 (0,"codex"),.consume 1 0 "codex" none true,.send,.outcome 2 .networkError,.send,.outcome 3 .networkError]

def conservative : Config := { failoverMode := .conservative }

theorem second_refund_is_of_another : ¬ ∀ (config : Config) (buckets : Buckets (QuotaKey ℕ)) (actions : List (Action ℕ)),
    Runs.Legal (step config) enabled ⟨buckets,none,[],0⟩ actions → Runs.Along (step config) Balanced ⟨buckets,none,[],0⟩ actions := by
  intro balanced
  have last := (balanced conservative (fun _ => none) failingTwice (by decide +kernel)).last
  have given : (failingTwice.foldl (step conservative) ⟨fun _ => none,none,[],0⟩).attempts.map Attempt.refunds = [2] := by decide +kernel
  have member : 2 ∈ (failingTwice.foldl (step conservative) ⟨fun _ => none,none,[],0⟩).attempts.map Attempt.refunds := by
    rw [given]
    exact mem_singleton.mpr rfl
  obtain ⟨attempt,among,twice⟩ := mem_map.mp member
  have once := (last.fair attempt among).once
  omega

end CodexMultiAuth.PluginHost
