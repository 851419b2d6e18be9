import Mathlib.Data.Rat.Floor
import CodexMultiAuth.OrderedMap

/-!
The scheduler that defers requests before a quota is used up. It keeps one snapshot a key,
tells from it how long to wait, and drops snapshots whose resets have all passed.
-/
namespace CodexMultiAuth.PreemptiveQuota

/-- Seven days. -/
def MAX_RATE_LIMIT_DELAY_MS : ℚ := 7 * 24 * 60 * 60 * 1000

/-- One hour. -/
def RATE_LIMIT_CACHE_TTL_MS : ℚ := 60 * 60000

structure QuotaSchedulerWindow where
  usedPercent : Option ℚ
  resetAtMs : Option ℚ
  deriving DecidableEq

structure QuotaSchedulerSnapshot where
  status : ℕ
  primary : QuotaSchedulerWindow
  secondary : QuotaSchedulerWindow
  updatedAt : ℚ
  deriving DecidableEq

inductive Reason where
  | rateLimit
  | quotaNearExhaustion
  deriving DecidableEq

structure QuotaDeferralDecision where
  defer_ : Bool
  waitMs : ℚ
  reason : Option Reason
  deriving DecidableEq

def proceed : QuotaDeferralDecision := ⟨false,0,none⟩

structure Settings where
  enabled : Bool
  primaryRemainingPercentThreshold : ℤ
  secondaryRemainingPercentThreshold : ℤ
  maxDeferralMs : ℤ
  primary_percent : 0 ≤ primaryRemainingPercentThreshold ∧ primaryRemainingPercentThreshold ≤ 100
  secondary_percent : 0 ≤ secondaryRemainingPercentThreshold ∧ secondaryRemainingPercentThreshold ≤ 100
  floor_deferral : 1000 ≤ maxDeferralMs

structure QuotaSchedulerOptions where
  enabled : Option Bool
  remainingPercentThresholdPrimary : Option ℚ
  remainingPercentThresholdSecondary : Option ℚ
  usedPercentThreshold : Option ℚ
  maxDeferralMs : Option ℚ

def clampInt (value : ℚ) (low high : ℤ) : ℤ := max low (min high ⌊value⌋)

theorem clampInt_bounds (value : ℚ) {low high : ℤ} (some_ : low ≤ high) : low ≤ clampInt value low high ∧ clampInt value low high ≤ high :=
  ⟨le_max_left _ _,max_le some_ (min_le_left _ _)⟩

def clampedOr (value : Option ℚ) (before : ℤ) : ℤ := (value.map fun value => clampInt value 0 100).getD before

theorem clampedOr_bounds (value : Option ℚ) {before : ℤ} (bounds : 0 ≤ before ∧ before ≤ 100) :
    0 ≤ clampedOr value before ∧ clampedOr value before ≤ 100 := by
  cases value with
  | none => exact bounds
  | some value => exact clampInt_bounds value (by decide)

/-- What remains where so much is used. -/
def derivedRemaining (usedPercentThreshold : Option ℚ) : Option ℚ := usedPercentThreshold.map fun used => 100 - (clampInt used 0 100 : ℚ)

def configure (settings : Settings) (options : QuotaSchedulerOptions) : Settings where
  enabled := options.enabled.getD settings.enabled
  primaryRemainingPercentThreshold := clampedOr options.remainingPercentThresholdPrimary
    (clampedOr (derivedRemaining options.usedPercentThreshold) settings.primaryRemainingPercentThreshold)
  secondaryRemainingPercentThreshold := clampedOr options.remainingPercentThresholdSecondary
    (clampedOr (derivedRemaining options.usedPercentThreshold) settings.secondaryRemainingPercentThreshold)
  maxDeferralMs := (options.maxDeferralMs.map fun value => max 1000 ⌊value⌋).getD settings.maxDeferralMs
  primary_percent := clampedOr_bounds _ (clampedOr_bounds _ settings.primary_percent)
  secondary_percent := clampedOr_bounds _ (clampedOr_bounds _ settings.secondary_percent)
  floor_deferral := by
    cases options.maxDeferralMs with
    | none => exact settings.floor_deferral
    | some value => exact le_max_left _ _

def defaults : Settings where
  enabled := true
  primaryRemainingPercentThreshold := 5
  secondaryRemainingPercentThreshold := 5
  maxDeferralMs := 2 * 60 * 60000
  primary_percent := by decide
  secondary_percent := by decide
  floor_deferral := by decide

/-- The reset wait of a coherent snapshot. -/
def trustedResetWaitMs (window : QuotaSchedulerWindow) (snapshot : QuotaSchedulerSnapshot) (now : ℚ) : Option ℚ :=
  match window.resetAtMs with
  | none => none
  | some resetAtMs =>
    if now < snapshot.updatedAt ∨ MAX_RATE_LIMIT_DELAY_MS < now - snapshot.updatedAt then none
    else if resetAtMs ≤ now then some 0
    else some (min (resetAtMs - now) MAX_RATE_LIMIT_DELAY_MS)

def quotaLeftPercentFromUsed (usedPercent : ℚ) : ℤ := max 0 (min 100 ⌊100 - usedPercent + 1 / 2⌋)

/-- Without a percentage, or used up. -/
def isRateLimitWindow (window : QuotaSchedulerWindow) : Bool :=
  match window.usedPercent with
  | none => true
  | some usedPercent => quotaLeftPercentFromUsed usedPercent = 0

/-- The waits until the resets ahead. -/
def waitCandidates (snapshot : QuotaSchedulerSnapshot) (now : ℚ) : List ℚ :=
  ((([snapshot.primary,snapshot.secondary].filter isRateLimitWindow).filterMap fun window => window.resetAtMs).filter fun value => now < value).map
    fun value => value - now

def longestWait (snapshot : QuotaSchedulerSnapshot) (now : ℚ) : ℚ := (waitCandidates snapshot now).foldl max 0

def nearExhausted (window : QuotaSchedulerWindow) (threshold : ℤ) : Bool :=
  match window.usedPercent with
  | none => false
  | some usedPercent => 100 - (threshold : ℚ) ≤ usedPercent

/-- The wait for a window that is nearly used up, at most the cap where no reset can be trusted. -/
def nearWait (settings : Settings) (snapshot : QuotaSchedulerSnapshot) (now : ℚ) (window : QuotaSchedulerWindow) (threshold : ℤ) : ℚ :=
  if nearExhausted window threshold ∧ snapshot.status ≠ 429 then (trustedResetWaitMs window snapshot now).getD settings.maxDeferralMs else 0

def nearExhaustedWait (settings : Settings) (snapshot : QuotaSchedulerSnapshot) (now : ℚ) : ℚ :=
  max (nearWait settings snapshot now snapshot.primary settings.primaryRemainingPercentThreshold)
    (nearWait settings snapshot now snapshot.secondary settings.secondaryRemainingPercentThreshold)

def cacheRemainingMs (snapshot : QuotaSchedulerSnapshot) (now : ℚ) : ℚ := snapshot.updatedAt + RATE_LIMIT_CACHE_TTL_MS - now

/-- The decision from a snapshot that is still cached. -/
def deferralOf (settings : Settings) (snapshot : QuotaSchedulerSnapshot) (now : ℚ) : QuotaDeferralDecision :=
  let bounded := min (min (longestWait snapshot now) settings.maxDeferralMs) (cacheRemainingMs snapshot now)
  if snapshot.status = 429 ∧ 0 < longestWait snapshot now ∧ 0 < bounded then ⟨true,bounded,some .rateLimit⟩
  else if 0 < nearExhaustedWait settings snapshot now then
    ⟨true,min (nearExhaustedWait settings snapshot now) (cacheRemainingMs snapshot now),some .quotaNearExhaustion⟩
  else proceed

/-- The reset of a window that was itself used up. -/
def existingPrimaryResetAtMs (existing : Option QuotaSchedulerSnapshot) : ℚ :=
  match existing with
  | none => 0
  | some existing => if isRateLimitWindow existing.primary then existing.primary.resetAtMs.getD 0 else 0

/-- The snapshot of a rate limit over what was there. -/
def rateLimited (existing : Option QuotaSchedulerSnapshot) (retryAfterMs : Option ℚ) (now : ℚ) : QuotaSchedulerSnapshot :=
  let waitMs : ℚ := ((retryAfterMs.map fun value => max 0 ⌊value⌋).getD 0 : ℤ)
  { status := 429
    primary := ⟨some 100,some (max (existingPrimaryResetAtMs existing) (now + waitMs))⟩
    secondary := (existing.map fun existing => existing.secondary).getD ⟨none,none⟩
    updatedAt := max ((existing.map fun existing => existing.updatedAt).getD 0) now }

def latestReset (snapshot : QuotaSchedulerSnapshot) : ℚ := max (snapshot.primary.resetAtMs.getD 0) (snapshot.secondary.resetAtMs.getD 0)

/-- All resets have passed. -/
def expired (now : ℚ) (snapshot : QuotaSchedulerSnapshot) : Bool := 0 < latestReset snapshot ∧ latestReset snapshot ≤ now

/-- One snapshot a key. -/
structure PreemptiveQuotaScheduler where
  snapshots : OrderedMap String QuotaSchedulerSnapshot
  distinct : snapshots.keys.Nodup
  lastPruneAt : ℚ

theorem nodup_filter {snapshots : OrderedMap String QuotaSchedulerSnapshot} (distinct : snapshots.keys.Nodup)
    (keeps : String × QuotaSchedulerSnapshot → Bool) : (OrderedMap.keys (snapshots.filter keeps)).Nodup :=
  distinct.sublist (List.filter_sublist.map _)

namespace PreemptiveQuotaScheduler

def empty : PreemptiveQuotaScheduler := ⟨[],List.nodup_nil,0⟩

def find (scheduler : PreemptiveQuotaScheduler) (key : String) : Option QuotaSchedulerSnapshot := scheduler.snapshots.find key

def set (scheduler : PreemptiveQuotaScheduler) (key : String) (snapshot : QuotaSchedulerSnapshot) : PreemptiveQuotaScheduler :=
  { scheduler with snapshots := scheduler.snapshots.put key snapshot,distinct := OrderedMap.nodup_put scheduler.distinct key snapshot }

def drop (scheduler : PreemptiveQuotaScheduler) (drops : String → Bool) : PreemptiveQuotaScheduler :=
  { scheduler with
    snapshots := scheduler.snapshots.filter fun entry => !drops entry.1
    distinct := nodup_filter scheduler.distinct _ }

/-- Drops what has expired, and tells how much it was. -/
def prune (scheduler : PreemptiveQuotaScheduler) (now : ℚ) : PreemptiveQuotaScheduler × ℕ :=
  ({ scheduler with
      snapshots := scheduler.snapshots.filter fun entry => !expired now entry.2
      distinct := nodup_filter scheduler.distinct _ },
    scheduler.snapshots.countP fun entry => expired now entry.2)

def maybePrune (scheduler : PreemptiveQuotaScheduler) (now : ℚ) : PreemptiveQuotaScheduler :=
  if now - scheduler.lastPruneAt < 60000 then scheduler else { (scheduler.prune now).1 with lastPruneAt := now }

/-- Prunes at the time of the snapshot, or at the clock's where it has none. -/
def update (scheduler : PreemptiveQuotaScheduler) (key : String) (snapshot : QuotaSchedulerSnapshot) (now : ℚ) : PreemptiveQuotaScheduler :=
  if key = "" then scheduler else (scheduler.maybePrune (if snapshot.updatedAt = 0 then now else snapshot.updatedAt)).set key snapshot

def markRateLimited (scheduler : PreemptiveQuotaScheduler) (key : String) (retryAfterMs : Option ℚ) (now : ℚ) : PreemptiveQuotaScheduler :=
  if key = "" then scheduler else scheduler.set key (rateLimited (scheduler.find key) retryAfterMs now)

def clear (scheduler : PreemptiveQuotaScheduler) (key : String) : PreemptiveQuotaScheduler := scheduler.drop fun other => other = key

def clearByPrefix (scheduler : PreemptiveQuotaScheduler) (start : String) : PreemptiveQuotaScheduler :=
  if start = "" then scheduler else scheduler.drop fun other => start.toList.isPrefixOf other.toList

def clearAll (scheduler : PreemptiveQuotaScheduler) : PreemptiveQuotaScheduler := scheduler.drop fun _ => true

/-- The answer from the snapshots as they are. -/
def answer (settings : Settings) (scheduler : PreemptiveQuotaScheduler) (key : String) (now : ℚ) : PreemptiveQuotaScheduler × QuotaDeferralDecision :=
  if settings.enabled then
    match scheduler.find key with
    | none => (scheduler,proceed)
    | some snapshot =>
      if cacheRemainingMs snapshot now ≤ 0 then (scheduler.clear key,proceed) else (scheduler,deferralOf settings snapshot now)
  else (scheduler,proceed)

def getDeferral (settings : Settings) (scheduler : PreemptiveQuotaScheduler) (key : String) (now : ℚ) :
    PreemptiveQuotaScheduler × QuotaDeferralDecision :=
  (scheduler.maybePrune now).answer settings key now

end PreemptiveQuotaScheduler

inductive Call where
  | update (key : String) (snapshot : QuotaSchedulerSnapshot)
  | markRateLimited (key : String) (retryAfterMs : Option ℚ)
  | prune
  | clear (key : String)
  | clearByPrefix (start : String)
  | clearAll
  | getDeferral (key : String)
  deriving DecidableEq

structure Answer where
  key : String
  now : ℚ
  decision : QuotaDeferralDecision
  deriving DecidableEq

open PreemptiveQuotaScheduler in
def step (settings : Settings) (scheduler : PreemptiveQuotaScheduler) (now : ℚ) : Call → PreemptiveQuotaScheduler × Option Answer
  | .update key snapshot => (scheduler.update key snapshot now,none)
  | .markRateLimited key retryAfterMs => (scheduler.markRateLimited key retryAfterMs now,none)
  | .prune => ((scheduler.prune now).1,none)
  | .clear key => (scheduler.clear key,none)
  | .clearByPrefix start => (scheduler.clearByPrefix start,none)
  | .clearAll => (scheduler.clearAll,none)
  | .getDeferral key => ((getDeferral settings scheduler key now).1,some ⟨key,now,(getDeferral settings scheduler key now).2⟩)

open PreemptiveQuotaScheduler in
def unprunedStep (settings : Settings) (scheduler : PreemptiveQuotaScheduler) (now : ℚ) : Call → PreemptiveQuotaScheduler × Option Answer
  | .update key snapshot => (if key = "" then scheduler else scheduler.set key snapshot,none)
  | .prune => (scheduler,none)
  | .getDeferral key => ((scheduler.answer settings key now).1,some ⟨key,now,(scheduler.answer settings key now).2⟩)
  | call => step settings scheduler now call

def runs (step : PreemptiveQuotaScheduler → ℚ → Call → PreemptiveQuotaScheduler × Option Answer) (scheduler : PreemptiveQuotaScheduler) :
    List (ℚ × Call) → PreemptiveQuotaScheduler
  | [] => scheduler
  | (now,call) :: calls => runs step (step scheduler now call).1 calls

def answers (step : PreemptiveQuotaScheduler → ℚ → Call → PreemptiveQuotaScheduler × Option Answer) (scheduler : PreemptiveQuotaScheduler) :
    List (ℚ × Call) → List Answer
  | [] => []
  | (now,call) :: calls => (step scheduler now call).2.toList ++ answers step (step scheduler now call).1 calls

/-- Calls by a clock that does not go back. -/
def Clocked (start : ℚ) (calls : List (ℚ × Call)) : Prop := (start :: calls.map Prod.fst).Pairwise (· ≤ ·)

/-- The calls that are no prunes. -/
def withoutPrunes (calls : List (ℚ × Call)) : List (ℚ × Call) := calls.filter fun call => call.2 ≠ .prune

end CodexMultiAuth.PreemptiveQuota
