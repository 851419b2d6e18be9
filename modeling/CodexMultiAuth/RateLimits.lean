import CodexMultiAuth.AccountPool

/-!
Local rate limits: the deadlines of an account by quota key, the history of its
rejections, and the manual selections that clear them. A key stands for its JSON
text. The part of an account that limits do not concern is left out.
-/
namespace CodexMultiAuth

inductive RateLimitReason where
  | quota
  | tokens
  | concurrent
  | unknown
  deriving DecidableEq

/-- The key of a deadline: of a quota, or of a quota within a workspace. -/
inductive QuotaKey where
  | quota (key : String)
  | workspace (workspaceId key : String)
  deriving DecidableEq

structure ObservationKey where
  scopeId : Option String
  quotaKey : String
  deriving DecidableEq

def getRateLimitObservationKey (quotaKey : String) (scopeId : Option String) : ObservationKey := ⟨scopeId,quotaKey⟩

/-- What a receipt without a generation is recognized by. -/
structure ReceiptIdentity where
  key : String
  redeemedAt : ℚ
  outcome : String
  automatic : Bool
  deriving DecidableEq

/-- The receipts that are known, by scope. -/
structure Receipts where
  resetReceiptGenerations : OrderedMap String Nat := []
  resetReceiptIdentities : OrderedMap String ReceiptIdentity := []

/-- The rejections of one observation key. -/
structure RateLimitObservation where
  revision : Nat
  observedAt : ℚ
  sequence : Nat
  reason : RateLimitReason
  receiptGenerations : OrderedMap String Nat
  receiptIdentities : OrderedMap String (List ReceiptIdentity)
  receiptReadFailed : Bool
  liftedByReset : Bool := false

structure LimitedAccount where
  enabled : Bool := true
  authInvalidatedAt : Option ℚ := none
  coolingDownUntil : Option ℚ := none
  cooldownReason : Option String := none
  rateLimitResetTimes : OrderedMap QuotaKey ℚ := []
  lastRateLimitReason : Option RateLimitReason := none
  rateLimitObservations : OrderedMap ObservationKey RateLimitObservation := []
  receipts : Receipts := {}

/-- What the caller of a recording knows of its request. -/
structure Observed where
  workspaceId : String
  receiptReadFailed : Bool := false
  /-- The receipts known when the rejected request was sent. -/
  receipts : Option Receipts := none

/-- The generations that a rejection knows: all of them, or those of its scope. -/
def knownGenerations (known : Receipts) : Option String → OrderedMap String Nat
  | none => known.resetReceiptGenerations
  | some scopeId => [(scopeId,(known.resetReceiptGenerations.find scopeId).getD 0)]

/-- Chronology only accumulates. -/
def raiseGenerations (generations : OrderedMap String Nat) (known : OrderedMap String Nat) : OrderedMap String Nat :=
  known.foldl (fun generations entry => generations.put entry.1 (max ((generations.find entry.1).getD 0) entry.2)) generations

def addIdentity (identities : OrderedMap String (List ReceiptIdentity)) (scope : String) (identity : ReceiptIdentity) :
    OrderedMap String (List ReceiptIdentity) :=
  if ((identities.find scope).getD []).contains identity then identities
  else identities.put scope ((identities.find scope).getD [] ++ [identity])

def recordRejection (account : LimitedAccount) (key : String) (scopeId : Option String) (observation : Option Observed) (observedAt : ℚ)
    (sequence : Nat) (reason : RateLimitReason) : LimitedAccount :=
  let observationKey := getRateLimitObservationKey key scopeId
  let previous := account.rateLimitObservations.find observationKey
  let known := (observation.bind Observed.receipts).getD account.receipts
  { account with
    rateLimitObservations := account.rateLimitObservations.put observationKey
      { revision := (previous.map RateLimitObservation.revision).getD 0 + 1
        observedAt := observedAt
        sequence := sequence
        reason := reason
        receiptGenerations := raiseGenerations ((previous.map RateLimitObservation.receiptGenerations).getD [])
          (knownGenerations known scopeId)
        receiptIdentities := known.resetReceiptIdentities.foldl (fun identities entry => addIdentity identities entry.1 entry.2)
          ((previous.map RateLimitObservation.receiptIdentities).getD [])
        receiptReadFailed := previous.any RateLimitObservation.receiptReadFailed || observation.any Observed.receiptReadFailed } }

def deadlineKey (observation : Option Observed) (key : String) : QuotaKey :=
  match observation with
  | some observed => .workspace observed.workspaceId key
  | none => .quota key

def raiseDeadline (limits : OrderedMap QuotaKey ℚ) (key : QuotaKey) (resetAt : ℚ) : OrderedMap QuotaKey ℚ :=
  limits.put key (max ((limits.find key).getD 0) resetAt)

/-- The quotas that a rejection limits: the family's, the model's, or both. -/
def limitedKeys (family : ModelFamily) (reason : RateLimitReason) (model : Option String) : List String :=
  let independentReserve := model = some LUNA_RESERVE_MODEL
  (if ¬ independentReserve ∧ (model.bind nonEmpty = none ∨ reason = .quota ∨ reason = .unknown) then [getQuotaKey family none] else []) ++
    (if (model.bind nonEmpty).isSome ∧ (independentReserve ∨ reason = .tokens ∨ reason = .concurrent ∨ reason = .unknown) then
      [getQuotaKey family model] else [])

/-- An account with the limits that its rejection adds, and the count of rejections. -/
structure Limiting where
  account : LimitedAccount
  newLimits : OrderedMap QuotaKey ℚ
  rejectionSequence : Nat

def limitKey (scopeId : Option String) (observation : Option Observed) (observedAt resetAt : ℚ) (reason : RateLimitReason)
    (limiting : Limiting) (key : String) : Limiting where
  account := recordRejection
    { limiting.account with
      rateLimitResetTimes := raiseDeadline limiting.account.rateLimitResetTimes (deadlineKey observation key) resetAt }
    key scopeId observation observedAt (limiting.rejectionSequence + 1) reason
  newLimits := raiseDeadline limiting.newLimits (deadlineKey observation key) resetAt
  rejectionSequence := limiting.rejectionSequence + 1

/-- A rejection is authoritative for an hour at most. -/
def retryTime (retryAfterMs : ℚ) : ℚ := min (max 0 retryAfterMs.floor) RATE_LIMIT_CACHE_TTL_MS

/-- The recording itself, after the selection was observed. -/
def recordLimits (account : LimitedAccount) (carried : OrderedMap QuotaKey ℚ) (rejectionSequence : Nat) (retryAfterMs : ℚ)
    (family : ModelFamily) (reason : RateLimitReason) (model scopeId : Option String) (observation : Option Observed) (observedAt : ℚ) :
    Limiting :=
  let recorded := (limitedKeys family reason model).foldl
    (limitKey scopeId observation observedAt (observedAt + retryTime retryAfterMs) reason) ⟨account,carried,rejectionSequence⟩
  { recorded with account := { recorded.account with lastRateLimitReason := some reason } }

def UNSEQUENCED_RATE_LIMIT_TTL_MS : ℚ := 30000

/-- Limits that were recorded while the selection was unreadable. -/
structure UnsequencedRateLimit where
  limits : OrderedMap QuotaKey ℚ
  reason : RateLimitReason
  recordedAtMs : ℚ

/-- An account of a manager, with its entry among the unsequenced limits. -/
structure TrackedAccount where
  account : LimitedAccount
  unsequenced : Option UnsequencedRateLimit := none

/-- The selection as the storage file has it. -/
structure SelectionMeta where
  pinnedAccountIndex : Option Nat
  affinityGeneration : Nat

/-- The part of a manager that limits and selections concern. -/
structure LimitManager where
  accounts : List TrackedAccount
  pinnedAccountIndex : Option Nat
  affinityGeneration : Nat

def replayable (pending : Option UnsequencedRateLimit) (now : ℚ) : Option UnsequencedRateLimit :=
  pending.filter (fun pending => decide (now - pending.recordedAtMs ≤ UNSEQUENCED_RATE_LIMIT_TTL_MS))

/-- The limits of the selected account are cleared, but for recent unsequenced ones. -/
def clearSelected (now : ℚ) (tracked : TrackedAccount) : TrackedAccount :=
  let replayed := replayable tracked.unsequenced now
  { account := { tracked.account with
      rateLimitResetTimes := (replayed.map UnsequencedRateLimit.limits).getD []
      lastRateLimitReason := replayed.map UnsequencedRateLimit.reason }
    unsequenced := none }

def LimitManager.applyManualSelection (manager : LimitManager) (now : ℚ) (selection : SelectionMeta) : LimitManager :=
  if selection.affinityGeneration ≤ manager.affinityGeneration then manager
  else
    { accounts := match selection.pinnedAccountIndex with
        | some index => manager.accounts.modify index (clearSelected now)
        | none => manager.accounts
      pinnedAccountIndex := selection.pinnedAccountIndex.filter (fun index => decide (index < manager.accounts.length))
      affinityGeneration := selection.affinityGeneration }

/-- Records a rejection for the account at a position; `none` for a selection that cannot be read. -/
def LimitManager.markRateLimitedWithReason (manager : LimitManager) (rejectionSequence position : Nat) (selection : Option SelectionMeta)
    (retryAfterMs : ℚ) (family : ModelFamily) (reason : RateLimitReason) (model scopeId : Option String) (observation : Option Observed)
    (now : ℚ) : LimitManager :=
  let observed := match selection with
    | some selection => manager.applyManualSelection now selection
    | none => manager
  { observed with
    accounts := observed.accounts.modify position (fun tracked =>
      let recorded := recordLimits tracked.account (((replayable tracked.unsequenced now).map UnsequencedRateLimit.limits).getD [])
        rejectionSequence retryAfterMs family reason model scopeId observation now
      { account := recorded.account
        unsequenced := match selection with
          | some _ => none
          | none => some { limits := recorded.newLimits,reason := reason,recordedAtMs := now } }) }

/-- `clearAccountTransientState`, as far as limits go. -/
def LimitManager.clearAccountTransientState (manager : LimitManager) : LimitManager :=
  { manager with accounts := manager.accounts.map (fun tracked =>
      { tracked with account := { tracked.account with
          coolingDownUntil := none,cooldownReason := none,rateLimitResetTimes := [],lastRateLimitReason := none } }) }

/-- Expired limits are dropped whenever an account is tested. -/
def clearExpiredRateLimits (now : ℚ) (account : LimitedAccount) : LimitedAccount :=
  { account with rateLimitResetTimes := account.rateLimitResetTimes.filter (fun entry => decide (now < entry.2)) }

end CodexMultiAuth
