import CodexMultiAuth.RateLimits

/-!
Runs of a manager over its local limits: loading, recorded rejections, observed
selections, tests and clears, with a clock that never goes back. Beside the
manager stands a record of the rejections and of the selections that were
applied; no step reads it.
-/
namespace CodexMultiAuth.SelectionLimits

/-- The generation of a stored document, if it is a safe natural number. -/
def storedGeneration (stored : Option AccountStorageV3) : Nat :=
  match stored.bind (fun stored => Record.number stored.fields "affinityGeneration") with
  | some raw => if raw.den = 1 ∧ 0 ≤ raw ∧ raw ≤ 9007199254740991 then raw.num.toNat else 0
  | none => 0

/-- The part of a loaded account that limits concern; `readKey` reads the text of a key. -/
def limitedAccount (readKey : String → QuotaKey) (account : ManagedAccount) : LimitedAccount where
  enabled := account.enabled
  authInvalidatedAt := account.authInvalidatedAt
  coolingDownUntil := account.coolingDownUntil
  cooldownReason := account.cooldownReason
  rateLimitResetTimes := account.rateLimitResetTimes.map (fun entry => (readKey entry.1,entry.2))

/-- What a manager is constructed from. -/
structure Source where
  authFallback : Option OAuthAuthDetails
  stored : Option AccountStorageV3

/-- The constructor of `AccountManager`, as far as limits go. -/
def load [Host] (readKey : String → QuotaKey) (now : ℚ) (source : Source) : LimitManager :=
  let pool := newAccountPool now source.authFallback source.stored
  { accounts := pool.accounts.map (fun account => { account := limitedAccount readKey account })
    pinnedAccountIndex := pool.pinnedAccountIndex
    affinityGeneration := storedGeneration source.stored }

/-- A deadline that was loaded, or that a rejection set. -/
structure Entry where
  position : Nat
  key : QuotaKey
  deadline : ℚ
  /-- When it was loaded or recorded, and the generation observed by then. -/
  time : ℚ
  generation : Nat
  deriving DecidableEq

structure State where
  manager : LimitManager
  clock : ℚ
  rejectionSequence : Nat
  entries : List Entry
  /-- What was recorded while the selection could not be read, until a readable
      rejection of the account or a selection of it comes. -/
  unordered : List Entry
  /-- The generations that were applied; a load that goes back to an older one starts anew. -/
  applied : List Nat

/-- A 429 for the account at a position. -/
structure Rejected where
  position : Nat
  retryAfterMs : ℚ
  family : ModelFamily
  reason : RateLimitReason
  model : Option String := none
  scopeId : Option String := none
  observation : Option Observed := none

def Rejected.keys (rejected : Rejected) : List QuotaKey :=
  (limitedKeys rejected.family rejected.reason rejected.model).map (deadlineKey rejected.observation)

def Rejected.resetAt (rejected : Rejected) (now : ℚ) : ℚ := now + retryTime rejected.retryAfterMs

def Rejected.entries (rejected : Rejected) (now : ℚ) (generation : Nat) : List Entry :=
  rejected.keys.map (fun key => ⟨rejected.position,key,rejected.resetAt now,now,generation⟩)

def loadedEntries (manager : LimitManager) (now : ℚ) : List Entry :=
  manager.accounts.zipIdx.flatMap (fun entry =>
    entry.1.account.rateLimitResetTimes.map (fun limit => ⟨entry.2,limit.1,limit.2,now,manager.affinityGeneration⟩))

inductive Action where
  /-- `markRateLimitedWithReason`; without a selection where it cannot be read. -/
  | mark (rejected : Rejected) (selection : Option SelectionMeta) (now : ℚ)
  | select (selection : SelectionMeta) (now : ℚ)
  | clear (now : ℚ)
  | test (position : Nat) (now : ℚ)
  | reload (source : Source) (now : ℚ)

def Action.now : Action → ℚ
  | .mark _ _ now => now
  | .select _ now => now
  | .clear now => now
  | .test _ now => now
  | .reload _ now => now

def observe (s : State) (now : ℚ) (selection : SelectionMeta) : State :=
  { s with
    manager := s.manager.applyManualSelection now selection
    clock := now
    unordered := if selection.affinityGeneration ≤ s.manager.affinityGeneration then s.unordered
      else s.unordered.filter (fun entry => decide (selection.pinnedAccountIndex ≠ some entry.position))
    applied := if selection.affinityGeneration ≤ s.manager.affinityGeneration then s.applied
      else s.applied ++ [selection.affinityGeneration] }

def mark (s : State) (rejected : Rejected) (selection : Option SelectionMeta) (now : ℚ) : State :=
  let observed := match selection with
    | some selection => observe s now selection
    | none => s
  let entries := rejected.entries now observed.manager.affinityGeneration
  { observed with
    manager := s.manager.markRateLimitedWithReason s.rejectionSequence rejected.position selection rejected.retryAfterMs rejected.family
      rejected.reason rejected.model rejected.scopeId rejected.observation now
    clock := now
    rejectionSequence := s.rejectionSequence + rejected.keys.length
    entries := observed.entries ++ entries
    unordered := match selection with
      | some _ => observed.unordered.filter (fun entry => decide (entry.position ≠ rejected.position))
      | none => observed.unordered ++ entries }

variable [Host] (readKey : String → QuotaKey)

def reload (s : State) (source : Source) (now : ℚ) : State :=
  let manager := load readKey now source
  { manager := manager
    clock := now
    rejectionSequence := s.rejectionSequence
    entries := loadedEntries manager now
    unordered := []
    applied := if s.manager.affinityGeneration ≤ manager.affinityGeneration then s.applied else [] }

def step (s : State) : Action → State
  | .mark rejected selection now => mark s rejected selection now
  | .select selection now => observe s now selection
  | .clear now => { s with manager := s.manager.clearAccountTransientState,clock := now }
  | .test position now =>
    { s with
      manager := { s.manager with accounts := s.manager.accounts.modify position (fun tracked =>
        { tracked with account := clearExpiredRateLimits now tracked.account }) }
      clock := now }
  | .reload source now => reload readKey s source now

/-- The clock does not go back, and a rejection is of one of the manager's accounts. -/
def Enabled (s : State) (action : Action) : Prop :=
  s.clock ≤ action.now ∧
    match action with
    | .mark rejected _ _ => rejected.position < s.manager.accounts.length
    | _ => True

/-- A rejection under an unreadable selection gives no older rejection its own date:
    what it carries over from the account's replayable entry it covers itself. -/
def Undated (s : State) : Action → Prop
  | .mark rejected none now =>
    ∀ tracked, s.manager.accounts[rejected.position]? = some tracked → ∀ pending, replayable tracked.unsequenced now = some pending →
      ∀ key deadline, pending.limits.find key = some deadline → key ∈ rejected.keys ∧ deadline ≤ rejected.resetAt now
  | _ => True

/-- A manager that was just constructed; times count from the epoch. -/
structure Start (s : State) : Prop where
  loaded : ∃ source, s.manager = load readKey s.clock source
  clock : 0 ≤ s.clock
  entries : s.entries = loadedEntries s.manager s.clock
  unordered : s.unordered = []
  applied : s.applied = []

end CodexMultiAuth.SelectionLimits
