import CodexMultiAuth.RefreshLease
import CodexMultiAuth.Identity

/-!
The queue of refreshes of one process. A refresh is a flight with a generation of its own: it
waits for the lease of its token, executes, and settles. Its entry is found by the token while
it is in flight, unless it waited for the lease so long that it was evicted. What happens
between two awaits of a flight is one step, so that calls and other flights may come in between.
-/
namespace CodexMultiAuth.RefreshQueue
open RefreshLease (TokenResult TokenFailure tokenFailureReasons)

def ACQUIRE_EVICTION_SLACK_MS : ℤ := 5000

def DEFAULT_WAIT_TIMEOUT_MS : ℤ := 35000

/-- How a queue was made, with the finite wait that its lease coordinator reports. -/
structure Config where
  maxEntryAgeMs : ℤ
  configuredWaitTimeoutMs : Option ℤ

inductive Stage where
  | acquire
  | refresh
  deriving DecidableEq

/-- An entry; its promise is that of the flight of its generation. -/
structure RefreshEntry where
  generation : ℕ
  startedAt : ℤ
  stage : Stage
  deriving DecidableEq

/-- Where a flight stands. -/
inductive Phase where
  | acquiring
  | executing
  | releasing (result : TokenResult)
  /-- It returned the promise of a newer flight. -/
  | joining (generation : ℕ)
  | settled (result : TokenResult)
  /-- The call that started it went on. -/
  | finished (result : TokenResult)
  deriving DecidableEq

structure Flight where
  token : String
  phase : Phase
  deriving DecidableEq

structure State where
  pending : OrderedMap String RefreshEntry := []
  tokenRotationMap : OrderedMap String String := []
  nextGeneration : ℕ := 0
  flights : OrderedMap ℕ Flight := []

/-- What `acquire` comes to. -/
inductive Lease where
  | threw
  | blocked
  | follower (result : Option TokenResult)
  | owner
  | bypass
  deriving DecidableEq

/-- How the race between the request and its timeout ends. -/
inductive Execution where
  | answered (result : TokenResult)
  | timedOut
  | aborted (message : Option String)
  | threw (message : Option String)

def failed (reason message : String) (known : reason ∈ tokenFailureReasons) : TokenResult :=
  .failed ⟨some reason,none,some message,fun _ member => Option.mem_some.mp member ▸ known⟩

def leaseFailed : TokenResult := failed "coordination_error" "Refresh lease acquisition failed." (by decide)

def leaseBlocked : TokenResult := failed "coordination_error" "Refresh blocked by lease coordination." (by decide)

/-- `executeRefresh`, of how its race ended. -/
def executeRefresh (config : Config) : Execution → TokenResult
  | .answered result => result
  | .timedOut => failed "unknown" ("Refresh timeout after " ++ toString (max 1000 config.maxEntryAgeMs) ++ "ms") (by decide)
  | .aborted message => failed "unknown" (message.getD "Refresh aborted") (by decide)
  | .threw message => failed "network_error" (message.getD "Unknown error during refresh") (by decide)

def cleanupRotationMapping (tokenRotationMap : OrderedMap String String) (token : String) : OrderedMap String String :=
  (tokenRotationMap.remove token).filter (fun entry => decide (entry.2 ≠ token))

def findOriginalToken (tokenRotationMap : OrderedMap String String) (newToken : String) : Option String :=
  (tokenRotationMap.find? (fun entry => decide (entry.2 = newToken))).map Prod.fst

def acquireEvictionAgeMs (config : Config) : ℤ :=
  max config.maxEntryAgeMs (config.configuredWaitTimeoutMs.getD DEFAULT_WAIT_TIMEOUT_MS + ACQUIRE_EVICTION_SLACK_MS)

def stuck (config : Config) (now : ℤ) (entry : RefreshEntry) : Bool :=
  decide (entry.stage = .acquire) && decide (acquireEvictionAgeMs config < now - entry.startedAt)

namespace State

/-- Entries that are stuck are dropped, with the rotations of their tokens. -/
def cleanup (config : Config) (now : ℤ) (s : State) : State :=
  let evicted := s.pending.filter (fun entry => stuck config now entry.2)
  { s with
    pending := s.pending.filter (fun entry => !stuck config now entry.2)
    tokenRotationMap := evicted.foldl (fun map entry => cleanupRotationMapping map entry.1) s.tokenRotationMap }

def setPhase (s : State) (generation : ℕ) (token : String) (phase : Phase) : State :=
  { s with flights := s.flights.put generation ⟨token,phase⟩ }

def outcome (s : State) (generation : ℕ) : Option TokenResult :=
  match s.flights.find generation with
  | some ⟨_,.settled result⟩ => some result
  | some ⟨_,.finished result⟩ => some result
  | _ => none

/-- The flight that a call finds, for its token or for the one its token was rotated from. -/
def inFlight (s : State) (refreshToken : String) : Option ℕ :=
  match s.pending.find refreshToken with
  | some existing => some existing.generation
  | none =>
    match ((findOriginalToken s.tokenRotationMap refreshToken).bind nonEmpty).bind (fun rotatedFrom => s.pending.find rotatedFrom) with
    | some originalEntry => some originalEntry.generation
    | none => none

def start (s : State) (refreshToken : String) (now : ℤ) : State :=
  let generation := s.nextGeneration + 1
  { s with
    nextGeneration := generation
    flights := s.flights.put generation ⟨refreshToken,.acquiring⟩
    pending := s.pending.put refreshToken ⟨generation,now,.acquire⟩ }

/-- The state after a call, and the flight that the call awaits. -/
def refresh (config : Config) (s : State) (refreshToken : String) (now : ℤ) : State × ℕ :=
  let s := s.cleanup config now
  match s.inFlight refreshToken with
  | some generation => (s,generation)
  | none => (s.start refreshToken now,s.nextGeneration + 1)

def getSupersedingPromise (s : State) (generation : ℕ) (refreshToken : String) : Option ℕ :=
  match s.pending.find refreshToken with
  | none => none
  | some current => if current.generation = generation then none else some current.generation

def markStage (s : State) (generation : ℕ) (refreshToken : String) (stage : Stage) (now : ℤ) : State :=
  match s.pending.find refreshToken with
  | none => s
  | some entry =>
    if entry.generation ≠ generation then s
    else { s with pending := s.pending.put refreshToken { entry with stage := stage,startedAt := now } }

/-- A flight hears of its lease. -/
def acquired (s : State) (generation : ℕ) (lease : Lease) (now : ℤ) : State :=
  match s.flights.find generation with
  | some ⟨token,.acquiring⟩ =>
    match lease with
    | .threw =>
      match s.getSupersedingPromise generation token with
      | some newer => s.setPhase generation token (.joining newer)
      | none => s.setPhase generation token (.settled leaseFailed)
    | .blocked => s.setPhase generation token (.settled leaseBlocked)
    | .follower none => s.setPhase generation token (.settled leaseBlocked)
    | .follower (some result) => s.setPhase generation token (.settled result)
    | .owner | .bypass =>
      match s.getSupersedingPromise generation token with
      | some newer => s.setPhase generation token (.joining newer)
      | none => (s.markStage generation token .refresh now).setPhase generation token .executing
  | _ => s

def rotate (s : State) (refreshToken : String) : TokenResult → State
  | .success tokens =>
    if tokens.refresh ≠ refreshToken then { s with tokenRotationMap := s.tokenRotationMap.put refreshToken tokens.refresh } else s
  | .failed _ => s

/-- `executeRefreshWithRotationTracking` returns. -/
def executed (s : State) (generation : ℕ) (result : TokenResult) : State :=
  match s.flights.find generation with
  | some ⟨token,.executing⟩ => (s.rotate token result).setPhase generation token (.releasing result)
  | _ => s

/-- The lease is released; what goes wrong there is only logged. -/
def released (s : State) (generation : ℕ) : State :=
  match s.flights.find generation with
  | some ⟨token,.releasing result⟩ => s.setPhase generation token (.settled result)
  | _ => s

/-- The flight that was joined has settled. -/
def joined (s : State) (generation : ℕ) : State :=
  match s.flights.find generation with
  | some ⟨token,.joining newer⟩ =>
    match s.outcome newer with
    | some result => s.setPhase generation token (.settled result)
    | none => s
  | _ => s

/-- The call that started a flight goes on after it has settled. -/
def finish (s : State) (generation : ℕ) : State :=
  match s.flights.find generation with
  | some ⟨token,.settled result⟩ =>
    let s := s.setPhase generation token (.finished result)
    let own :=
      match s.pending.find token with
      | none => true
      | some entry => decide (entry.generation = generation)
    if own then { s with pending := s.pending.remove token,tokenRotationMap := cleanupRotationMapping s.tokenRotationMap token } else s
  | _ => s

end State

inductive Action where
  | refresh (refreshToken : String) (now : ℤ)
  | acquired (generation : ℕ) (lease : Lease) (now : ℤ)
  | executed (generation : ℕ) (execution : Execution)
  | released (generation : ℕ)
  | joined (generation : ℕ)
  | finish (generation : ℕ)

/-- The flight whose step an action is. -/
def Action.flight : Action → Option ℕ
  | .refresh _ _ => none
  | .acquired generation _ _ => some generation
  | .executed generation _ => some generation
  | .released generation => some generation
  | .joined generation => some generation
  | .finish generation => some generation

section
variable (config : Config)

def step (s : State) : Action → State
  | .refresh refreshToken now => (s.refresh config refreshToken now).1
  | .acquired generation lease now => s.acquired generation lease now
  | .executed generation execution => s.executed generation (executeRefresh config execution)
  | .released generation => s.released generation
  | .joined generation => s.joined generation
  | .finish generation => s.finish generation

end

end CodexMultiAuth.RefreshQueue
