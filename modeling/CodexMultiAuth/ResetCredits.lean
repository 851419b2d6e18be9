import CodexMultiAuth.Identity
import CodexMultiAuth.LockedFile
import Mathlib.Algebra.Order.Ring.Rat

/-!
The service that redeems reset credits, as programs over the state file. What the
backend and the clock answer, and whether an await settles at all, is left open.
-/
namespace CodexMultiAuth.ResetCredits

structure ResetTarget where
  key : String
  accountId : String
  deriving DecidableEq

/-- A routing observation may invalidate a healthy check, never authorize spending. -/
structure ResetExhaustionEvidence extends ResetTarget where
  observedAt : ℚ

/-- A field that is absent, null or a value. -/
structure ResetCreditDetail where
  expiresAt : Option (Option ℚ)
  title : Option (Option String)

structure Window where
  usedPercent : Option ℚ := none
  resetsAt : Option ℚ := none
  windowDurationMins : Option ℚ := none

structure ResetSnapshot where
  updatedAt : ℚ
  availableCount : Option Nat
  credits : Option (List ResetCreditDetail)
  ordinaryUsageAllowed : Option Bool
  planType : Option String
  primary : Window
  secondary : Window

inductive ResetOutcome where
  | reset
  | nothingToReset
  | noCredit
  | alreadyRedeemed
  deriving DecidableEq

structure Receipt where
  key : String
  redeemedAt : ℚ
  outcome : ResetOutcome
  automatic : Bool
  generation : Option Nat
  deriving DecidableEq

structure Pending where
  key : String
  idempotencyKey : String
  creditId : Option String
  deriving DecidableEq

inductive Policy where
  | manual
  | lastResort
  deriving DecidableEq

structure State where
  version : Nat := 1
  policy : Policy := .manual
  snapshots : OrderedMap String ResetSnapshot := []
  pending : Option Pending := none
  lastAutomaticCheckAt : Option ℚ := none
  lastRedemptionAt : Option ℚ := none
  lastRedemption : Option Receipt := none
  redemptionGeneration : Option Nat := none
  redemptions : Option (OrderedMap String Receipt) := none

/-- What a read of the backend gives, its credit rows as they come. -/
structure Reading where
  accountId : String
  ordinaryUsageAllowed : Option Bool
  rateLimitResetCredits : Option (Nat × Json)
  planType : Option String
  primary : Option Window
  secondary : Option Window

def isCreditId (id : String) : Bool := decide (trim id ≠ "")

def creditDetail : Json → Option ResetCreditDetail
  | .obj fields => some
    { expiresAt :=
        match OrderedMap.find fields "expiresAt" with
        | some .null => some none
        | some (.num expiresAt) => some (some expiresAt)
        | _ => none
      title :=
        match OrderedMap.find fields "title" with
        | some .null => some none
        | some (.str title) => some (some title)
        | _ => none }
  | _ => none

/-- The rows as they are displayed; a row that is no object makes all unknown. -/
def creditDetails : Json → Option (List ResetCreditDetail)
  | .arr rows => rows.mapM creditDetail
  | _ => none

structure ResetReading where
  snapshot : ResetSnapshot
  credits : List Json

def parseResetReading (parsed : Reading) (accountId : String) (now : ℚ) : Option ResetReading :=
  if parsed.accountId ≠ accountId then none
  else
    some
      { snapshot :=
          { updatedAt := now
            availableCount := parsed.rateLimitResetCredits.map Prod.fst
            credits := parsed.rateLimitResetCredits.bind (fun credits => creditDetails credits.2)
            ordinaryUsageAllowed := parsed.ordinaryUsageAllowed
            planType := parsed.planType
            primary := parsed.primary.getD {}
            secondary := parsed.secondary.getD {} }
        credits :=
          match parsed.rateLimitResetCredits.map Prod.snd with
          | some (.arr rows) => rows
          | _ => [] }

def MAX_SAFE_INTEGER : Nat := 9007199254740991

def rowId : Json → Option String
  | .obj fields =>
    match OrderedMap.find fields "id" with
    | some (.str id) => if isCreditId id then some id else none
    | _ => none
  | _ => none

structure Credit where
  id : String
  /-- When it expires, in seconds; one that does not expire has no time. -/
  expiresAt : Option ℚ

def parseCredit : Json → Option Credit
  | .obj fields =>
    (rowId (.obj fields)).bind (fun id =>
      if OrderedMap.find fields "status" = some (.str "available") ∧ OrderedMap.find fields "resetType" = some (.str "codexRateLimits") then
        match OrderedMap.find fields "expiresAt" with
        | none => some ⟨id,none⟩
        | some .null => some ⟨id,none⟩
        | some (.num expiresAt) => if expiresAt.den = 1 ∧ 0 ≤ expiresAt ∧ expiresAt ≤ MAX_SAFE_INTEGER then some ⟨id,some expiresAt⟩ else none
        | some _ => none
      else none)
  | _ => none

/-- An earlier expiry; what does not expire comes last. -/
def expiresBefore : Option ℚ → Option ℚ → Bool
  | some a,some b => decide (a < b)
  | some _,none => true
  | none,_ => false

structure Best where
  creditId : Option String := none
  expiresAt : Option ℚ := none

/-- The credit that expires first among those that are named once. -/
def firstExpiringCredit (rows : List Json) (now : ℚ) : Best :=
  rows.foldl (fun best row =>
    match parseCredit row with
    | none => best
    | some credit =>
      if (rows.filterMap rowId).count credit.id ≠ 1 then best
      else if credit.expiresAt.any (fun expiresAt => decide (expiresAt ≤ now / 1000)) then best
      else if best.creditId.isNone || expiresBefore credit.expiresAt best.expiresAt then ⟨some credit.id,credit.expiresAt⟩
      else best) {}

def isResetSubscription (snapshot : ResetSnapshot) : Bool :=
  ["plus","pro","promax","prolite","team","business","self_serve_business_prolite","enterprise","edu","edu_plus","edu_pro"].contains
    (snapshot.planType.getD "")

def FUTURE_SKEW_MS : ℚ := 300000

def within (then_ : Option ℚ) (now windowMs : ℚ) : Bool :=
  match then_ with
  | none => false
  | some time => decide (time ≤ now + FUTURE_SKEW_MS) && decide (now - time < windowMs)

def validExhaustionEvidence (targets : List ResetTarget) (proof : ResetExhaustionEvidence) (now : ℚ) : Bool :=
  targets.contains proof.toResetTarget && decide (proof.observedAt ≤ now) && decide (now - proof.observedAt ≤ 60000)

def hasNewExhaustion (state : State) (targets : List ResetTarget) (evidence : List ResetExhaustionEvidence) (now : ℚ) : Bool :=
  evidence.any (fun proof =>
    validExhaustionEvidence targets proof now && state.lastAutomaticCheckAt.any (fun checkedAt => decide (checkedAt < proof.observedAt)) &&
      (state.snapshots.find proof.key).any (fun snapshot =>
        snapshot.ordinaryUsageAllowed == some true && decide (snapshot.updatedAt ≤ now) && decide (snapshot.updatedAt < proof.observedAt)))

/-- The check that the automatic calls of a process share. -/
structure AutomaticCheck where
  id : Nat
  targets : List ResetTarget
  accepting : Bool
  evidence : OrderedMap ResetTarget ResetExhaustionEvidence
  version : Nat

/-- `automaticChecks` of a process: the check for this file and the number for others. -/
structure Memory where
  check : Option AutomaticCheck := none
  others : Nat := 0
  nextId : Nat := 0

def MAX_AUTOMATIC_CHECK_PASSES : Nat := 3

def mergeExhaustionEvidence (check : AutomaticCheck) (targets : List ResetTarget) (evidence : List ResetExhaustionEvidence) (now : ℚ) : AutomaticCheck :=
  evidence.foldl (fun check proof =>
    if !validExhaustionEvidence targets proof now then check
    else if (check.evidence.find proof.toResetTarget).any (fun previous => decide (proof.observedAt ≤ previous.observedAt)) then check
    else { check with evidence := check.evidence.put proof.toResetTarget proof,version := check.version + 1 }) check

inductive Request where
  | now
  | uuid
  | read (target : ResetTarget) (creditDetails : Bool)
  | consume (target : ResetTarget) (idempotencyKey : String) (creditId : Option String)

/-- What settles a request; an answer of another kind does not pass its schema. -/
inductive Answer where
  | time (now : ℚ)
  | uuid (id : String)
  | reading (reading : Reading)
  | outcome (outcome : ResetOutcome)

abbrev Async (α : Type) : Type := LockedFile.Await State Memory Request Answer α

open LockedFile (Await)

def now : Async ℚ := do
  match ← Await.ask .now with
  | .time time => pure time
  | _ => Await.throw

def randomUUID : Async String := do
  match ← Await.ask .uuid with
  | .uuid id => pure id
  | _ => Await.throw

def status : Async State := do
  match ← Await.load with
  | none => pure {}
  | some state => pure state

/-- The version that a state is saved under. -/
def versioned (state : State) : State :=
  { state with version := if state.redemptions.isSome then 3 else if (state.pending.bind Pending.creditId).isNone then 1 else 2 }

/-- The schema bounds the one count that grows. -/
def storable (state : State) : Bool := decide (state.redemptionGeneration.getD 0 ≤ MAX_SAFE_INTEGER)

def save (state : State) : Async Unit := if storable state then Await.store (versioned state) else Await.throw

def setPolicy (policy : Policy) : Async Unit :=
  Await.withLock (do
    let state ← status
    save { state with policy := policy })

def readDetails (target : ResetTarget) (creditDetails : Bool) : Async ResetReading := do
  match ← Await.ask (.read target creditDetails) with
  | .reading reading =>
    let time ← now
    Await.orThrow (parseResetReading reading target.accountId time)
  | _ => Await.throw

def read (target : ResetTarget) : Async ResetSnapshot := do
  let row ← readDetails target false
  pure row.snapshot

/-- `mapWithConcurrency` of reads that may fail; their order is not seen. -/
def readEach : List ResetTarget → Async (List (Option ResetReading))
  | [] => pure []
  | target :: targets => do
    let row ← Await.attempt (readDetails target true)
    let rows ← readEach targets
    pure (row :: rows)

/-- The snapshots of a refresh, unless a later one is there. -/
def keepLatest (now : ℚ) (snapshots : OrderedMap String ResetSnapshot) (rows : List (String × ResetSnapshot)) : OrderedMap String ResetSnapshot :=
  rows.foldl (fun snapshots row =>
    match snapshots.find row.1 with
    | none => snapshots.put row.1 row.2
    | some old =>
      if old.updatedAt ≤ row.2.updatedAt ∨ now + FUTURE_SKEW_MS < old.updatedAt then snapshots.put row.1 row.2 else snapshots) snapshots

/-- The rows that were read, under their keys. -/
def keyed (targets : List ResetTarget) (rows : List (Option ResetReading)) : List (String × ResetSnapshot) :=
  (targets.zip rows).filterMap (fun pair => pair.2.map (fun row => (pair.1.key,row.snapshot)))

def refresh (targets : List ResetTarget) : Async (List (String × ResetSnapshot)) := do
  let rows ← readEach targets
  Await.withLock (do
    let state ← status
    let time ← now
    save { state with snapshots := keepLatest time state.snapshots (keyed targets rows) }
    pure (keyed targets rows))

def settles (outcome : ResetOutcome) : Bool := decide (outcome = .reset ∨ outcome = .alreadyRedeemed)

/-- The receipts by key, with the one from before there were any. -/
def receiptsOf (state : State) : OrderedMap String Receipt :=
  let receipts := state.redemptions.getD []
  match state.lastRedemption with
  | none => receipts
  | some legacy => if (receipts.find legacy.key).isNone && settles legacy.outcome then receipts.put legacy.key legacy else receipts

def nextGeneration (state : State) : Nat :=
  1 + (receiptsOf state).foldl (fun maximum entry => max maximum (entry.2.generation.getD 0)) (state.redemptionGeneration.getD 0)

/-- The state with a redemption recorded and nothing pending. -/
def recordRedemption (state : State) (receipt : Receipt) : State :=
  { state with
    redemptions := some (if settles receipt.outcome then (receiptsOf state).put receipt.key receipt else receiptsOf state)
    redemptionGeneration := receipt.generation
    lastRedemption := some receipt
    pending := none }

/-- The pending record of the state, or a new one. -/
def pendingFor (state : State) (target : ResetTarget) (creditId : Option String) : Async Pending :=
  match state.pending with
  | some pending => pure pending
  | none => do
    let idempotencyKey ← randomUUID
    pure ⟨target.key,idempotencyKey,creditId⟩

def consume (target : ResetTarget) (pending : Pending) : Async ResetOutcome := do
  match ← Await.ask (.consume target pending.idempotencyKey pending.creditId) with
  | .outcome outcome => pure outcome
  | _ => Await.throw

def consumeLocked (state : State) (target : ResetTarget) (automatic : Bool) (creditId : Option String) : Async ResetOutcome :=
  if state.pending.any (fun pending => decide (pending.key ≠ target.key)) then Await.throw
  else do
    let pending ← pendingFor state target creditId
    let startedAt ← now
    let begun := { state with pending := some pending,lastRedemptionAt := some startedAt }
    save begun
    let outcome ← consume target pending
    let snapshot ← read target
    let seen := { begun with snapshots := begun.snapshots.put target.key snapshot }
    let time ← now
    save (recordRedemption seen ⟨target.key,time,outcome,automatic,some (nextGeneration seen)⟩)
    pure outcome

/-- What `redeem` does under the lock. -/
def redeemLocked (target : ResetTarget) : Async ResetOutcome := do
  let state ← status
  match state.pending with
  | some _ => consumeLocked state target false none
  | none =>
    let time ← now
    if within state.lastRedemptionAt time 10000 then Await.throw
    else
      let snapshot ← read target
      let seen := { state with snapshots := state.snapshots.put target.key snapshot }
      save seen
      match snapshot.availableCount with
      | none => Await.throw
      | some 0 => pure .noCredit
      | some (_ + 1) => consumeLocked seen target false none

def redeem (target : ResetTarget) : Async ResetOutcome := Await.withLock (redeemLocked target)

/-! ### Automatic redemption -/

/-- Whether a used up window resets within a minute. -/
def resetsSoon : List Window → Async Bool
  | [] => pure false
  | window :: windows =>
    match window.usedPercent,window.resetsAt with
    | some usedPercent,some resetsAt =>
      if usedPercent = 100 then do
        let time ← now
        if resetsAt * 1000 ≤ time + 60000 then pure true else resetsSoon windows
      else resetsSoon windows
    | _,_ => resetsSoon windows

structure Choice where
  target : ResetTarget
  best : Best

/-- The target with credits whose credit expires first, the earlier one on a tie. -/
def chooseTarget (chosen : Option Choice) : List (ResetTarget × Option ResetReading) → Async (Option Choice)
  | [] => pure chosen
  | (_,none) :: rest => chooseTarget chosen rest
  | (target,some row) :: rest =>
    if row.snapshot.availableCount.getD 0 = 0 then chooseTarget chosen rest
    else do
      let time ← now
      let credit := firstExpiringCredit row.credits time
      match chosen with
      | none => chooseTarget (some ⟨target,credit⟩) rest
      | some previous =>
        if expiresBefore credit.expiresAt previous.best.expiresAt then chooseTarget (some ⟨target,credit⟩) rest else chooseTarget chosen rest

/-- A fresh read of a subscription whose ordinary use is refused. -/
def isBlocked (row : Option ResetReading) : Bool :=
  row.any (fun row => isResetSubscription row.snapshot && (row.snapshot.ordinaryUsageAllowed == some false))

/-- What an automatic check does under the lock. -/
def automaticHold (targets : List ResetTarget) (evidence : List ResetExhaustionEvidence) : Async (Option (String × ResetOutcome)) := do
  let state ← status
  let time ← now
  if state.policy ≠ .lastResort ∨ state.pending.isSome ∨ within state.lastRedemptionAt time 300000 then pure none
  else if within state.lastAutomaticCheckAt time 60000 ∧ hasNewExhaustion state targets evidence time = false then pure none
  else
    let checked := { state with lastAutomaticCheckAt := some time }
    save checked
    let rows ← readEach targets
    let seen := { checked with snapshots := (keyed targets rows).foldl (fun snapshots row => snapshots.put row.1 row.2) checked.snapshots }
    save seen
    if rows.all isBlocked = false then pure none
    else
      let soon ← resetsSoon (rows.flatMap (fun row =>
        match row with
        | some row => [row.snapshot.primary,row.snapshot.secondary]
        | none => []))
      if soon then pure none
      else
        let chosen ← chooseTarget none (targets.zip rows)
        match chosen with
        | none => pure none
        | some choice =>
          let outcome ← consumeLocked seen choice.target true choice.best.creditId
          pure (some (choice.target.key,outcome))

def automaticLocked (targets : List ResetTarget) (evidence : List ResetExhaustionEvidence) : Async (Option (String × ResetOutcome)) :=
  if targets.isEmpty then pure none
  else do
    let state ← status
    if state.policy ≠ .lastResort then pure none else Await.withLock (automaticHold targets evidence)

def currentCheck (id : Nat) : Async AutomaticCheck := do
  let memory ← Await.update (fun memory => memory)
  Await.orThrow (memory.check.filter (fun check => check.id == id))

def automaticBatch (id : Nat) (targets : List ResetTarget) : Nat → Async (Option (String × ResetOutcome))
  | 0 => pure none
  | passes + 1 => do
    let before ← currentCheck id
    let result ← automaticLocked targets (before.evidence.map Prod.snd)
    let after ← currentCheck id
    if result.isSome ∨ after.version = before.version then pure result else automaticBatch id targets passes

inductive Admission where
  /-- A check for other targets is under way: nothing is done. -/
  | elsewhere
  /-- The check under way takes the evidence, and its result is shared. -/
  | joins
  | full
  | starts (id : Nat)

def admission (memory : Memory) (targets : List ResetTarget) : Admission :=
  match memory.check.filter AutomaticCheck.accepting with
  | some check => if check.targets = targets then .joins else .elsewhere
  | none => if 1000 ≤ memory.others + (if memory.check.isSome then 1 else 0) then .full else .starts memory.nextId

/-- `automaticChecks` once a call has been admitted. -/
def takeAdmission (targets : List ResetTarget) (evidence : List ResetExhaustionEvidence) (time : ℚ) (memory : Memory) : Memory :=
  match admission memory targets with
  | .elsewhere => memory
  | .full => memory
  | .joins => { memory with check := memory.check.map (fun check => mergeExhaustionEvidence check targets evidence time) }
  | .starts id =>
    { memory with check := some (mergeExhaustionEvidence ⟨id,targets,true,[],0⟩ targets evidence time),nextId := id + 1 }

/-- Ends the admission to a check. -/
def closeCheck (id : Nat) : Async Unit := do
  let _ ← Await.update (fun memory : Memory =>
    { memory with check := memory.check.map (fun check => if check.id = id then { check with accepting := false } else check) })
  pure ()

def deleteCheck (id : Nat) : Async Unit := do
  let _ ← Await.update (fun memory : Memory => { memory with check := memory.check.filter (fun check => check.id != id) })
  pure ()

/-- A call that joins a check shares its result and does nothing else. -/
def automatic (targets : List ResetTarget) (evidence : List ResetExhaustionEvidence) : Async (Option (String × ResetOutcome)) := do
  let time ← now
  let memory ← Await.update (takeAdmission targets evidence time)
  match admission memory targets with
  | .elsewhere => pure none
  | .joins => pure none
  | .full => pure none
  | .starts id => Await.ensure (Await.ensure (automaticBatch id targets MAX_AUTOMATIC_CHECK_PASSES) (closeCheck id)) (deleteCheck id)

inductive Call where
  | redeem (target : ResetTarget)
  | automatic (targets : List ResetTarget) (evidence : List ResetExhaustionEvidence)
  | refresh (targets : List ResetTarget)
  | setPolicy (policy : Policy)

def api : Call → LockedFile.Program State Memory Request Answer Unit
  | .redeem target => Await.forget (redeem target)
  | .automatic targets evidence => Await.forget (automatic targets evidence)
  | .refresh targets => Await.forget (refresh targets)
  | .setPolicy policy => Await.forget (setPolicy policy)

abbrev World : Type := LockedFile.World State Memory Request Answer Call

end CodexMultiAuth.ResetCredits
