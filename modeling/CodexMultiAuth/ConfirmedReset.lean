import CodexMultiAuth.RateLimits

/-!
Confirmed quota resets: a receipt of a redemption lets an account's family limit
be lifted once a fresh read permits it. Calls of `reconcile` wait for a read of
the receipts and for a read of the permission; between the waits a call runs at
once. The quota cache, the scheduler and the token buckets are seen only through
what they answer. Rejections are recorded beside the accounts as they come and as
a reset lifts them; no step reads that record.
-/
namespace CodexMultiAuth.ConfirmedReset

structure Receipt where
  key : String
  redeemedAt : ℚ := 0
  outcome : String := "reset"
  automatic : Bool := false
  generation : Option Nat := none
  deriving DecidableEq

def resetReceiptIdentity (receipt : Receipt) : ReceiptIdentity where
  key := receipt.key
  redeemedAt := receipt.redeemedAt
  outcome := receipt.outcome
  automatic := receipt.automatic

structure ResetState where
  pendingKey : Option String := none
  lastRedemption : Option Receipt := none
  redemptions : OrderedMap String Receipt := []

def receiptFor (state : ResetState) (key : String) : Option Receipt :=
  (state.redemptions.find key).or (state.lastRedemption.filter (fun receipt => receipt.key == key))

/-- A read of the receipts, and the count of rejections when it began. -/
structure ReceiptRead where
  state : ResetState
  sequence : Nat

/-- What the receipt of a key adds to a rejection that knew of no receipts. -/
def settleReceipt (state : ResetState) (rejection : RateLimitObservation) (key : String) : RateLimitObservation :=
  match receiptFor state key with
  | none => rejection
  | some receipt =>
    match receipt.generation with
    | some generation => { rejection with receiptGenerations := raiseGenerations rejection.receiptGenerations [(key,generation)] }
    | none =>
      { rejection with receiptIdentities := addIdentity rejection.receiptIdentities key (resetReceiptIdentity receipt) }

def settleRejection (state : ResetState) (readSequence : Nat) (rejection : RateLimitObservation) : RateLimitObservation :=
  if rejection.receiptReadFailed = false ∨ readSequence < rejection.sequence then rejection
  else
    let keys := (state.redemptions.keys ++ (state.lastRedemption.map Receipt.key).toList).eraseDups
    { keys.foldl (settleReceipt state) rejection with receiptReadFailed := false }

def settleReceiptBaselines (account : LimitedAccount) (state : ResetState) (readSequence : Nat) : LimitedAccount :=
  { account with
    rateLimitObservations := account.rateLimitObservations.map (fun entry => (entry.1,settleRejection state readSequence entry.2)) }

/-- `observeResetGenerations` of a request: the receipt of a scope becomes known to the account. -/
def observeReceipt (account : LimitedAccount) (scopeId : String) (receipt : Receipt) : LimitedAccount :=
  match receipt.generation with
  | some generation =>
    { account with receipts := { account.receipts with
        resetReceiptGenerations := raiseGenerations account.receipts.resetReceiptGenerations [(scopeId,generation)] } }
  | none =>
    { account with receipts := { account.receipts with
        resetReceiptIdentities := account.receipts.resetReceiptIdentities.put scopeId (resetReceiptIdentity receipt) } }

/-! ### The calls -/

structure Scope where
  id : String
  accountId : String

/-- What a call of `reconcile` is about. -/
structure Request (Account : Type) where
  account : Account
  scope : Scope
  model : String
  family : ModelFamily
  manager : Nat

/-- What a call finds around it at one moment. -/
structure Moment where
  now : ℚ
  isCurrent : Bool := true
  routable : Bool := true
  hasQuotaDeferral : Bool := false
  hasCachedQuotaBlock : Bool := false
  /-- The call uses the admission bucket, and it is empty. -/
  bucketEmpty : Bool := false

/-- What the permission read answers. -/
structure ResetSnapshot where
  updatedAt : ℚ
  ordinaryUsageAllowed : Option Bool

structure Operation (Account Call : Type) where
  identity : ReceiptIdentity
  generation : Option Nat
  startedAt : ℚ
  manager : Nat
  account : Account
  failures : Nat
  retryAfter : Option ℚ := none
  judgedRevision : Option (Nat × Nat) := none
  owner : Call

/-- Where a call is in `reconcile`. -/
inductive Phase (Call : Type) where
  | created
  | readingReceipts
  | sharing (owner : Call)
  /-- `startedSequence` is the count of rejections at that moment; no step reads it. -/
  | readingPermission (receipt : Receipt) (startedRevision : Nat × Nat) (startedAt : ℚ) (startedSequence : Nat)
  | done (recovered : Bool)
  deriving DecidableEq

/-- A rejection as it was recorded. -/
structure Rejection (Account : Type) where
  account : Account
  quotaKey : String
  scopeId : Option String
  deadline : QuotaKey
  /-- The receipt generations that it was recorded with. -/
  known : OrderedMap String Nat
  sequence : Nat
  deriving DecidableEq

structure State (Account Call : Type) where
  accounts : Account → LimitedAccount
  rejectionSequence : Nat
  operations : OrderedMap (String × String) (Operation Account Call)
  phase : Call → Phase Call
  recorded : List (Rejection Account)
  standing : List (Rejection Account)
  /-- The rejections that resets lifted, each with the receipt's generation. -/
  lifted : List (Option Nat × Rejection Account)

section
variable {Account Call : Type} [DecidableEq Account] [DecidableEq Call]

def State.goto (s : State Account Call) (t : Call) (phase : Phase Call) : State Account Call :=
  { s with phase := Function.update s.phase t phase }

def State.setAccount (s : State Account Call) (a : Account) (account : LimitedAccount) : State Account Call :=
  { s with accounts := Function.update s.accounts a account }

def Request.family_key (request : Request Account) : String := getQuotaKey request.family none

/-- The keys of the rejections that concern the request: its scope's and those of no scope. -/
def Request.watched (request : Request Account) : ObservationKey × ObservationKey :=
  (getRateLimitObservationKey request.family_key (some request.scope.id),getRateLimitObservationKey request.family_key none)

def eligible (request : Request Account) (moment : Moment) (account : LimitedAccount) : Bool :=
  moment.isCurrent && account.enabled && decide (account.authInvalidatedAt.getD 0 = 0) &&
    !(account.cooldownReason == some "auth-failure" && decide (moment.now < account.coolingDownUntil.getD 0)) && moment.routable

def rejectionForScope (request : Request Account) (account : LimitedAccount) : Option RateLimitObservation :=
  (account.rateLimitObservations.find request.watched.1).or (account.rateLimitObservations.find request.watched.2)

def revisionAt (account : LimitedAccount) (key : ObservationKey) : Nat :=
  ((account.rateLimitObservations.find key).map RateLimitObservation.revision).getD 0

def revision (request : Request Account) (account : LimitedAccount) : Nat × Nat :=
  (revisionAt account request.watched.1,revisionAt account request.watched.2)

/-- The deadlines that a reset lifts: the family's, and its workspace's share. -/
def Request.deadlines (request : Request Account) : List QuotaKey :=
  [.quota request.family_key,.workspace request.scope.accountId request.family_key]

def familyResetTime (request : Request Account) (account : LimitedAccount) : ℚ :=
  max ((account.rateLimitResetTimes.find (.quota request.family_key)).getD 0)
    (if request.scope.accountId = "" then 0
    else (account.rateLimitResetTimes.find (.workspace request.scope.accountId request.family_key)).getD 0)

def blocked (request : Request Account) (moment : Moment) (account : LimitedAccount) : Bool :=
  decide (moment.now < familyResetTime request account) ||
    (account.cooldownReason == some "rate-limit" && decide (moment.now < account.coolingDownUntil.getD 0)) ||
    moment.hasQuotaDeferral || moment.hasCachedQuotaBlock ||
    (moment.bucketEmpty && (rejectionForScope request account).any (fun rejection => decide (rejection.reason = .quota)))

def rejectedAfterReceipt (receipt : Receipt) (scopeId : String) (now : ℚ) (rejection : Option RateLimitObservation) : Bool :=
  if rejection.any RateLimitObservation.receiptReadFailed then true
  else
    match receipt.generation with
    | some generation =>
      decide (generation ≤ ((rejection.bind (fun rejection => rejection.receiptGenerations.find scopeId)).getD 0))
    | none =>
      match rejection.bind (fun rejection => rejection.receiptIdentities.find scopeId) with
      | some seen => seen.contains (resetReceiptIdentity receipt)
      | none =>
        let observedAt := (rejection.map RateLimitObservation.observedAt).getD 0
        decide (receipt.redeemedAt < observedAt ∧ (observedAt ≤ now ∨ now < receipt.redeemedAt))

variable (requests : Call → Request Account)

def servesReserve (request : Request Account) : Bool := request.model == LUNA_RESERVE_MODEL

def begin (s : State Account Call) (t : Call) (moment : Moment) : State Account Call :=
  let request := requests t
  if servesReserve request then s.goto t (.done false)
  else if eligible request moment (s.accounts request.account) && blocked request moment (s.accounts request.account) then
    s.goto t .readingReceipts
  else s.goto t (.done false)

def operationKey (request : Request Account) : String × String := (request.scope.id,request.model)

/-- Whether a call shares the operation that another one started for the receipt. -/
def shares (request : Request Account) (receipt : Receipt) (current : Nat × Nat) (now : ℚ) (existing : Operation Account Call) : Bool :=
  decide (existing.manager = request.manager) && decide (existing.account = request.account) &&
    (match receipt.generation,existing.generation with
      | some generation,some started => decide (generation ≤ started)
      | some _,none => false
      | none,some _ => true
      | none,none => decide (existing.identity = resetReceiptIdentity receipt)) &&
    (match existing.retryAfter with
      | none => existing.judgedRevision.all (fun judged => decide (judged = current))
      | some retryAfter => decide (existing.startedAt ≤ now ∧ now < retryAfter))

/-- The oldest operation goes where there are too many. -/
def makeRoom (operations : OrderedMap (String × String) (Operation Account Call)) (key : String × String) :
    OrderedMap (String × String) (Operation Account Call) :=
  if 1000 ≤ operations.length ∧ operations.find key = none then operations.drop 1 else operations

def install (s : State Account Call) (t : Call) (moment : Moment) (receipt : Receipt) : State Account Call :=
  let request := requests t
  let account := s.accounts request.account
  let noted := if receipt.generation.isSome then observeReceipt account request.scope.id receipt else account
  let same : Operation Account Call → Bool := fun existing =>
    decide (existing.manager = request.manager) && decide (existing.account = request.account) &&
      decide (existing.identity = resetReceiptIdentity receipt) && decide (existing.generation = receipt.generation)
  let operation : Operation Account Call :=
    { identity := resetReceiptIdentity receipt,generation := receipt.generation,startedAt := moment.now,manager := request.manager
      account := request.account
      failures := (((s.operations.find (operationKey request)).filter same).map Operation.failures).getD 0,owner := t }
  { (s.setAccount request.account noted).goto t (.readingPermission receipt (revision request noted) moment.now s.rejectionSequence) with
    operations := (makeRoom s.operations (operationKey request)).put (operationKey request) operation }

def completed (receipt : Receipt) : Bool := receipt.outcome == "reset" || receipt.outcome == "alreadyRedeemed"

/-- Goes on after the receipts were read; `none` where they could not be. -/
def judge (s : State Account Call) (t : Call) (moment : Moment) (state : Option ResetState) : State Account Call :=
  let request := requests t
  let account := s.accounts request.account
  if blocked request moment account = false then s.goto t (.done (eligible request moment account))
  else
    match state.bind (fun state => receiptFor state request.scope.id) with
    | none => s.goto t (.done false)
    | some receipt =>
      if (state.bind ResetState.pendingKey) = some request.scope.id ∨ completed receipt = false ∨ receipt.key ≠ request.scope.id then
        s.goto t (.done false)
      else if eligible request moment account = false ∨
          rejectedAfterReceipt receipt request.scope.id moment.now (account.rateLimitObservations.find request.watched.1) = true ∨
          rejectedAfterReceipt receipt request.scope.id moment.now (account.rateLimitObservations.find request.watched.2) = true ∨
          receipt.generation.any (fun generation =>
            decide (generation < (account.receipts.resetReceiptGenerations.find request.scope.id).getD 0)) = true then
        s.goto t (.done false)
      else
        match (s.operations.find (operationKey request)).filter (shares request receipt (revision request account) moment.now) with
        | some existing => s.goto t (.sharing existing.owner)
        | none => install requests s t moment receipt

def receive (s : State Account Call) (t : Call) (moment : Moment) (read : Option ReceiptRead) : State Account Call :=
  let request := requests t
  match read with
  | none => judge requests s t moment none
  | some read =>
    judge requests (s.setAccount request.account (settleReceiptBaselines (s.accounts request.account) read.state read.sequence)) t moment
      (some read.state)

/-- `RETRY_DELAY_MS`, doubled with every failure up to `MAX_RETRY_DELAY_MS`. -/
def retryDelay (failures : Nat) : ℚ := min (5000 * 2 ^ (failures - 1)) 300000

def lift (request : Request Account) (account : LimitedAccount) : LimitedAccount :=
  let noted := match account.rateLimitObservations.find request.watched.1 with
    | some rejection =>
      { account with rateLimitObservations := account.rateLimitObservations.put request.watched.1 { rejection with liftedByReset := true } }
    | none => account
  let cleared := { noted with
    rateLimitResetTimes := request.deadlines.foldl (fun limits key => limits.remove key) noted.rateLimitResetTimes }
  if cleared.cooldownReason = some "rate-limit" then { cleared with coolingDownUntil := none,cooldownReason := none } else cleared

def liftable (request : Request Account) (rejection : Rejection Account) : Bool :=
  decide (rejection.account = request.account) && request.deadlines.contains rejection.deadline

/-- Goes on after the permission was read. -/
def permit (s : State Account Call) (t : Call) (moment : Moment) (snapshot : Option ResetSnapshot) (receipt : Receipt)
    (startedRevision : Nat × Nat) (startedAt : ℚ) : State Account Call :=
  let request := requests t
  let account := s.accounts request.account
  match (s.operations.find (operationKey request)).filter (fun operation => decide (operation.owner = t)) with
  | none => s.goto t (.done false)
  | some operation =>
    if eligible request moment account = false then
      { s.goto t (.done false) with operations := s.operations.remove (operationKey request) }
    else if revision request account ≠ startedRevision ∨
        (snapshot.all (fun snapshot => decide (snapshot.updatedAt < startedAt ∨ moment.now < snapshot.updatedAt ∨
          snapshot.ordinaryUsageAllowed ≠ some true))) = true then
      { s.goto t (.done false) with
        operations := s.operations.put (operationKey request) { operation with
          failures := operation.failures + 1,retryAfter := some (moment.now + retryDelay (operation.failures + 1)) } }
    else
      let judged := { s with operations := s.operations.put (operationKey request) { operation with judgedRevision := some startedRevision } }
      let reason := if account.rateLimitObservations = [] then account.lastRateLimitReason
        else (rejectionForScope request account).map RateLimitObservation.reason
      if reason.all (fun reason => decide (reason = .quota)) = false then judged.goto t (.done false)
      else
        { (judged.setAccount request.account (lift request account)).goto t (.done true) with
          standing := s.standing.filter (fun rejection => !liftable request rejection)
          lifted := s.lifted ++ (s.standing.filter (liftable request)).map (fun rejection => (receipt.generation,rejection)) }

/-- A call that shares an operation waits for its owner. -/
def share (s : State Account Call) (t owner : Call) (moment : Moment) : State Account Call :=
  let request := requests t
  match s.phase owner with
  | .done _ => s.goto t (.done (eligible request moment (s.accounts request.account) && !blocked request moment (s.accounts request.account)))
  | _ => s

/-- The next step of a call, with what the read it waited for answers. -/
def reconcile (s : State Account Call) (t : Call) (moment : Moment) (read : Option ReceiptRead) (snapshot : Option ResetSnapshot) :
    State Account Call :=
  match s.phase t with
  | .created => begin requests s t moment
  | .readingReceipts => receive requests s t moment read
  | .sharing owner => share requests s t owner moment
  | .readingPermission receipt startedRevision startedAt _ => permit requests s t moment snapshot receipt startedRevision startedAt
  | .done _ => s

/-- What a 429 says. -/
structure Recording (Account : Type) where
  account : Account
  retryAfterMs : ℚ
  family : ModelFamily
  reason : RateLimitReason
  model : Option String := none
  scopeId : Option String := none
  observation : Option Observed := none
  now : ℚ

def recordKey (recording : Recording Account) (s : State Account Call) (key : String) : State Account Call :=
  let account := s.accounts recording.account
  let limited := limitKey recording.scopeId recording.observation recording.now (recording.now + retryTime recording.retryAfterMs)
    recording.reason ⟨account,[],s.rejectionSequence⟩ key
  let rejection : Rejection Account :=
    { account := recording.account,quotaKey := key,scopeId := recording.scopeId,deadline := deadlineKey recording.observation key
      known := knownGenerations ((recording.observation.bind Observed.receipts).getD account.receipts) recording.scopeId
      sequence := limited.rejectionSequence }
  { s.setAccount recording.account limited.account with
    rejectionSequence := limited.rejectionSequence
    recorded := s.recorded ++ [rejection]
    standing := s.standing ++ [rejection] }

/-- `markRateLimitedWithReason`, after the selection was observed. -/
def record (recording : Recording Account) (s : State Account Call) : State Account Call :=
  let limited := (limitedKeys recording.family recording.reason recording.model).foldl (recordKey recording) s
  limited.setAccount recording.account { limited.accounts recording.account with lastRateLimitReason := some recording.reason }

inductive Action (Account Call : Type) where
  | record (recording : Recording Account)
  /-- A request reads the receipts. -/
  | observe (account : Account) (scopeId : String) (receipt : Receipt)
  | settle (account : Account) (read : ReceiptRead)
  | reconcile (call : Call) (moment : Moment) (read : Option ReceiptRead) (snapshot : Option ResetSnapshot)
  /-- Whatever else changes an account: expiry, cooldowns, selections, disabling. -/
  | change (account : Account) (changed : LimitedAccount)

def step (s : State Account Call) : Action Account Call → State Account Call
  | .record recording => record recording s
  | .observe a scopeId receipt => s.setAccount a (observeReceipt (s.accounts a) scopeId receipt)
  | .settle a read => s.setAccount a (settleReceiptBaselines (s.accounts a) read.state read.sequence)
  | .reconcile t moment read snapshot => reconcile requests s t moment read snapshot
  | .change a changed => s.setAccount a changed

/-- Other changes leave the history of rejections and receipts alone. -/
def Enabled (s : State Account Call) : Action Account Call → Prop
  | .change a changed =>
    changed.rateLimitObservations = (s.accounts a).rateLimitObservations ∧ changed.receipts = (s.accounts a).receipts
  | _ => True

/-- The start: no call is made yet and no rejection recorded; the accounts may have any limits and any history. -/
structure Start (s : State Account Call) : Prop where
  phase : ∀ t, s.phase t = .created
  recorded : s.recorded = []
  standing : s.standing = []
  lifted : s.lifted = []

end
end CodexMultiAuth.ConfirmedReset
