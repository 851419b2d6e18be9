import CodexMultiAuth.Json
import CodexMultiAuth.Runs

/-!
The lease on one refresh token. The lock file is created exclusively and holds the
owner's nonce; a successful refresh is published in the result file before the
lock is removed. Each file operation is a step of its own, so that other calls,
on this process or another, may come in between.
-/
namespace CodexMultiAuth.RefreshLease

def maxSafeInteger : Int := 2 ^ 53 - 1

/-- `TokenSuccessSchema` -/
structure TokenSuccess where
  access : String
  refresh : String
  expires : Int
  idToken : Option String := none
  multiAccount : Option Bool := none
  access_nonempty : access ≠ ""
  refresh_nonempty : refresh ≠ ""
  expires_positive : 0 < expires ∧ expires ≤ maxSafeInteger
  deriving DecidableEq

def tokenFailureReasons : List String :=
  ["coordination_error","http_error","invalid_response","network_error","missing_refresh","timeout","unknown"]

/-- `TokenFailureSchema` -/
structure TokenFailure where
  reason : Option String
  statusCode : Option ℚ
  message : Option String
  reason_known : ∀ text ∈ reason, text ∈ tokenFailureReasons
  deriving DecidableEq

inductive TokenResult where
  | success (tokens : TokenSuccess)
  | failed (failure : TokenFailure)
  deriving DecidableEq

def asBool : Json → Option Bool
  | .bool value => some value
  | _ => none

/-- An optional property: absent, or of the right type. -/
def optional {α : Type} (fields : Record) (k : String) (read : Json → Option α) : Option (Option α) :=
  match fields.find k with
  | none => some none
  | some value => (read value).map some

def parseTokenSuccess (fields : Record) : Option TokenSuccess :=
  match fields.text "access",fields.text "refresh",fields.number "expires",optional fields "idToken" Json.asText,
    optional fields "multiAccount" asBool with
  | some access,some refresh,some expires,some idToken,some multiAccount =>
    if valid : access ≠ "" ∧ refresh ≠ "" ∧ expires = expires.num ∧ 0 < expires.num ∧ expires.num ≤ maxSafeInteger then
      some
        { access := access,refresh := refresh,expires := expires.num,idToken := idToken,multiAccount := multiAccount
          access_nonempty := valid.1,refresh_nonempty := valid.2.1,expires_positive := valid.2.2.2 }
    else none
  | _,_,_,_,_ => none

def parseTokenFailure (fields : Record) : Option TokenFailure :=
  match optional fields "reason" Json.asText,optional fields "statusCode" Json.asNumber,optional fields "message" Json.asText with
  | some reason,some statusCode,some message =>
    if known : ∀ text ∈ reason, text ∈ tokenFailureReasons then some ⟨reason,statusCode,message,known⟩ else none
  | _,_,_ => none

def safeParseTokenResult (data : Json) : Option TokenResult :=
  data.asRecord.bind fun fields =>
    match fields.find "type" with
    | some (.str "success") => (parseTokenSuccess fields).map .success
    | some (.str "failed") => (parseTokenFailure fields).map .failed
    | _ => none

structure LeaseFilePayload where
  tokenHash : String
  pid : Int
  acquiredAt : Int
  expiresAt : Int
  nonce : String
  deriving DecidableEq

def parseLeasePayload (raw : Json) : Option LeaseFilePayload :=
  raw.asRecord.bind fun fields =>
    match fields.number "pid",fields.number "acquiredAt",fields.number "expiresAt" with
    | some pid,some acquiredAt,some expiresAt =>
      let tokenHash := (fields.text "tokenHash").getD ""
      if tokenHash = "" then none
      else
        some
          { tokenHash := tokenHash,pid := pid.floor,acquiredAt := acquiredAt.floor,expiresAt := expiresAt.floor
            nonce := (fields.text "nonce").getD "" }
    | _,_,_ => none

structure ResultFilePayload where
  tokenHash : String
  createdAt : Int
  result : TokenResult

def parseResultPayload (raw : Json) : Option ResultFilePayload :=
  raw.asRecord.bind fun fields =>
    match fields.number "createdAt",(fields.find "result").bind safeParseTokenResult with
    | some createdAt,some result =>
      let tokenHash := (fields.text "tokenHash").getD ""
      if tokenHash = "" then none else some { tokenHash := tokenHash,createdAt := createdAt.floor,result := result }
    | _,_ => none

def optionalField (k : String) : Option Json → Record
  | none => []
  | some value => [(k,value)]

def TokenSuccess.toJson (tokens : TokenSuccess) : Json :=
  .obj ([("type",.str "success"),("access",.str tokens.access),("refresh",.str tokens.refresh),("expires",.num tokens.expires)] ++
    optionalField "idToken" (tokens.idToken.map .str) ++ optionalField "multiAccount" (tokens.multiAccount.map .bool))

def LeaseFilePayload.toJson (payload : LeaseFilePayload) : Json :=
  .obj [("tokenHash",.str payload.tokenHash),("pid",.num payload.pid),("acquiredAt",.num payload.acquiredAt),
    ("expiresAt",.num payload.expiresAt),("nonce",.str payload.nonce)]

/-- The document that a successful refresh is published as. -/
def resultPayload (tokenHash : String) (createdAt : Int) (tokens : TokenSuccess) : Json :=
  .obj [("tokenHash",.str tokenHash),("createdAt",.num createdAt),("result",tokens.toJson)]

/-! ### The calls -/

structure RefreshLeaseCoordinatorOptions where
  enabled : Option Bool := none
  leaseTtlMs : Option ℚ := none
  waitTimeoutMs : Option ℚ := none
  resultTtlMs : Option ℚ := none

namespace RefreshLeaseCoordinatorOptions
variable (options : RefreshLeaseCoordinatorOptions)
def isEnabled : Bool := options.enabled.getD true
def leaseTtl : Int := max 1000 (options.leaseTtlMs.getD 30000).floor
def waitTimeout : Int := max 0 (options.waitTimeoutMs.getD 35000).floor
def resultTtl : Int := max 1000 (options.resultTtlMs.getD 20000).floor
end RefreshLeaseCoordinatorOptions

/-- The calls of `acquire` with one refresh token over one directory. Each has the
    process and the coordinator that it is made with, and its nonce. -/
structure Calls (Call : Type) where
  empty : Bool
  tokenHash : String
  pid : Call → Nat
  options : Call → RefreshLeaseCoordinatorOptions
  nonce : Call → String
  tokenHash_nonempty : tokenHash ≠ ""

/-- A file's content: nothing where the text is not JSON. -/
abbrev Content := Option Json

inductive Reading where
  | exists
  | read
  /-- The file is read; its age is looked at next. -/
  | judge (content : Content)
  /-- The result is too old; `safeUnlink` is at this attempt. -/
  | expired (attempt : Nat)
  deriving DecidableEq

inductive Releasing where
  | writeTemp (content : Json)
  | renameTemp (content : Json)
  /-- `safeUnlink` of the temporary file. -/
  | unlinkTemp (published : Bool) (attempt : Nat)
  | readLock
  | ownsLock (content : Content)
  | unlinkLock (attempt : Nat)
  deriving DecidableEq

inductive Phase where
  | created
  | bypass
  | blocked (reason : String)
  | rejected
  /-- The first reading of a round. -/
  | checking (stage : Reading)
  | following (result : TokenResult)
  /-- The exclusive `open` is next. -/
  | opening
  /-- The lock exists; the deadline is looked at next. -/
  | contended
  /-- The lock is created and still empty. -/
  | writing
  /-- `close` is next; `written` says whether the payload was. -/
  | closing (written : Bool)
  /-- `safeUnlink` of the own lock after an error. -/
  | abandoning (attempt : Nat)
  /-- The second reading, with the lock held. -/
  | rechecking (stage : Reading)
  /-- `release` of a lock that is not needed, before following. -/
  | yielding (result : TokenResult) (stage : Releasing)
  /-- The handle of an owner is returned and not released. -/
  | owner
  | releasing (stage : Releasing)
  | released
  deriving DecidableEq

/-- What is left open about a step. -/
inductive Choice where
  | go
  /-- The operation fails and changes nothing; `safeUnlink` tries again where the error is retryable. -/
  | fault (retryable : Bool)
  /-- The owner calls `release`, with a successful result or without one. -/
  | release (result : Option TokenSuccess)

structure State (Call : Type) where
  now : Int
  /-- `${tokenHash}.lock`, if the file exists. -/
  lock : Option Content
  /-- `${tokenHash}.result.json`, if the file exists. -/
  result : Option Content
  phase : Call → Phase
  deadline : Call → Int
  crashed : Nat → Bool
  /-- Whatever has been in the result file; no step reads this. -/
  published : List Content

section
variable {Call : Type} [DecidableEq Call] (calls : Calls Call)

def State.goto (s : State Call) (t : Call) (phase : Phase) : State Call := { s with phase := Function.update s.phase t phase }

def parsedResult (content : Content) : Option ResultFilePayload := content.bind parseResultPayload

/-- `safeUnlink`, at an attempt: retry, or go on. -/
def safeUnlink (s : State Call) (t : Call) (attempt : Nat) (choice : Choice) (retry : Nat → Phase) (next : Phase)
    (removed : State Call) : State Call :=
  match choice with
  | .fault retryable => if retryable = true ∧ attempt + 1 < 4 then s.goto t (retry (attempt + 1)) else s.goto t next
  | _ => removed.goto t next

/-- `readFreshResult`; `none` and `found` say what follows it. A failed look at the
    file or a failed read of it goes on as if there were no result. -/
def readFreshResult (s : State Call) (t : Call) (choice : Choice) (stay : Reading → Phase) (none : Phase)
    (found : TokenResult → Phase) : Reading → State Call
  | .exists =>
    match choice with
    | .fault _ => s.goto t none
    | _ => if s.result.isSome then s.goto t (stay .read) else s.goto t none
  | .read =>
    match choice,s.result with
    | .fault _,_ | _,Option.none => s.goto t none
    | _,some content => s.goto t (stay (.judge content))
  | .judge content =>
    match parsedResult content with
    | Option.none => s.goto t none
    | some payload =>
      if payload.tokenHash ≠ calls.tokenHash then s.goto t none
      else if s.now - payload.createdAt > (calls.options t).resultTtl then s.goto t (stay (.expired 0))
      else s.goto t (found payload.result)
  | .expired attempt => safeUnlink s t attempt choice (fun n => stay (.expired n)) none { s with result := Option.none }

/-- `ownsLock`: an unreadable or absent lock is nothing to protect. -/
def ownsLock (t : Call) (content : Content) : Bool :=
  match content.bind parseLeasePayload with
  | none => true
  | some payload =>
    if payload.tokenHash ≠ calls.tokenHash then false else if payload.nonce = "" then true else decide (payload.nonce = calls.nonce t)

/-- `release` of an owner. -/
def releaseStep (s : State Call) (t : Call) (choice : Choice) (stay : Releasing → Phase) (finished : Phase) : Releasing → State Call
  | .writeTemp content =>
    match choice with
    | .fault _ => s.goto t (stay (.unlinkTemp false 0))
    | _ => s.goto t (stay (.renameTemp content))
  | .renameTemp content =>
    match choice with
    | .fault _ => s.goto t (stay (.unlinkTemp false 0))
    | _ => { s.goto t (stay (.unlinkTemp true 0)) with result := some (some content),published := some content :: s.published }
  | .unlinkTemp published attempt =>
    safeUnlink s t attempt choice (fun n => stay (.unlinkTemp published n)) (if published then stay .readLock else finished) s
  | .readLock =>
    match choice with
    | .fault _ => s.goto t (stay (.ownsLock none))
    | _ => s.goto t (stay (.ownsLock (s.lock.getD none)))
  | .ownsLock content => if ownsLock calls t content then s.goto t (stay (.unlinkLock 0)) else s.goto t finished
  | .unlinkLock attempt => safeUnlink s t attempt choice (fun n => stay (.unlinkLock n)) finished { s with lock := none }

def begin (s : State Call) (t : Call) (choice : Choice) : State Call :=
  if (calls.options t).isEnabled = false then s.goto t .bypass
  else if calls.empty = true then s.goto t (.blocked "empty-token")
  else
    match choice with
    | .fault _ => s.goto t .rejected
    | _ => { s.goto t (.checking .exists) with deadline := Function.update s.deadline t (s.now + (calls.options t).waitTimeout) }

def openLock (s : State Call) (t : Call) (choice : Choice) : State Call :=
  match choice with
  | .fault _ => s.goto t (.blocked "acquire-error")
  | _ => if s.lock.isSome then s.goto t .contended else { s.goto t .writing with lock := some none }

def leasePayload (t : Call) (now : Int) : LeaseFilePayload where
  tokenHash := calls.tokenHash
  pid := calls.pid t
  acquiredAt := now
  expiresAt := now + (calls.options t).leaseTtl
  nonce := calls.nonce t

def writeLock (s : State Call) (t : Call) (choice : Choice) : State Call :=
  match choice with
  | .fault _ => s.goto t (.closing false)
  | _ => { s.goto t (.closing true) with lock := some (some (leasePayload calls t s.now).toJson) }

def closeLock (s : State Call) (t : Call) (written : Bool) (choice : Choice) : State Call :=
  match choice,written with
  | .fault _,_ => s.goto t (.abandoning 0)
  | _,false => s.goto t (.abandoning 0)
  | _,true => s.goto t (.rechecking .exists)

/-- `release`, called by the owner; only a successful result is published. -/
def releaseOwner (s : State Call) (t : Call) : Choice → State Call
  | .release (some tokens) => s.goto t (.releasing (.writeTemp (resultPayload calls.tokenHash s.now tokens)))
  | .release none => s.goto t (.releasing .readLock)
  | _ => s

/-- One step of `acquire`, or of the `release` of its handle. -/
def acquire (s : State Call) (t : Call) (choice : Choice) : State Call :=
  match s.phase t with
  | .created => begin calls s t choice
  | .checking stage => readFreshResult calls s t choice .checking .opening .following stage
  | .opening => openLock s t choice
  | .contended => if s.now ≥ s.deadline t then s.goto t (.blocked "wait-timeout") else s.goto t (.checking .exists)
  | .writing => writeLock calls s t choice
  | .closing written => closeLock s t written choice
  | .abandoning attempt => safeUnlink s t attempt choice .abandoning (.blocked "acquire-error") { s with lock := none }
  | .rechecking stage => readFreshResult calls s t choice .rechecking .owner (fun result => .yielding result .readLock) stage
  | .yielding result stage => releaseStep calls s t choice (.yielding result) (.following result) stage
  | .owner => releaseOwner calls s t choice
  | .releasing stage => releaseStep calls s t choice .releasing .released stage
  | .bypass | .blocked _ | .rejected | .following _ | .released => s

inductive Action (Call : Type) where
  /-- The clock that all processes share. -/
  | tick (elapsed : Nat)
  | crash (pid : Nat)
  /-- `pruneExpiredArtifacts` of some call removes the result file. It goes by the
      file's modification time, so that it may come at any point. -/
  | prune
  | run (call : Call) (choice : Choice)

def step (s : State Call) : Action Call → State Call
  | .tick elapsed => { s with now := s.now + elapsed }
  | .crash pid => { s with crashed := Function.update s.crashed pid true }
  | .prune => { s with result := none }
  | .run t choice => acquire calls s t choice

def Enabled (s : State Call) : Action Call → Prop
  | .run t _ => s.crashed (calls.pid t) = false
  | _ => True

/-- The start: nothing is called yet, and earlier calls may have left any files behind. -/
structure Start (s : State Call) : Prop where
  phase : ∀ t, s.phase t = .created
  published : ∀ content, s.result = some content → content ∈ s.published

end
end CodexMultiAuth.RefreshLease
