import CodexMultiAuth.Runs
import Mathlib.Algebra.Group.Nat.Defs

/-!
The transaction lock on one path: a directory that holds one file, named after
the owner. A candidate directory is filled first and renamed onto the lock; a
directory that is not empty cannot be replaced. Each file operation is a step of
its own, so that other calls, on this process or another, may come in between.
-/
namespace CodexMultiAuth.FileLock

structure OwnerMatch where
  host : String
  pid : Nat
  deriving DecidableEq

def isHex (c : Char) : Bool := c.isDigit || ('a' ≤ c && c ≤ 'f')

/-- `[1-9][0-9]*` -/
def isPid : List Char → Bool
  | [] => false
  | c :: rest => ('1' ≤ c && c ≤ '9') && rest.all Char.isDigit

/-- `/^([a-f0-9]{16})\.([1-9][0-9]*)\.([a-f0-9-]{36})$/` -/
def ownerPattern (name : String) : Option OwnerMatch :=
  match name.toList.splitOn '.' with
  | [host,pid,uuid] =>
    if host.length = 16 ∧ host.all isHex ∧ isPid pid ∧ uuid.length = 36 ∧ uuid.all (fun c => isHex c || c == '-') then
      some ⟨String.ofList host,Nat.ofDigitChars 10 pid 0⟩
    else none
  | _ => none

/-- `Number.isSafeInteger`, of a whole number. -/
def isSafeInteger (n : Nat) : Bool := n ≤ 2 ^ 53 - 1

def ownerName (host : String) (pid : Nat) (uuid : String) : String := host ++ "." ++ pid.repr ++ "." ++ uuid

/-- The calls of `withFileTransactionLock` on one path, on one host. Each has the
    process that makes it and the random id that its owner name ends in. -/
structure Calls (Call : Type) where
  host : String
  pid : Call → Nat
  randomUUID : Call → String
  host_hex : host.toList.length = 16 ∧ host.toList.all isHex
  pid_safe : ∀ t, 0 < pid t ∧ isSafeInteger (pid t)
  uuid_form : ∀ t, (randomUUID t).toList.length = 36 ∧ (randomUUID t).toList.all (fun c => isHex c || c == '-')
  uuid_unique : ∀ t u, randomUUID t = randomUUID u → t = u

def Calls.owner {Call : Type} (calls : Calls Call) (t : Call) : String := ownerName calls.host (calls.pid t) (calls.randomUUID t)

inductive ErrorCode where
  | ENOENT | ENOTEMPTY | EEXIST | EPERM | EACCES | EBUSY | EAGAIN | ENOTDIR | EISDIR | ELOCKED
  /-- Another code, or an error without one. -/
  | other
  deriving DecidableEq

/-- `${key}.write-lock`, or `${lock}.candidate-` and six random characters. -/
inductive Path where
  | lock
  | candidate (suffix : String)
  deriving DecidableEq

inductive Node where
  | absent
  | directory (entries : List String)
  /-- A file or a symbolic link. -/
  | other
  deriving DecidableEq

abbrev FileSystem := Path → Node

def Node.entries : Node → List String
  | .directory entries => entries
  | _ => []

def FileSystem.put (fs : FileSystem) (path : Path) (node : Node) : FileSystem := Function.update fs path node

def readdir (fs : FileSystem) (path : Path) : Except ErrorCode (List String) :=
  match fs path with
  | .absent => .error .ENOENT
  | .other => .error .ENOTDIR
  | .directory entries => .ok entries

/-- Whether the path is a directory and no symbolic link. -/
def lstat (fs : FileSystem) (path : Path) : Except ErrorCode Bool :=
  match fs path with
  | .absent => .error .ENOENT
  | .other => .ok false
  | .directory _ => .ok true

/-- `mkdtemp`, for the name that it picks. -/
def mkdtemp (fs : FileSystem) (path : Path) : Except ErrorCode FileSystem :=
  match fs path with
  | .absent => .ok (FileSystem.put fs path (.directory []))
  | _ => .error .EEXIST

/-- `writeFile` with the flag `wx`. -/
def writeFile (fs : FileSystem) (path : Path) (name : String) : Except ErrorCode FileSystem :=
  match fs path with
  | .absent => .error .ENOENT
  | .other => .error .ENOTDIR
  | .directory entries =>
    if name ∈ entries then .error .EEXIST else .ok (FileSystem.put fs path (.directory (entries ++ [name])))

def unlink (fs : FileSystem) (path : Path) (name : String) : Except ErrorCode FileSystem :=
  match fs path with
  | .absent => .error .ENOENT
  | .other => .error .ENOTDIR
  | .directory entries =>
    if name ∈ entries then .ok (FileSystem.put fs path (.directory (entries.filter (fun entry => entry ≠ name))))
    else .error .ENOENT

def rmdir (fs : FileSystem) (path : Path) : Except ErrorCode FileSystem :=
  match fs path with
  | .absent => .error .ENOENT
  | .other => .error .ENOTDIR
  | .directory [] => .ok (FileSystem.put fs path .absent)
  | .directory (_ :: _) => .error .ENOTEMPTY

/-- `rename`, onto a path that is absent, an empty directory or a file. -/
def rename (fs : FileSystem) (source target : Path) : Except ErrorCode FileSystem :=
  match fs source,fs target with
  | .absent,_ => .error .ENOENT
  | .other,.directory _ => .error .EISDIR
  | .directory _,.other => .error .ENOTDIR
  | .directory _,.directory (_ :: _) => .error .ENOTEMPTY
  | node,_ => .ok (FileSystem.put (FileSystem.put fs target node) source .absent)

/-- `removeEmpty`: an error that it swallows leaves the file system as it is. -/
def removeEmpty (fs : FileSystem) (removed : Except ErrorCode FileSystem) : Except ErrorCode FileSystem :=
  match removed with
  | .ok fs => .ok fs
  | .error code => if code ∈ [ErrorCode.ENOENT,.ENOTEMPTY,.EEXIST] then .ok fs else .error code

/-! ### One call -/

/-- Where `recoverDeadOwner` is, before the operation that it does next. -/
inductive Recovery where
  | stat
  | list
  | judge (entries : List String)
  | remove (name : String)
  | forget (name : String)
  | empty
  deriving DecidableEq

/-- Where `recoverDeadOwner` returns to. -/
inductive Back where
  /-- `recoverDeadCandidates`, with the candidates that are left. -/
  | scan (rest : List String)
  /-- The acquisition with this candidate. -/
  | acquire (suffix : String)
  deriving DecidableEq

inductive Release where
  | unlink
  | rmdir
  deriving DecidableEq

inductive Phase where
  | created
  /-- `recoverDeadCandidates`; with no candidate left, `mkdtemp` is next. -/
  | scanning (rest : List String)
  | recovering (path : Path) (stage : Recovery) (back : Back)
  /-- The candidate exists; `chmod` is next. -/
  | made (suffix : String)
  /-- `writeFile` is next. -/
  | writing (suffix : String)
  /-- An attempt: the `rename` is next. -/
  | ready (suffix : String)
  /-- The `rename` was not permitted; `lstat` of the lock is next. -/
  | refused (suffix : String) (code : ErrorCode)
  /-- The attempt failed; `withRetry` decides. -/
  | failed (suffix : String) (code : ErrorCode)
  /-- The lock is acquired; the signal is checked once more. -/
  | published
  /-- In the protected callback, with the calls on the same path that it awaits:
      these find an active lease and run at once. -/
  | inside (reentrant : Nat)
  | releasing (path : Path) (stage : Release)
  /-- The release failed; `withRetry` decides. -/
  | unreleased (path : Path) (code : ErrorCode)
  /-- `retryAbandonedRelease` -/
  | abandoned (path : Path) (stage : Release)
  | done
  deriving DecidableEq

/-- What is left open about a step. -/
inductive Choice where
  | go
  /-- The operation fails for another reason and changes nothing. -/
  | fault (code : ErrorCode)
  | abort
  | listed (candidates : List String)
  /-- The name that `mkdtemp` picks. -/
  | picked (suffix : String)
  /-- `withRetry` or the timer tries once more. -/
  | again
  /-- `withRetry` or the timer has no attempt left. -/
  | giveUp
  /-- The callback calls `withFileTransactionLock` on the same path again. -/
  | enter
  | leave
  deriving DecidableEq

def attempt {α : Type} (choice : Choice) (result : Except ErrorCode α) : Except ErrorCode α :=
  match choice with
  | .fault code => .error code
  | _ => result

inductive Status where
  | unborn
  | live
  | dead
  deriving DecidableEq

structure State (Call : Type) where
  fs : FileSystem
  phase : Call → Phase
  /-- The processes, by PID. A PID is not reused. -/
  status : Nat → Status
  /-- `abandonedOwners`, of each process. -/
  abandonedOwners : Nat → List String

section
variable {Call : Type} [DecidableEq Call] (calls : Calls Call)

def State.goto (s : State Call) (t : Call) (phase : Phase) : State Call := { s with phase := Function.update s.phase t phase }

def State.setAbandoned (s : State Call) (pid : Nat) (owners : List String) : State Call :=
  { s with abandonedOwners := Function.update s.abandonedOwners pid owners }

/-- `abandonedOwners.add(owner)` -/
def abandonOwner (s : State Call) (t : Call) : State Call :=
  s.setAbandoned (calls.pid t) (calls.owner t :: s.abandonedOwners (calls.pid t))

/-- `abandonedOwners.delete(name)` -/
def forgetOwner (s : State Call) (t : Call) (name : String) : State Call :=
  s.setAbandoned (calls.pid t) ((s.abandonedOwners (calls.pid t)).filter (fun owner => owner ≠ name))

/-- `process.kill(pid, 0)` fails with `ESRCH`. -/
def State.isDead (s : State Call) (pid : Nat) : Bool := s.status pid ≠ .live

/-- `recoverDeadOwner` returns, or throws an error with this code. -/
def Back.resume : Back → Option ErrorCode → Phase
  | .scan rest,_ => .scanning rest
  | .acquire suffix,none => .failed suffix .ELOCKED
  | .acquire suffix,some code => .failed suffix code

/-- What `recoverDeadOwner` does about a listing. -/
def judge (s : State Call) (t : Call) (path : Path) (back : Back) : List String → Phase
  | [] => .recovering path .empty back
  | [name] =>
    if name = "" then back.resume none
    else
      match ownerPattern name with
      | none => back.resume none
      | some owner =>
        if owner.host ≠ calls.host ∨ isSafeInteger owner.pid = false then back.resume none
        else if name ∉ s.abandonedOwners (calls.pid t) ∧ s.isDead owner.pid = false then back.resume none
        else .recovering path (.remove name) back
  | _ :: _ :: _ => back.resume (some .other)

def recoverDeadOwner (s : State Call) (t : Call) (path : Path) (back : Back) (choice : Choice) : Recovery → State Call
  | .stat =>
    match attempt choice (lstat s.fs path) with
    | .ok true => s.goto t (.recovering path .list back)
    | .ok false => s.goto t (back.resume (some .other))
    | .error .ENOENT => s.goto t (back.resume none)
    | .error code => s.goto t (back.resume (some code))
  | .list =>
    match attempt choice (readdir s.fs path) with
    | .ok entries => s.goto t (.recovering path (.judge entries) back)
    | .error .ENOENT => s.goto t (back.resume none)
    | .error code => s.goto t (back.resume (some code))
  | .judge entries => s.goto t (judge calls s t path back entries)
  | .remove name =>
    match attempt choice (unlink s.fs path name) with
    | .ok fs => { s.goto t (.recovering path (.forget name) back) with fs := fs }
    | .error .ENOENT => s.goto t (back.resume none)
    | .error code => s.goto t (back.resume (some code))
  | .forget name => forgetOwner calls (s.goto t (.recovering path .empty back)) t name
  | .empty =>
    match removeEmpty s.fs (attempt choice (rmdir s.fs path)) with
    | .ok fs => { s.goto t (back.resume none) with fs := fs }
    | .error code => s.goto t (back.resume (some code))

/-- `unlink` of the owner's file and then `removeEmpty`; `failed` says where an
    error leads and `finish` what follows the last operation. -/
def releaseStep (s : State Call) (t : Call) (path : Path) (choice : Choice) (next : Phase) (failed : ErrorCode → Phase)
    (finish : State Call → State Call) : Release → State Call
  | .unlink =>
    match attempt choice (unlink s.fs path (calls.owner t)) with
    | .ok fs => { s.goto t next with fs := fs }
    | .error .ENOENT => s.goto t next
    | .error code => s.goto t (failed code)
  | .rmdir =>
    match removeEmpty s.fs (attempt choice (rmdir s.fs path)) with
    | .ok fs => finish { s with fs := fs }
    | .error code => s.goto t (failed code)

def acquireRetries : List ErrorCode := [.ELOCKED,.EBUSY,.EPERM,.EACCES,.EAGAIN]

/-- `FILE_RETRY_CODES`, the retryable codes of a release. -/
def releaseRetries : List ErrorCode := [.EBUSY,.EPERM,.EAGAIN,.ENOTEMPTY,.EACCES]

def start (s : State Call) (t : Call) : Choice → State Call
  | .listed candidates => s.goto t (.scanning candidates)
  | .abort => s.goto t .done
  | .fault _ => s.goto t .done
  | _ => s

/-- One candidate of the listing. A candidate without an owner may belong to a
    live writer that is still publishing. -/
def recoverDeadCandidate (s : State Call) (t : Call) (suffix : String) (rest : List String) (choice : Choice) : State Call :=
  match attempt choice (readdir s.fs (.candidate suffix)) with
  | .ok [name] =>
    if (ownerPattern name).isSome then s.goto t (.recovering (.candidate suffix) .stat (.scan rest))
    else s.goto t (.scanning rest)
  | _ => s.goto t (.scanning rest)

def makeCandidate (s : State Call) (t : Call) : Choice → State Call
  | .picked suffix =>
    match mkdtemp s.fs (.candidate suffix) with
    | .ok fs => { s.goto t (.made suffix) with fs := fs }
    | .error _ => s
  | .fault _ => s.goto t .done
  | _ => s

def chmodCandidate (s : State Call) (t : Call) (suffix : String) : Choice → State Call
  | .fault _ => s.goto t (.releasing (.candidate suffix) .unlink)
  | _ => s.goto t (.writing suffix)

def writeOwner (s : State Call) (t : Call) (suffix : String) (choice : Choice) : State Call :=
  match attempt choice (writeFile s.fs (.candidate suffix) (calls.owner t)) with
  | .ok fs => { s.goto t (.ready suffix) with fs := fs }
  | .error _ => s.goto t (.releasing (.candidate suffix) .unlink)

/-- An attempt to acquire the lock. -/
def publish (s : State Call) (t : Call) (suffix : String) (choice : Choice) : State Call :=
  if choice = .abort then s.goto t (.releasing (.candidate suffix) .unlink)
  else
    match attempt choice (rename s.fs (.candidate suffix) .lock) with
    | .ok fs => { s.goto t .published with fs := fs }
    | .error code =>
      if code ∉ [ErrorCode.ENOTEMPTY,.EEXIST,.EPERM,.EACCES] then s.goto t (.failed suffix code)
      else if code ∈ [ErrorCode.EPERM,.EACCES] then s.goto t (.refused suffix code)
      else s.goto t (.recovering .lock .stat (.acquire suffix))

/-- Permission errors without a destination are not lock contention. -/
def checkRefused (s : State Call) (t : Call) (suffix : String) (code : ErrorCode) (choice : Choice) : State Call :=
  match attempt choice (lstat s.fs .lock) with
  | .ok _ => s.goto t (.recovering .lock .stat (.acquire suffix))
  | .error _ => s.goto t (.failed suffix code)

/-- `withRetry` after a failure. How often it tries depends on the delays only, so
    that it may stop or go on after any attempt. -/
def retry (s : State Call) (t : Call) (retryable : Bool) (choice : Choice) (next : Phase) (stop : State Call) : State Call :=
  if retryable = true ∧ choice = .again then s.goto t next
  else if retryable = false ∨ choice = .giveUp then stop
  else s

/-- The locked callback may take the lock again, any number of times, and awaits each of these
    calls before it ends. -/
def runAction (s : State Call) (t : Call) : Choice → Nat → State Call
  | .enter,reentrant => s.goto t (.inside (reentrant + 1))
  | .leave,reentrant + 1 => s.goto t (.inside reentrant)
  | .go,0 => s.goto t (.releasing .lock .unlink)
  | _,_ => s

def withFileTransactionLock (s : State Call) (t : Call) (choice : Choice) : State Call :=
  match s.phase t with
  | .created => start s t choice
  | .scanning [] => makeCandidate s t choice
  | .scanning (suffix :: rest) => recoverDeadCandidate s t suffix rest choice
  | .recovering path stage back => recoverDeadOwner calls s t path back choice stage
  | .made suffix => chmodCandidate s t suffix choice
  | .writing suffix => writeOwner calls s t suffix choice
  | .ready suffix => publish s t suffix choice
  | .refused suffix code => checkRefused s t suffix code choice
  | .failed suffix code =>
    retry s t (code ∈ acquireRetries) choice (.ready suffix) (s.goto t (.releasing (.candidate suffix) .unlink))
  | .published => if choice = .abort then s.goto t (.releasing .lock .unlink) else s.goto t (.inside 0)
  | .inside reentrant => runAction s t choice reentrant
  | .releasing path stage =>
    releaseStep calls s t path choice (.releasing path .rmdir) (.unreleased path) (fun s => s.goto t .done) stage
  | .unreleased path code =>
    retry s t (code ∈ releaseRetries) choice (.releasing path .unlink) (abandonOwner calls (s.goto t (.abandoned path .unlink)) t)
  | .abandoned path stage =>
    if choice = .giveUp then s.goto t .done
    else
      releaseStep calls s t path choice (.abandoned path .rmdir) (fun _ => .abandoned path .unlink)
        (fun s => forgetOwner calls (s.goto t .done) t (calls.owner t)) stage
  | .done => s

inductive Action (Call : Type) where
  | spawn (pid : Nat)
  | die (pid : Nat)
  | run (call : Call) (choice : Choice)

def step (s : State Call) : Action Call → State Call
  | .spawn pid => { s with status := Function.update s.status pid .live }
  | .die pid => { s with status := Function.update s.status pid .dead }
  | .run t choice => withFileTransactionLock calls s t choice

def Enabled (s : State Call) : Action Call → Prop
  | .spawn pid => s.status pid = .unborn
  | .die pid => s.status pid = .live
  | .run t _ => s.status (calls.pid t) = .live

/-- The start: nothing is called yet. Earlier calls may have left anything behind
    that does not carry one of the random ids. -/
structure Start (s : State Call) : Prop where
  phase : ∀ t, s.phase t = .created
  fresh : ∀ t path, calls.owner t ∉ (s.fs path).entries
  abandonedOwners : ∀ pid, s.abandonedOwners pid = []

end
end CodexMultiAuth.FileLock
