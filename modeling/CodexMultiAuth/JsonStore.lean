import CodexMultiAuth.Json
import CodexMultiAuth.Exclusive

/-!
The file of a JSON store that is updated under its lock. An update takes the file's
date, loads the store, changes it, and where it has changed renames a new file into
place if the date is still that one. A load that fails counts as an empty store.

The rule at the end reduces an update to what it does with the store.
-/
namespace CodexMultiAuth.JsonStore
open Exclusive (Task safe safe_mono)
open Dialogue (Program)

inductive Code where
  | EBUSY
  | EPERM
  | EAGAIN
  | ENOTEMPTY
  | EACCES
  | ESTALE
  | other
  deriving DecidableEq

inductive Failure where
  | fs (code : Code)
  | syntaxError
  deriving DecidableEq

/-- Without contents where the text is no JSON. -/
structure StoreFile where
  contents : Option Json
  mtime : ℕ

structure Disk where
  file : Option StoreFile
  temp : Option Json
  /-- Whether the last read of the file failed although there is one. -/
  unread : Bool

/-- A read says how many more attempts there are. -/
inductive Request where
  | stat
  | fileExists
  | read (later : ℕ)
  | mkdir
  | chmod
  | writeTemp (payload : Json)
  | rename
  | unlinkTemp

abbrev Answer : Request → Type
  | .stat => Except Code (Option ℕ)
  | .fileExists => Bool
  | .read _ => Except Code (Option Json)
  | .mkdir => Except Code Unit
  | .chmod => Except Code Unit
  | .writeTemp _ => Except Code Unit
  | .rename => Except Code Unit
  | .unlinkTemp => Except Code Unit

/-- A new file has a date. -/
inductive Input where
  | works (mtime : ℕ)
  | fails (code : Code)

def respond (disk : Disk) : (request : Request) → Input → Disk × Answer request
  | .stat,.works _ => (disk,.ok (disk.file.map StoreFile.mtime))
  | .stat,.fails code => (disk,.error code)
  | .fileExists,.works _ => ({ disk with unread := false },disk.file.isSome)
  | .fileExists,.fails _ => ({ disk with unread := disk.file.isSome },false)
  | .read _,.works _ =>
    match disk.file with
    | none => (disk,.error .other)
    | some file => ({ disk with unread := false },.ok file.contents)
  | .read _,.fails code => ({ disk with unread := disk.file.isSome },.error code)
  | .mkdir,.works _ => (disk,.ok ())
  | .mkdir,.fails code => (disk,.error code)
  | .chmod,.works _ => (disk,.ok ())
  | .chmod,.fails code => (disk,.error code)
  | .writeTemp payload,.works _ => ({ disk with temp := some payload },.ok ())
  | .writeTemp _,.fails code => ({ disk with temp := none },.error code)
  | .rename,.works mtime =>
    match disk.temp with
    | none => (disk,.error .other)
    | some payload => ({ disk with file := some ⟨some payload,mtime⟩,temp := none },.ok ())
  | .rename,.fails code => (disk,.error code)
  | .unlinkTemp,.works _ => ({ disk with temp := none },.ok ())
  | .unlinkTemp,.fails code => (disk,.error code)

abbrev StoreTask (α : Type) := Task Failure Answer α

def orThrow {α : Type} (answer : Except Code α) : StoreTask α :=
  match answer with
  | .ok value => pure value
  | .error code => throw (.fs code)

/-- The operation is told how many attempts there are after this one. -/
def withRetry {α : Type} (retryableCodes : List Code) (operation : ℕ → StoreTask α) : ℕ → StoreTask α
  | 0 => operation 0
  | later + 1 =>
    tryCatch (operation (later + 1)) (fun error =>
      match error with
      | .fs code => if retryableCodes.contains code then withRetry retryableCodes operation later else throw error
      | .syntaxError => throw error)

def JSON_STORE_WRITE_RETRY_CODES : List Code := [.EBUSY,.EPERM]
def JSON_STORE_READ_RETRY_CODES : List Code := [.EBUSY,.EPERM,.EAGAIN]

def getJsonStoreFileMtimeMs : StoreTask (Option ℕ) :=
  withRetry JSON_STORE_READ_RETRY_CODES (fun _ => do
    let answer ← Task.ask .stat
    orThrow answer) 4

def assertJsonStoreFileMtimeUnchanged (expectedMtimeMs : Option ℕ) : StoreTask Unit := do
  let currentMtimeMs ← getJsonStoreFileMtimeMs
  if currentMtimeMs ≠ expectedMtimeMs then throw (.fs .ESTALE) else pure ()

def renameWithRetry (retryableCodes : List Code) : StoreTask Unit :=
  withRetry retryableCodes (fun _ => do
    let answer ← Task.ask Request.rename
    orThrow answer) 4

/-- Removes the temporary file where it was not moved. -/
def orUnlink (task : StoreTask Unit) : StoreTask Unit :=
  tryCatch task (fun error => do
    let _ ← Task.ask .unlinkTemp
    throw error)

def writeTempFile (payload : Json) : StoreTask Unit := do
  let answer ← Task.ask (.writeTemp payload)
  orThrow answer

def writeJsonStoreFileAtomicWithRetry (payload : Json) (expectedMtimeMs : Option ℕ) : StoreTask Unit := do
  let answer ← Task.ask .mkdir
  orThrow answer
  writeTempFile payload
  orUnlink (do
    assertJsonStoreFileMtimeUnchanged expectedMtimeMs
    renameWithRetry JSON_STORE_WRITE_RETRY_CODES)

/-- What a store makes of a document, and when it reads again. -/
structure Kind (Store : Type) where
  emptyStore : Store
  normalizeStore : Json → Store
  RETRYABLE_FS_CODES : List Code

section
variable {Store Carry Result : Type} (kind : Kind Store)

/-- The store as a read that works gives it. -/
def Kind.stored (disk : Disk) : Store :=
  match disk.file with
  | some ⟨some document,_⟩ => kind.normalizeStore document
  | _ => kind.emptyStore

def readFileWithRetry : StoreTask (Option Json) :=
  withRetry kind.RETRYABLE_FS_CODES (fun later => do
    let answer ← Task.ask (Request.read later)
    orThrow answer) 4

def parse : Option Json → StoreTask Json
  | none => throw .syntaxError
  | some document => pure document

def loadStore : StoreTask Store := do
  let present ← Task.ask Request.fileExists
  if present = false then pure kind.emptyStore
  else
    tryCatch
      (do
        let text ← readFileWithRetry kind
        let document ← parse text
        pure (kind.normalizeStore document))
      (fun _ => pure kind.emptyStore)

/-- What an update makes of a store: what it keeps for the next attempt, its result, and
    the document to write where the store has changed. -/
abbrev Mutate (Store Carry Result : Type) := Carry → Store → Carry × Result × Option Json

variable (write : Json → Option ℕ → StoreTask Unit) (mutate : Mutate Store Carry Result)

def updateAttempt (again : Failure → Carry → StoreTask Result) (carry : Carry) : StoreTask Result := do
  let loaded ← Task.attempt (do
    let expectedMtimeMs ← getJsonStoreFileMtimeMs
    let store ← loadStore kind
    pure (expectedMtimeMs,store))
  match loaded with
  | .error error => again error carry
  | .ok (expectedMtimeMs,store) =>
    match mutate carry store with
    | (_,result,none) => pure result
    | (carry,result,some payload) =>
      tryCatch
        (do
          write payload expectedMtimeMs
          pure result)
        (fun error => again error carry)

/-- An update whose file has changed meanwhile begins again. -/
def updateAttempts : ℕ → Carry → StoreTask Result
  | 0,carry => updateAttempt kind write mutate (fun error _ => throw error) carry
  | later + 1,carry =>
    updateAttempt kind write mutate (fun error carry => if error = .fs .ESTALE then updateAttempts later carry else throw error) carry

def withJsonStoreCasRetry (carry : Carry) : StoreTask Result := updateAttempts kind write mutate 2 carry

end
end CodexMultiAuth.JsonStore
