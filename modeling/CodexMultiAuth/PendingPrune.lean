import CodexMultiAuth.PendingAuth
import CodexMultiAuth.Runs

/-!
The prune that follows a save, among recordings. Under the lock of the journal it scans
the backups and the write-ahead journal for the refresh tokens that a restore could
bring back, one file after another, reads the journal again and drops the entries
whose spent token it has seen nowhere. A file that it cannot read contributes nothing.

The saver holds the lock of the storage throughout, so the files it scans stay.
-/
namespace CodexMultiAuth.PendingPrune

/-- What a text is as JSON, or nothing. -/
abbrev Content := Option Json

/-- A backup, and whether its name is one of the known slots or was found in the directory. -/
structure Candidate where
  known : Bool
  content : Content

structure WalFile where
  /-- The text in its content field, where it is a record with one. -/
  content : Option Content

structure Sources where
  primary : AccountStorageV3
  candidates : List Candidate
  wal : Option WalFile

def tokenOf (account : Json) : Option String := account.asRecord.bind (fun row => (Record.text row "refreshToken").bind nonEmpty)

def collectContent (raw : Content) : List String :=
  match (raw.bind Json.asRecord).bind (fun parsed => (OrderedMap.find parsed "accounts").bind Json.asItems) with
  | some accounts => accounts.filterMap tokenOf
  | none => []

namespace Sources

def walTokens (sources : Sources) : List String := ((sources.wal.bind WalFile.content).map collectContent).getD []

/-- The refresh tokens in the backups and the write-ahead journal. -/
def restorable (sources : Sources) : List String := sources.candidates.flatMap (fun candidate => collectContent candidate.content) ++ sources.walTokens

def saved (sources : Sources) : List String := sources.primary.accounts.filterMap AccountMetadataV3.refreshToken

variable [Host]

def Holds (sources : Sources) (prior : String) : Prop := prior ∈ (sources.saved ++ sources.restorable).map Host.sha256

instance (sources : Sources) (prior : String) : Decidable (sources.Holds prior) := inferInstanceAs (Decidable (_ ∈ _))

end Sources

/-- How far a prune has come. -/
inductive Phase where
  | begun
  /-- The journal was there; the lock is not yet held. -/
  | looked
  | scanning (left : List Candidate) (tokens : List String)
  | scanned (tokens : List String)
  | decided (tokens : List String) (entries : List PendingAuth)

/-- Under the lock of the journal. -/
def Phase.locked : Phase → Bool
  | .begun => false
  | .looked => false
  | _ => true

structure Prune where
  saved : AccountStorageV3
  phase : Phase
  complete : Bool

structure World where
  sources : Sources
  journal : List PendingAuth
  /-- The rotations that have been recorded. -/
  spent : List Rotation
  prune : Option Prune

inductive Action where
  /-- The holder of the storage lock changes the files. -/
  | store (sources : Sources)
  | record (reset fails : Bool) (auth : Rotation)
  /-- A save has come to its end. -/
  | begin
  | look (works : Bool)
  /-- The lock is taken and the candidates are listed. -/
  | lock (works : Bool)
  | scan (works : Bool)
  | scanWal (works : Bool)
  | read (works : Bool)
  | write (works : Bool)
  | crash

namespace World

def free (w : World) : Bool := (w.prune.map (fun prune => !prune.phase.locked)).getD true

def enabled (w : World) : Action → Prop
  | .store _ => w.prune.isNone = true
  | .record _ _ _ => w.free = true
  | .begin => w.prune.isNone = true
  | .look _ => ∃ prune, w.prune = some prune ∧ prune.phase = .begun
  | .lock _ => ∃ prune, w.prune = some prune ∧ prune.phase = .looked
  | .scan _ => ∃ prune candidate left tokens, w.prune = some prune ∧ prune.phase = .scanning (candidate :: left) tokens
  | .scanWal _ => ∃ prune tokens, w.prune = some prune ∧ prune.phase = .scanning [] tokens
  | .read _ => ∃ prune tokens, w.prune = some prune ∧ prune.phase = .scanned tokens
  | .write _ => ∃ prune tokens entries, w.prune = some prune ∧ prune.phase = .decided tokens entries
  | .crash => True

section
variable [Host]

/-- What becomes of the world when its prune goes on. -/
def prunes (w : World) (prune : Prune) : Phase → Action → World
  | .begun,.look works =>
    if works && !w.journal.isEmpty then { w with prune := some { prune with phase := .looked } } else { w with prune := none }
  | .looked,.lock works =>
    { w with
      prune := some
        { prune with
          phase := .scanning (if works then w.sources.candidates else w.sources.candidates.filter Candidate.known) []
          complete := works } }
  | .scanning (candidate :: left) tokens,.scan works =>
    { w with
      prune := some
        { prune with
          phase := .scanning left (if works then tokens ++ collectContent candidate.content else tokens)
          complete := prune.complete && works } }
  | .scanning [] tokens,.scanWal works =>
    { w with
      prune := some
        { prune with
          phase := .scanned (if works then tokens ++ w.sources.walTokens else tokens)
          complete := prune.complete && works } }
  | .scanned tokens,.read works =>
    if works then { w with prune := some { prune with phase := .decided tokens w.journal } } else { w with prune := none }
  | .decided tokens entries,.write works =>
    { w with
      journal := if works then prunePendingAuth entries prune.saved (some (.ok tokens)) else w.journal
      prune := none }
  | _,_ => w

def recorded (w : World) (reset fails : Bool) (auth : Rotation) : World :=
  match recordPendingAuth reset w.journal auth with
  | .error _ => w
  | .ok journal => if fails then w else { w with journal,spent := w.spent ++ [auth] }

def step (w : World) : Action → World
  | .store sources => { w with sources }
  | .record reset fails auth => w.recorded reset fails auth
  | .begin => { w with prune := some ⟨w.sources.primary,.begun,false⟩ }
  | .crash => { w with prune := none }
  | action =>
    match w.prune with
    | none => w
    | some prune => w.prunes prune prune.phase action

end
end World

end CodexMultiAuth.PendingPrune
