import CodexMultiAuth.SnapshotMerge

/-!
The files of the account storage: the primary, the journal, a temporary file, the
rotated backups and the marker of an intentional reset. A save, a clear and the
recovery of a load are scripts of file steps. A step may fail or be the last before
a crash; a rename or an unlink then has happened or not, a write may be torn.

A file is followed by the pool that is read from it.
-/
namespace CodexMultiAuth.AccountFiles

inductive File (Pool : Type) where
  | whole (pool : Pool)
  /-- Not readable as JSON, or not with the checksum that it names. -/
  | torn
  deriving DecidableEq

namespace File
variable {Pool : Type}

def read : File Pool → Option Pool
  | .whole pool => some pool
  | .torn => none

end File

/-- A pool type: the pool that stands for no storage, and what a load asks of a pool. -/
structure Kind (Pool : Type) where
  empty : Pool
  hasAccounts : Pool → Bool
  looksLikeSyntheticFixtureStorage : Pool → Bool
  empty_genuine : looksLikeSyntheticFixtureStorage empty = false

structure Disk (Pool : Type) where
  primary : Option (File Pool)
  journal : Option (File Pool)
  temp : Option (File Pool)
  /-- The slots of the rotated backups, the newest first. -/
  backups : List (Option (File Pool))
  resetMarker : Bool
  deriving DecidableEq

inductive FileStep (Pool : Type) where
  | ensureDirectory
  | ensureGitignore
  /-- Nothing is renamed where the rotation is not due or a copy fails. -/
  | createRotatingBackup (renamed : ℕ)
  | writeJournal (pool : Pool)
  | writeTemp (pool : Pool)
  | statTemp
  | renameTempToPath
  | cleanupResetMarker
  | cleanupWal
  | cleanupTemp
  | writeResetMarker
  | clearPrimary
  | clearWal
  | clearBackup (slot : ℕ)
  deriving DecidableEq

/-- How much of a step has happened. -/
inductive Left where
  | nothing
  | part
  | everything
  deriving DecidableEq

inductive Fate where
  | done
  | fails (left : Left)
  | crashes (left : Left)
  deriving DecidableEq

variable {Pool : Type}

/-- The copies that a rotation stages, in the order in which they are renamed: each
    slot's for the next older one, then the primary's. -/
def stagedBackups (disk : Disk Pool) (primary : File Pool) : List (ℕ × File Pool) :=
  ((List.range disk.backups.length).reverse.filterMap (fun slot =>
    if slot = 0 then none else (disk.backups[slot - 1]?).join.map (fun file => (slot,file)))) ++ [(0,primary)]

def rotateBackups (renamed : ℕ) (disk : Disk Pool) : Disk Pool :=
  match disk.primary with
  | none => disk
  | some primary =>
    { disk with
      backups := ((stagedBackups disk primary).take renamed).foldl (fun backups staged => backups.set staged.1 (some staged.2)) disk.backups }

namespace FileStep

def apply (step : FileStep Pool) (disk : Disk Pool) : Disk Pool :=
  match step with
  | .ensureDirectory => disk
  | .ensureGitignore => disk
  | .createRotatingBackup renamed => rotateBackups renamed disk
  | .writeJournal pool => { disk with journal := some (.whole pool) }
  | .writeTemp pool => { disk with temp := some (.whole pool) }
  | .statTemp => disk
  | .renameTempToPath => { disk with primary := disk.temp,temp := none }
  | .cleanupResetMarker => { disk with resetMarker := false }
  | .cleanupWal => { disk with journal := none }
  | .cleanupTemp => { disk with temp := none }
  | .writeResetMarker => { disk with resetMarker := true }
  | .clearPrimary => { disk with primary := none }
  | .clearWal => { disk with journal := none }
  | .clearBackup slot => { disk with backups := disk.backups.set slot none }

/-- What a write leaves that was begun. The marker counts from its creation on. -/
def tear (step : FileStep Pool) (disk : Disk Pool) : Disk Pool :=
  match step with
  | .writeJournal _ => { disk with journal := some .torn }
  | .writeTemp _ => { disk with temp := some .torn }
  | .writeResetMarker => { disk with resetMarker := true }
  | _ => disk

def writes : FileStep Pool → Bool
  | .writeJournal _ => true
  | .writeTemp _ => true
  | .writeResetMarker => true
  | _ => false

def leave (step : FileStep Pool) (left : Left) (disk : Disk Pool) : Disk Pool :=
  match left with
  | .nothing => disk
  | .part => step.tear disk
  | .everything => step.apply disk

/-- A rename or an unlink that fails has changed nothing. -/
def fail (step : FileStep Pool) (left : Left) (disk : Disk Pool) : Disk Pool :=
  if step.writes then step.leave left disk else disk

end FileStep

inductive Outcome where
  | completed
  | failed
  | crashed
  deriving DecidableEq

/-- A step, and whether the script goes on only when it succeeds. -/
structure Line (Pool : Type) where
  step : FileStep Pool
  required : Bool

def required (step : FileStep Pool) : Line Pool := ⟨step,true⟩

def bestEffort (step : FileStep Pool) : Line Pool := ⟨step,false⟩

def runLines (fates : FileStep Pool → Fate) : List (Line Pool) → Disk Pool → Disk Pool × Outcome
  | [],disk => (disk,.completed)
  | line :: rest,disk =>
    match fates line.step with
    | .done => runLines fates rest (line.step.apply disk)
    | .fails left => if line.required then (line.step.fail left disk,.failed) else runLines fates rest (line.step.fail left disk)
    | .crashes left => (line.step.leave left disk,.crashed)

def preparation : List (Line Pool) := [required .ensureDirectory,required .ensureGitignore]

def saveLines (storageBackupEnabled : Bool) (renamed : ℕ) (pool : Pool) : List (Line Pool) :=
  (if storageBackupEnabled then [bestEffort (.createRotatingBackup renamed)] else []) ++
    [required (.writeJournal pool),required (.writeTemp pool),required .statTemp,required .renameTempToPath,
      bestEffort .cleanupResetMarker,bestEffort .cleanupWal]

/-- How the steps of one call go. -/
structure Faults (Pool : Type) where
  fates : FileStep Pool → Fate
  renamed : ℕ

section
variable (kind : Kind Pool) (storageBackupEnabled : Bool)

/-- A fixture does not replace a storage that is not one. -/
def refuses (pool : Pool) (disk : Disk Pool) : Bool :=
  kind.looksLikeSyntheticFixtureStorage pool &&
    (disk.primary.bind File.read).any (fun existing => kind.hasAccounts existing && !kind.looksLikeSyntheticFixtureStorage existing)

def saveAccountsToDisk (pool : Pool) (faults : Faults Pool) (disk : Disk Pool) : Disk Pool × Outcome :=
  let saved : Disk Pool × Outcome :=
    match runLines faults.fates preparation disk with
    | (disk,.completed) =>
      if refuses kind pool disk then (disk,.failed)
      else runLines faults.fates (saveLines storageBackupEnabled faults.renamed pool) disk
    | stopped => stopped
  match saved with
  | (disk,.failed) => ((runLines faults.fates [bestEffort .cleanupTemp] disk).1,.failed)
  | other => other

def clearLines (disk : Disk Pool) : List (Line Pool) :=
  [required .writeResetMarker,required .clearPrimary,required .clearWal] ++
    (List.range disk.backups.length).map (fun slot => bestEffort (.clearBackup slot))

def clearAccountStorageArtifacts (faults : Faults Pool) (disk : Disk Pool) : Disk Pool × Outcome :=
  runLines faults.fates (clearLines disk) disk

def loadAccountsFromJournal (disk : Disk Pool) : Option Pool :=
  if disk.resetMarker then none else disk.journal.bind File.read

def loadFromBackups (disk : Disk Pool) : Option Pool := disk.backups.findSome? (fun backup => backup.bind File.read)

/-- The first backup that may take the place of a primary that looks like a fixture. -/
def promotedBackup (disk : Disk Pool) : Option Pool :=
  disk.backups.findSome? (fun backup => (backup.bind File.read).filter (fun pool =>
    !kind.looksLikeSyntheticFixtureStorage pool && kind.hasAccounts pool))

/-- What a load answers with, and the pool that it saves before that. A null answer has no pool. -/
def recovery (disk : Disk Pool) : Option Pool × Option Pool :=
  match disk.primary with
  | some (.whole pool) =>
    if disk.resetMarker then (some kind.empty,none)
    else if kind.hasAccounts pool && (storageBackupEnabled && kind.looksLikeSyntheticFixtureStorage pool) then
      match promotedBackup kind disk with
      | some backup => (some backup,some backup)
      | none => (some pool,none)
    else (some pool,none)
  | unreadable =>
    if disk.resetMarker then (some kind.empty,none)
    else
      match (loadAccountsFromJournal disk).or (if storageBackupEnabled then loadFromBackups disk else none) with
      | some recovered => (some recovered,some recovered)
      | none => (if unreadable.isNone then some kind.empty else none,none)

def loadAccounts (disk : Disk Pool) : Option Pool := (recovery kind storageBackupEnabled disk).1

/-- The files after a load, which does not mind whether its own save succeeds. -/
def afterLoad (faults : Faults Pool) (disk : Disk Pool) : Disk Pool :=
  match (recovery kind storageBackupEnabled disk).2 with
  | none => disk
  | some pool => (saveAccountsToDisk kind storageBackupEnabled pool faults disk).1

end

section
variable [Host]

def isNumeral (text : List Char) : Bool := !text.isEmpty && text.all Char.isDigit

/-- `^account\d+@example\.com$` -/
def isFixtureEmail (email : String) : Bool :=
  "account".toList.isPrefixOf email.toList && "@example.com".toList.isSuffixOf email.toList &&
    isNumeral ((email.toList.drop "account".length).take (email.length - "account".length - "@example.com".length))

/-- `^acc(_|-)?\d+$` -/
def isFixtureAccountId (accountId : String) : Bool :=
  "acc".toList.isPrefixOf accountId.toList &&
    match accountId.toList.drop "acc".length with
    | '_' :: rest => isNumeral rest
    | '-' :: rest => isNumeral rest
    | rest => isNumeral rest

def looksLikeSyntheticFixtureAccount (account : AccountMetadataV3) : Bool :=
  let field := fun value : Option String => (value.map (fun text => Host.toLowerCase (trim text))).getD ""
  let accountId := field account.accountId
  isFixtureEmail (field account.email) && "fake_refresh".toList.isPrefixOf (field account.refreshToken).toList &&
    (decide (accountId = "") || isFixtureAccountId accountId)

def looksLikeSyntheticFixtureStorage (storage : AccountStorageV3) : Bool :=
  !storage.accounts.isEmpty && storage.accounts.all looksLikeSyntheticFixtureAccount

/-- The documents that the account storage holds. -/
def accountDocuments : Kind AccountStorageV3 where
  empty := emptyStorage
  hasAccounts storage := !storage.accounts.isEmpty
  looksLikeSyntheticFixtureStorage := looksLikeSyntheticFixtureStorage
  empty_genuine := rfl

end

end CodexMultiAuth.AccountFiles
