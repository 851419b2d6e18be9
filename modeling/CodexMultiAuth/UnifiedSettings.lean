import CodexMultiAuth.Json
import CodexMultiAuth.Exclusive

/-!
The settings file with its two sections and its backup. A save holds the file's lock,
reads the whole record, sets its section and renames a new file into place; the
backup is a copy of the file from before. A file that is no JSON object is corrupt.

The requests that rename carry which section was set to what, for the account of the
saves that took effect.
-/
namespace CodexMultiAuth.UnifiedSettings
open Exclusive (Task safe)
open Dialogue (Program)

/-- What a file operation fails with. `ENOENT` is how a read or a `stat` answers for a file that
    is not there, which is no failure here; in any other operation it is `other`. -/
inductive Code where
  | EBUSY
  | EPERM
  | EACCES
  | EAGAIN
  | ESTALE
  | other
  deriving DecidableEq

def RETRYABLE_FS_CODES : List Code := [.EBUSY,.EPERM]
def TRANSIENT_READ_FS_CODES : List Code := [.EBUSY,.EAGAIN]

inductive Failure where
  | fs (code : Code)
  | invalidSettingsRecord
  deriving DecidableEq

/-- A record, or nothing where the file is corrupt. -/
abbrev Contents := Option Record

structure SettingsFile where
  contents : Contents
  mtime : ℕ

structure Disk where
  settings : Option SettingsFile
  backup : Option Contents
  temp : Option Record
  /-- The saves that took effect, in order. -/
  saved : List (String × Record)
  /-- Whether a corrupt primary was copied over a valid backup. -/
  spoiled : Bool

namespace Disk

def corrupt (disk : Disk) : Prop := disk.settings.map SettingsFile.contents = some none
def validBackup (disk : Disk) : Prop := ∃ record, disk.backup = some (some record)

/-- The record of a settings file that is there and not corrupt. -/
def record (disk : Disk) : Option Record := disk.settings.bind SettingsFile.contents

instance (disk : Disk) : Decidable disk.corrupt :=
  match h : disk.settings with
  | none => isFalse (by simp [corrupt,h])
  | some ⟨none,_⟩ => isTrue (by simp [corrupt,h])
  | some ⟨some _,_⟩ => isFalse (by simp [corrupt,h])

instance (disk : Disk) : Decidable disk.validBackup :=
  match h : disk.backup with
  | none => isFalse (by simp [validBackup,h])
  | some none => isFalse (by simp [validBackup,h])
  | some (some record) => isTrue ⟨record,h⟩

end Disk

inductive SettingsPath where
  | primary
  | backup

inductive Request where
  | stat
  | existsPrimary
  | read (path : SettingsPath)
  | mkdir
  | copyToBackup
  | writeTemp (record : Record)
  | renameTemp (section_ : String) (value : Record)
  | unlinkTemp

abbrev Answer : Request → Type
  | .stat => Except Code (Option ℕ)
  | .existsPrimary => Bool
  | .read _ => Except Code (Option Contents)
  | .mkdir => Except Code Unit
  | .copyToBackup => Except Code Unit
  | .writeTemp _ => Except Code Unit
  | .renameTemp _ _ => Except Code Unit
  | .unlinkTemp => Except Code Unit

/-- A copy that fails may have begun. A new file has a date. -/
inductive Input where
  | works (mtime : ℕ)
  | fails (code : Code) (begun : Bool)

def copied (disk : Disk) (contents : Contents) : Disk :=
  { disk with backup := some contents,spoiled := disk.spoiled || (decide disk.corrupt && decide disk.validBackup) }

def respond (disk : Disk) : (request : Request) → Input → Disk × Answer request
  | .stat,.works _ => (disk,.ok (disk.settings.map SettingsFile.mtime))
  | .stat,.fails code _ => (disk,.error code)
  | .existsPrimary,.works _ => (disk,disk.settings.isSome)
  | .existsPrimary,.fails _ _ => (disk,false)
  | .read .primary,.works _ => (disk,.ok (disk.settings.map SettingsFile.contents))
  | .read .backup,.works _ => (disk,.ok disk.backup)
  | .read _,.fails code _ => (disk,.error code)
  | .mkdir,.works _ => (disk,.ok ())
  | .mkdir,.fails code _ => (disk,.error code)
  | .copyToBackup,.works _ =>
    match disk.settings with
    | none => (disk,.error .other)
    | some file => (copied disk file.contents,.ok ())
  | .copyToBackup,.fails code begun => (if begun then copied disk none else disk,.error code)
  | .writeTemp record,.works _ => ({ disk with temp := some record },.ok ())
  | .writeTemp _,.fails code _ => ({ disk with temp := none },.error code)
  | .renameTemp section_ value,.works mtime =>
    match disk.temp with
    | none => (disk,.error .other)
    | some record => ({ disk with settings := some ⟨some record,mtime⟩,temp := none,saved := disk.saved ++ [(section_,value)] },.ok ())
  | .renameTemp _ _,.fails code _ => (disk,.error code)
  | .unlinkTemp,.works _ => ({ disk with temp := none },.ok ())
  | .unlinkTemp,.fails code _ => (disk,.error code)

abbrev Settings (α : Type) := Task Failure Answer α

def orThrow {α : Type} (answer : Except Code α) : Settings α :=
  match answer with
  | .ok value => pure value
  | .error code => throw (.fs code)

def getUnifiedSettingsMtimeMs : Settings (Option ℕ) := do
  let answer ← Task.ask .stat
  orThrow answer

def parseSettingsRecord (contents : Option Contents) : Settings (Option Record) :=
  match contents with
  | none => pure none
  | some none => throw .invalidSettingsRecord
  | some (some record) => pure (some record)

def readSettingsRecordAsyncFromPath (path : SettingsPath) : Settings (Option Record) := do
  let answer ← Task.ask (.read path)
  let contents ← orThrow answer
  parseSettingsRecord contents

def readSettingsBackupAsync : Settings (Option Record) :=
  tryCatch (readSettingsRecordAsyncFromPath .backup) (fun error =>
    if error = .invalidSettingsRecord then pure none else throw error)

def shouldFallbackToSettingsBackup (primaryExists : Bool) (error : Failure) : Bool :=
  primaryExists &&
    match error with
    | .fs code => !TRANSIENT_READ_FS_CODES.contains code
    | _ => true

/-- The record, and whether it is the backup's. -/
def readSettingsRecordAsyncInternal : Settings (Option Record × Bool) := do
  let primaryExists ← Task.ask .existsPrimary
  tryCatch
    (do
      let primaryRecord ← readSettingsRecordAsyncFromPath .primary
      pure (primaryRecord,false))
    (fun error =>
      if shouldFallbackToSettingsBackup primaryExists error = false then throw error
      else do
        let backupRecord ← readSettingsBackupAsync
        match backupRecord with
        | some record => pure (some record,true)
        | none => if error = .invalidSettingsRecord then pure (none,false) else throw error)

def normalizeForWrite (record : Record) : Record := OrderedMap.put record "version" (.num 1)

def copyAttempts : ℕ → Settings Unit
  | 0 => pure ()
  | later + 1 => do
    let answer : Except Code Unit ← Task.ask Request.copyToBackup
    match answer with
    | .ok _ => pure ()
    | .error code => if RETRYABLE_FS_CODES.contains code then copyAttempts later else pure ()

def trySnapshotUnifiedSettingsBackupAsync (skipBecauseBackupRead : Bool) : Settings Unit :=
  if skipBecauseBackupRead then pure ()
  else do
    let present ← Task.ask .existsPrimary
    if present then copyAttempts 5 else pure ()

def renameAttempts (section_ : String) (value : Record) : ℕ → Settings Unit
  | 0 => pure ()
  | later + 1 => do
    let answer : Except Code Unit ← Task.ask (Request.renameTemp section_ value)
    match answer with
    | .ok _ => pure ()
    | .error code => if RETRYABLE_FS_CODES.contains code ∧ later ≠ 0 then renameAttempts section_ value later else throw (.fs code)

def moveIntoPlace (section_ : String) (value : Record) (expectedMtimeMs : Option ℕ) : Settings Unit := do
  let currentMtimeMs ← getUnifiedSettingsMtimeMs
  if currentMtimeMs ≠ expectedMtimeMs then throw (.fs .ESTALE) else renameAttempts section_ value 5

/-- The temporary file is removed where it was not moved. -/
def writeSettingsRecordAsync (section_ : String) (value record : Record) (skipBackupSnapshot : Bool) (expectedMtimeMs : Option ℕ) : Settings Unit := do
  let made ← Task.ask .mkdir
  orThrow made
  trySnapshotUnifiedSettingsBackupAsync skipBackupSnapshot
  let written ← Task.ask (.writeTemp (normalizeForWrite record))
  orThrow written
  tryCatch (moveIntoPlace section_ value expectedMtimeMs) (fun error => do
    let _ ← Task.ask .unlinkTemp
    throw error)

def saveAttempts (section_ : String) (value : Record) : ℕ → Option ℕ → Option Record → Bool → Settings Unit
  | 0,_,_,_ => pure ()
  | later + 1,expectedMtimeMs,record,usedBackup =>
    tryCatch (writeSettingsRecordAsync section_ value (OrderedMap.put (record.getD []) section_ (.obj value)) usedBackup expectedMtimeMs) (fun error =>
      if error ≠ .fs .ESTALE ∨ later = 0 then throw error
      else do
        let expectedMtimeMs ← getUnifiedSettingsMtimeMs
        let (record,usedBackup) ← readSettingsRecordAsyncInternal
        saveAttempts section_ value later expectedMtimeMs record usedBackup)

def saveSection (section_ : String) (value : Record) : Settings Unit := do
  let expectedMtimeMs ← getUnifiedSettingsMtimeMs
  let (record,usedBackup) ← readSettingsRecordAsyncInternal
  saveAttempts section_ value 3 expectedMtimeMs record usedBackup

def saveUnifiedPluginConfig (pluginConfig : Record) : Settings Unit := saveSection "pluginConfig" pluginConfig
def saveUnifiedDashboardSettings (dashboardDisplaySettings : Record) : Settings Unit := saveSection "dashboardDisplaySettings" dashboardDisplaySettings

inductive Save where
  | pluginConfig (value : Record)
  | dashboardDisplaySettings (value : Record)

def Save.section_ : Save → String
  | .pluginConfig _ => "pluginConfig"
  | .dashboardDisplaySettings _ => "dashboardDisplaySettings"

def Save.value : Save → Record
  | .pluginConfig value => value
  | .dashboardDisplaySettings value => value

def Save.program : Save → Program Answer (Except Failure Unit)
  | .pluginConfig value => (saveUnifiedPluginConfig value).run
  | .dashboardDisplaySettings value => (saveUnifiedDashboardSettings value).run

end CodexMultiAuth.UnifiedSettings
