import CodexMultiAuth.AccountFiles
import CodexMultiAuth.Idempotence
import CodexMultiAuth.Runs

/-!
Loads of any number of processes, which read outside the storage lock, among saves
and clears, which hold it. A load may save in turn: a pool that it read in an older
version, one that it recovered from the journal or a backup, or the pool that it read
merged with a legacy one. It decides on that by reads that may be out of date, or may
have failed, by the time it has the lock.
-/
namespace CodexMultiAuth.AccountLoads
open AccountFiles

variable {Pool : Type}

/-- How far a load has come. -/
inductive Phase (Pool : Type) where
  /-- Reads the primary as the target of the migration. -/
  | current
  | legacy (slot : ℕ) (target : Option Pool) (migrated : Bool)
  /-- Waits for the lock to save the target merged with a legacy pool. -/
  | merging (slot : ℕ) (target : Option Pool) (legacy : Pool) (migrated : Bool)
  | unlinkLegacy (slot : ℕ) (merged : Pool)
  | primary (migrated : Bool)
  /-- The primary could not be read; `missing` when it was not there. -/
  | unread (missing migrated : Bool)
  | journal
  | journalRead (entry : Option Pool)
  | noJournal
  | backup (slot : ℕ)
  /-- The primary has been read, and saved in the present version. -/
  | loaded (pool : Pool)
  /-- Looks for a backup to take the place of a primary that looks like a fixture. -/
  | promoting (slot : ℕ)
  | waiting (pool : Pool) (next : Phase Pool)
  | saving
  | returned

/-- What holds the lock: its file steps, the pool that the files have after them, and the pool that they should have. -/
structure Job (Pool : Type) where
  steps : List (FileStep Pool)
  pool : Option Pool
  goal : Option Pool
  /-- The load that saves, and how it goes on. -/
  load : Option (ℕ × Phase Pool)

structure System (Pool : Type) where
  disk : Disk Pool
  /-- The primary is of an older version. -/
  outdated : Bool
  legacy : List (Option Pool)
  /-- The pool of the last save or clear that completed, with the legacy pools that were added since. -/
  current : Option Pool
  holder : Option (Job Pool)
  loads : ℕ → Option (Phase Pool)

inductive Action (Pool : Type) where
  | save (pool : Pool) (renamed : ℕ)
  | clear
  /-- The next file step under the lock. -/
  | work
  | release
  | load (process : ℕ)
  /-- The next step of a load; a read of the primary or of a legacy pool, or an unlink, may fail. -/
  | advance (process : ℕ) (fails : Bool)
  | acquire (process : ℕ) (renamed : ℕ)

/-- The pool that the files hold: none where there is no primary, or it is marked as reset. -/
def onDisk (disk : Disk Pool) : Option Pool := if disk.resetMarker then none else disk.primary.bind File.read

section
variable (kind : Kind Pool) (storageBackupEnabled : Bool) (mergeStorageForMigration : Option Pool → Pool → Pool)

def saveSteps (renamed : ℕ) (pool : Pool) : List (FileStep Pool) := (preparation ++ saveLines storageBackupEnabled renamed pool).map Line.step

/-- What is renamed over the primary is of the present version. -/
def replacesPrimary : FileStep Pool → Bool
  | .renameTempToPath => true
  | _ => false

def clearSteps (disk : Disk Pool) : List (FileStep Pool) := (clearLines disk).map Line.step

/-- The next phase of a load whose read of the primary, or of a legacy pool, may fail. -/
def nextPhase (s : System Pool) (fails : Bool) : Phase Pool → Phase Pool
  | .current => .legacy 0 (if fails then none else s.disk.primary.bind File.read) false
  | .legacy slot target migrated =>
    match s.legacy[slot]? with
    | none => .primary (migrated || target.isSome && s.disk.primary.isNone)
    | some legacy =>
      match legacy.filter (fun _ => !fails) with
      | none => .legacy (slot + 1) target migrated
      | some pool => .merging slot target pool migrated
  | .unlinkLegacy slot merged => .legacy (slot + 1) (some merged) true
  | .primary migrated =>
    match s.disk.primary with
    | none => .unread true migrated
    | some file =>
      match file.read.filter (fun _ => !fails) with
      | none => .unread false migrated
      | some pool => if s.outdated then .waiting pool (.loaded pool) else .loaded pool
  | .unread missing migrated => if s.disk.resetMarker || missing && migrated then .returned else .journal
  | .journal => if s.disk.resetMarker then .noJournal else .journalRead (s.disk.journal.bind File.read)
  | .journalRead entry =>
    match entry with
    | none => .noJournal
    | some pool => if s.disk.resetMarker then .noJournal else .waiting pool .returned
  | .noJournal => if s.disk.resetMarker || !storageBackupEnabled then .returned else .backup 0
  | .backup slot =>
    match s.disk.backups[slot]? with
    | none => .returned
    | some backup =>
      match backup.bind File.read with
      | none => .backup (slot + 1)
      | some pool => .waiting pool .returned
  | .loaded pool =>
    if s.disk.resetMarker || !kind.hasAccounts pool || !(storageBackupEnabled && kind.looksLikeSyntheticFixtureStorage pool) then .returned
    else .promoting 0
  | .promoting slot =>
    match s.disk.backups[slot]? with
    | none => .returned
    | some backup =>
      match (backup.bind File.read).filter (fun pool => !kind.looksLikeSyntheticFixtureStorage pool && kind.hasAccounts pool) with
      | none => .promoting (slot + 1)
      | some pool => .waiting pool .returned
  | .merging slot target legacy migrated => .merging slot target legacy migrated
  | .waiting pool next => .waiting pool next
  | .saving => .saving
  | .returned => .returned

def System.setLoad (s : System Pool) (process : ℕ) (phase : Phase Pool) : System Pool :=
  { s with loads := fun other => if other = process then some phase else s.loads other }

/-- Takes the lock for a save, unless the save is refused. -/
def System.begin (s : System Pool) (renamed : ℕ) (pool : Pool) (goal : Option Pool) (load : Option (ℕ × Phase Pool)) : System Pool :=
  { s with holder := some ⟨saveSteps storageBackupEnabled renamed pool,some pool,goal,load⟩ }

def step (s : System Pool) : Action Pool → System Pool
  | .save pool renamed => if refuses kind pool s.disk then s else s.begin storageBackupEnabled renamed pool (some pool) none
  | .clear => { s with holder := some ⟨clearSteps s.disk,none,none,none⟩ }
  | .work =>
    match s.holder with
    | some ⟨first :: rest,pool,goal,load⟩ =>
      { s with
        disk := first.apply s.disk
        outdated := s.outdated && !replacesPrimary first
        holder := some ⟨rest,pool,goal,load⟩ }
    | _ => s
  | .release =>
    match s.holder with
    | some job =>
      let free : System Pool := { s with current := job.goal,holder := none }
      match job.load with
      | none => free
      | some (process,next) => free.setLoad process next
    | none => s
  | .load process => s.setLoad process (if s.legacy.all Option.isNone then .primary false else .current)
  | .advance process fails =>
    match s.loads process with
    | some (.unlinkLegacy slot merged) =>
      ({ s with legacy := if fails then s.legacy else s.legacy.set slot none } : System Pool).setLoad process
        (nextPhase kind storageBackupEnabled s fails (.unlinkLegacy slot merged))
    | some phase => s.setLoad process (nextPhase kind storageBackupEnabled s fails phase)
    | none => s
  | .acquire process renamed =>
    match s.loads process with
    | some (.waiting pool next) =>
      if refuses kind pool s.disk then s.setLoad process next
      else (s.setLoad process .saving).begin storageBackupEnabled renamed pool s.current (some (process,next))
    | some (.merging slot target legacy migrated) =>
      let merged := mergeStorageForMigration target legacy
      if refuses kind merged s.disk then s.setLoad process (.legacy (slot + 1) (some (target.getD legacy)) migrated)
      else
        (s.setLoad process .saving).begin storageBackupEnabled renamed merged (some (mergeStorageForMigration s.current legacy))
          (some (process,.unlinkLegacy slot merged))
    | _ => s

def enabled (s : System Pool) : Action Pool → Prop
  | .save _ _ => s.holder = none
  | .clear => s.holder = none
  | .work => ∃ first rest pool goal load, s.holder = some ⟨first :: rest,pool,goal,load⟩
  | .release => ∃ pool goal load, s.holder = some ⟨[],pool,goal,load⟩
  | .load process => s.loads process = none ∨ s.loads process = some .returned
  | .advance process _ => ∃ phase, s.loads process = some phase
  | .acquire process _ => s.holder = none ∧ ∃ phase, s.loads process = some phase

/-- The files hold the pool of the last save or clear that completed; while the lock
    is held, its holder writes the pool that is to come. -/
def Kept (s : System Pool) : Prop :=
  match s.holder with
  | none => onDisk s.disk = s.current
  | some job => job.pool = job.goal

/-- A load that takes the lock saves the pool that is current, with the legacy pool added. -/
def SavesCurrent (s : System Pool) : Action Pool → Prop
  | .acquire process _ =>
    (∀ pool next, s.loads process = some (.waiting pool next) → refuses kind pool s.disk = false → s.current = some pool) ∧
    ∀ slot target legacy migrated, s.loads process = some (.merging slot target legacy migrated) →
      refuses kind (mergeStorageForMigration target legacy) s.disk = false →
        mergeStorageForMigration target legacy = mergeStorageForMigration s.current legacy
  | _ => True

/-- What a load has read and may yet save. -/
def Phase.copy : Phase Pool → Option (Option Pool)
  | .legacy _ target _ | .merging _ target _ _ => some target
  | .unlinkLegacy _ merged => some (some merged)
  | .journalRead (some pool) | .waiting pool _ => some (some pool)
  | _ => none

/-- Loads read the primary, where they may save what they read, while the lock is free and it is
    not marked as reset, and take from the journal and the backups only what is current; no save is
    refused, and no one settles another pool while a load has a copy of the primary. -/
def ReadsCurrent (s : System Pool) : Action Pool → Prop
  | .advance process fails =>
    match s.loads process with
    | some .current => fails = false ∧ s.holder = none ∧ s.disk.resetMarker = false
    | some (.primary _) => s.outdated = true → s.holder = none ∧ s.disk.resetMarker = false
    | some .journal => ∀ pool, s.disk.journal.bind File.read = some pool → s.current = some pool
    | some (.backup slot) | some (.promoting slot) =>
      ∀ backup pool, s.disk.backups[slot]? = some backup → backup.bind File.read = some pool → s.current = some pool
    | _ => True
  | .acquire process _ => ∀ slot target legacy migrated, s.loads process = some (.merging slot target legacy migrated) →
      refuses kind (mergeStorageForMigration target legacy) s.disk = false
  | .release => ∀ job, s.holder = some job → job.goal = s.current ∨ ∀ process phase, s.loads process = some phase → phase.copy = none
  | _ => True

/-- The lock is free, no load is under way, and the files hold what was saved. -/
structure Start (s : System Pool) : Prop where
  free : s.holder = none
  idle : ∀ process, s.loads process = none
  saved : onDisk s.disk = s.current

end

def applyAll (steps : List (FileStep Pool)) (disk : Disk Pool) : Disk Pool := steps.foldl (fun disk step => step.apply disk) disk

theorem onDisk_saveSteps (storageBackupEnabled : Bool) (renamed : ℕ) (pool : Pool) (disk : Disk Pool) :
    onDisk (applyAll (saveSteps storageBackupEnabled renamed pool) disk) = some pool := by
  cases storageBackupEnabled <;>
    simp [applyAll,saveSteps,preparation,saveLines,required,bestEffort,FileStep.apply,onDisk,File.read]

theorem onDisk_clearSteps (disk : Disk Pool) : onDisk (applyAll (clearSteps disk) disk) = none := by
  have kept : ∀ (slots : List ℕ) (marked : Disk Pool), marked.resetMarker = true →
      (applyAll (slots.map FileStep.clearBackup) marked).resetMarker = true := by
    intro slots
    induction slots with
    | nil => exact fun marked mark => mark
    | cons slot rest ih => exact fun marked mark => ih _ mark
  have steps : clearSteps disk = [.writeResetMarker,.clearPrimary,.clearWal] ++ (List.range disk.backups.length).map FileStep.clearBackup := by
    simp [clearSteps,clearLines,required,bestEffort]
  have marked := kept (List.range disk.backups.length) (applyAll [.writeResetMarker,.clearPrimary,.clearWal] disk) rfl
  rw [steps,applyAll,List.foldl_append,onDisk]
  exact if_pos marked

section
variable {kind : Kind Pool} {storageBackupEnabled : Bool} {mergeStorageForMigration : Option Pool → Pool → Pool}

/-- The holder of the lock writes what is to come, and the rest of its steps does so. -/
def Good (s : System Pool) : Prop :=
  match s.holder with
  | none => onDisk s.disk = s.current
  | some job => job.pool = job.goal ∧ onDisk (applyAll job.steps s.disk) = job.pool

variable {s : System Pool}

theorem Good.kept (good : Good s) : Kept s := by
  unfold Good at good
  unfold Kept
  cases held : s.holder with
  | none => rw [held] at good; exact good
  | some job => rw [held] at good; exact good.1

theorem good_of_free (free : s.holder = none) (saved : onDisk s.disk = s.current) : Good s := by
  rw [Good,free]; exact saved

theorem good_of_held {job : Job Pool} (held : s.holder = some job) (right : job.pool = job.goal)
    (writes : onDisk (applyAll job.steps s.disk) = job.pool) : Good s := by
  rw [Good,held]; exact ⟨right,writes⟩

theorem Good.of_same {s t : System Pool} (good : Good s) (disk : t.disk = s.disk) (current : t.current = s.current) (holder : t.holder = s.holder) :
    Good t := by
  unfold Good at good ⊢
  rw [disk,current,holder]
  exact good

theorem good_begin (s : System Pool) (renamed : ℕ) {pool : Pool} {goal : Option Pool} (right : some pool = goal) (load : Option (ℕ × Phase Pool)) :
    Good (s.begin storageBackupEnabled renamed pool goal load) :=
  good_of_held rfl right (onDisk_saveSteps _ _ _ _)

variable {action : Action Pool}

theorem good_step (may : enabled s action) (good : Good s)
    (current : SavesCurrent kind mergeStorageForMigration s action) :
    Good (step kind storageBackupEnabled mergeStorageForMigration s action) := by
  cases action with
  | save pool renamed =>
    rw [step]
    split
    · exact good
    · exact good_begin s renamed rfl none
  | clear => exact good_of_held rfl rfl (onDisk_clearSteps s.disk)
  | work =>
    obtain ⟨first,rest,pool,goal,load,held⟩ := may
    rw [Good,held] at good
    rw [step,held]
    exact good_of_held rfl good.1 good.2
  | release =>
    obtain ⟨pool,goal,load,held⟩ := may
    rw [Good,held] at good
    have saved : onDisk s.disk = goal := good.2.trans good.1
    rw [step,held]
    cases load with
    | none => exact good_of_free rfl saved
    | some next => exact good_of_free rfl saved
  | load process => exact good.of_same rfl rfl rfl
  | advance process fails =>
    rw [step]
    split
    · exact good.of_same rfl rfl rfl
    · exact good.of_same rfl rfl rfl
    · exact good
  | acquire process renamed =>
    rw [step]
    split
    · next pool next waits =>
      split
      · exact good.of_same rfl rfl rfl
      · next allowed => exact good_begin _ renamed (current.1 pool next waits (by simpa using allowed)).symm _
    · next slot target legacy migrated waits =>
      simp only
      split
      · exact good.of_same rfl rfl rfl
      · next allowed =>
        exact good_begin _ renamed (congrArg some (current.2 slot target legacy migrated waits (by simpa using allowed))) _
    · exact good

theorem savesCurrent_of_kept
    (kept : Kept (step kind storageBackupEnabled mergeStorageForMigration s action)) : SavesCurrent kind mergeStorageForMigration s action := by
  cases action with
  | acquire process renamed =>
    rw [step] at kept
    constructor
    · intro pool next waits allowed
      rw [waits] at kept
      simp only [allowed,Bool.false_eq_true,if_false] at kept
      exact kept.symm
    · intro slot target legacy migrated waits allowed
      rw [waits] at kept
      simp only [allowed,Bool.false_eq_true,if_false] at kept
      exact Option.some.inj kept
  | _ => trivial

/-! #### Copies -/

/-- What the load may save is this pool, and it goes on without a copy once it has saved. -/
structure Phase.Current (current : Option Pool) (phase : Phase Pool) : Prop where
  copy : ∀ copy, phase.copy = some copy → copy = current
  next : ∀ pool next, phase = .waiting pool next → next.copy = none

variable {phase : Phase Pool} {current : Option Pool}

theorem Phase.current_of_none (bare : phase.copy = none) : phase.Current current where
  copy copy carried := by simp [bare] at carried
  next pool next waiting := by simp [waiting,Phase.copy] at bare

theorem Phase.current_legacy {slot : ℕ} {migrated : Bool} {target : Option Pool} (same : target = current) :
    (Phase.legacy slot target migrated).Current current where
  copy copy carried := by rw [← Option.some.inj carried]; exact same
  next pool next waiting := by cases waiting

theorem Phase.current_waiting {pool : Pool} {next : Phase Pool} (same : current = some pool) (bare : next.copy = none) :
    (Phase.waiting pool next).Current current where
  copy copy carried := by rw [← Option.some.inj carried]; exact same.symm
  next other then_ waiting := by cases waiting; exact bare

/-- Every copy that a load has is current; a load that has the lock goes on with what it settles. -/
structure Copies (s : System Pool) : Prop where
  good : Good s
  loads : ∀ process phase, s.loads process = some phase → phase.Current s.current
  next : ∀ job process phase, s.holder = some job → job.load = some (process,phase) → phase.Current job.goal

theorem Start.copies (fresh : Start s) : Copies s where
  good := good_of_free fresh.free fresh.saved
  loads process phase under_way := by simp [fresh.idle process] at under_way
  next job process phase held := by simp [fresh.free] at held

theorem Copies.savesCurrent (copies : Copies s) : SavesCurrent kind mergeStorageForMigration s action := by
  cases action with
  | acquire process renamed =>
    constructor
    · intro pool next waits _
      exact ((copies.loads process _ waits).copy _ rfl).symm
    · intro slot target legacy migrated waits _
      rw [(copies.loads process _ waits).copy _ rfl]
  | _ => trivial

theorem current_setLoad (loads : ∀ process phase, s.loads process = some phase → phase.Current current) {process : ℕ}
    (here : phase.Current current) : ∀ other found, (s.setLoad process phase).loads other = some found → found.Current current := by
  intro other found under_way
  simp only [System.setLoad] at under_way
  split at under_way
  · exact Option.some.inj under_way ▸ here
  · exact loads other found under_way

theorem Good.read (good : Good s) (free : s.holder = none) (unmarked : s.disk.resetMarker = false) :
    s.disk.primary.bind File.read = s.current := by
  rw [Good,free] at good
  simpa [onDisk,unmarked] using good

theorem Copies.nextPhase (copies : Copies s) {process : ℕ} {fails : Bool} (under_way : s.loads process = some phase)
    (reads : ReadsCurrent kind mergeStorageForMigration s (.advance process fails)) :
    (nextPhase kind storageBackupEnabled s fails phase).Current s.current := by
  have here := copies.loads process phase under_way
  rw [ReadsCurrent,under_way] at reads
  cases phase with
  | current =>
    obtain ⟨rfl,free,unmarked⟩ := reads
    exact Phase.current_legacy (copies.good.read free unmarked)
  | legacy slot target migrated =>
    have same := here.copy _ rfl
    simp only [AccountLoads.nextPhase]
    split
    · exact Phase.current_of_none rfl
    · split
      · exact Phase.current_legacy same
      · exact ⟨here.copy,by simp⟩
  | unlinkLegacy slot merged => exact Phase.current_legacy (here.copy _ rfl)
  | primary migrated =>
    simp only [AccountLoads.nextPhase]
    split
    · exact Phase.current_of_none rfl
    · next file found =>
      split
      · exact Phase.current_of_none rfl
      · next pool read =>
        split
        · next outdated =>
          obtain ⟨free,unmarked⟩ := reads outdated
          have read := (Option.filter_eq_some_iff.mp read).1
          refine Phase.current_waiting ?_ rfl
          rw [← copies.good.read free unmarked,found]
          exact read
        · exact Phase.current_of_none rfl
  | unread missing migrated =>
    simp only [AccountLoads.nextPhase]
    split <;> exact Phase.current_of_none rfl
  | journal =>
    simp only [AccountLoads.nextPhase]
    split
    · exact Phase.current_of_none rfl
    · cases read : s.disk.journal.bind File.read with
      | none => exact Phase.current_of_none rfl
      | some pool => exact ⟨fun copy carried => by rw [← Option.some.inj carried]; exact (reads pool read).symm,by simp⟩
  | journalRead entry =>
    cases entry with
    | none => exact Phase.current_of_none rfl
    | some pool =>
      simp only [AccountLoads.nextPhase]
      split
      · exact Phase.current_of_none rfl
      · exact Phase.current_waiting (here.copy _ rfl).symm rfl
  | noJournal =>
    simp only [AccountLoads.nextPhase]
    split <;> exact Phase.current_of_none rfl
  | backup slot =>
    simp only [AccountLoads.nextPhase]
    split
    · exact Phase.current_of_none rfl
    · next backup found =>
      split
      · exact Phase.current_of_none rfl
      · next pool read => exact Phase.current_waiting (reads backup pool found read) rfl
  | loaded pool =>
    simp only [AccountLoads.nextPhase]
    split <;> exact Phase.current_of_none rfl
  | promoting slot =>
    simp only [AccountLoads.nextPhase]
    split
    · exact Phase.current_of_none rfl
    · next backup found =>
      split
      · exact Phase.current_of_none rfl
      · next pool read => exact Phase.current_waiting (reads backup pool found (Option.filter_eq_some_iff.mp read).1) rfl
  | merging slot target legacy migrated => exact here
  | waiting pool next => exact here
  | saving => exact here
  | returned => exact here

theorem Copies.step (copies : Copies s) (may : enabled s action)
    (reads : ReadsCurrent kind mergeStorageForMigration s action) :
    Copies (step kind storageBackupEnabled mergeStorageForMigration s action) := by
  have good : Good (AccountLoads.step kind storageBackupEnabled mergeStorageForMigration s action) :=
    good_step may copies.good copies.savesCurrent
  revert good
  cases action with
  | save pool renamed =>
    rw [AccountLoads.step]
    split
    · exact fun _ => copies
    · exact fun good => ⟨good,copies.loads,fun job process phase held => by cases held; simp⟩
  | clear => exact fun good => ⟨good,copies.loads,fun job process phase held => by cases held; simp⟩
  | work =>
    obtain ⟨first,rest,pool,goal,load,held⟩ := may
    rw [AccountLoads.step,held]
    refine fun good => ⟨good,copies.loads,?_⟩
    rintro job process phase ⟨rfl⟩ goes
    exact copies.next ⟨first :: rest,pool,goal,load⟩ process phase held goes
  | release =>
    obtain ⟨pool,goal,load,held⟩ := may
    have others : ∀ process phase, s.loads process = some phase → phase.Current goal := by
      intro process phase under_way
      rcases reads _ held with same | bare
      · rw [show goal = s.current from same]
        exact copies.loads process phase under_way
      · exact Phase.current_of_none (bare process phase under_way)
    rw [AccountLoads.step,held]
    cases load with
    | none => exact fun good => ⟨good,others,by simp⟩
    | some next =>
      have later := copies.next _ next.1 next.2 held rfl
      exact fun good => ⟨good,current_setLoad others later,by simp [System.setLoad]⟩
  | load process =>
    refine fun good => ⟨good,current_setLoad copies.loads (Phase.current_of_none ?_),copies.next⟩
    split <;> rfl
  | advance process fails =>
    have next : ∀ phase, s.loads process = some phase → (AccountLoads.nextPhase kind storageBackupEnabled s fails phase).Current s.current :=
      fun phase under_way => copies.nextPhase under_way reads
    rw [AccountLoads.step]
    split
    · next slot merged under_way => exact fun good => ⟨good,current_setLoad copies.loads (next _ under_way),copies.next⟩
    · next phase _ under_way => exact fun good => ⟨good,current_setLoad copies.loads (next _ under_way),copies.next⟩
    · exact fun _ => copies
  | acquire process renamed =>
    rw [AccountLoads.step]
    split
    · next pool next waits =>
      have bare : next.copy = none := (copies.loads process _ waits).next _ _ rfl
      split
      · exact fun good => ⟨good,current_setLoad copies.loads (Phase.current_of_none bare),copies.next⟩
      · refine fun good => ⟨good,current_setLoad copies.loads (Phase.current_of_none rfl),?_⟩
        rintro _ other phase ⟨rfl⟩ ⟨rfl⟩
        exact Phase.current_of_none bare
    · next slot target legacy migrated waits =>
      have same := (copies.loads process _ waits).copy _ rfl
      simp only [reads slot target legacy migrated waits,Bool.false_eq_true,if_false]
      refine fun good => ⟨good,current_setLoad copies.loads (Phase.current_of_none rfl),?_⟩
      rintro _ other phase ⟨rfl⟩ ⟨rfl⟩
      exact ⟨fun copy carried => by rw [← Option.some.inj carried,same],by simp⟩
    · exact fun _ => copies

theorem savesCurrent_of_reads {actions : List (Action Pool)} (fresh : Start s)
    (legal : Runs.Legal (step kind storageBackupEnabled mergeStorageForMigration) enabled s actions)
    (reads : Runs.Legal (step kind storageBackupEnabled mergeStorageForMigration) (ReadsCurrent kind mergeStorageForMigration) s actions) :
    Runs.Legal (step kind storageBackupEnabled mergeStorageForMigration) (SavesCurrent kind mergeStorageForMigration) s actions :=
  Runs.Legal.of_invariant (fun _ _ may copies => copies.step may.1 may.2) (fun _ _ _ copies _ => copies.savesCurrent) fresh.copies
    (legal.and reads) (legal.and reads)

/-- Loads keep what was saved just when each that saves writes the pool that is current by then,
    and that is so where their reads are of what is current. -/
theorem loads_keep_iff {start : System Pool} {actions : List (Action Pool)} (fresh : Start start)
    (legal : Runs.Legal (step kind storageBackupEnabled mergeStorageForMigration) enabled start actions) :
    (Runs.Along (step kind storageBackupEnabled mergeStorageForMigration) Kept start actions ↔
      Runs.Legal (step kind storageBackupEnabled mergeStorageForMigration) (SavesCurrent kind mergeStorageForMigration) start actions) ∧
      (Runs.Legal (step kind storageBackupEnabled mergeStorageForMigration) (ReadsCurrent kind mergeStorageForMigration) start actions →
        Runs.Along (step kind storageBackupEnabled mergeStorageForMigration) Kept start actions) := by
  have equiv := Runs.along_iff_legal (fun s (good : Good s) => good.kept) (fun _ _ may good current => good_step may good current)
    (fun _ _ _ _ kept => savesCurrent_of_kept kept) legal (good_of_free fresh.free fresh.saved)
  exact ⟨equiv,fun reads => equiv.mpr (savesCurrent_of_reads fresh legal reads)⟩

end

section
variable [Host]

/-- The pool with the accounts of a legacy one. The pin follows the account that it was on. -/
def mergeStorageForMigration (now : ℚ) (current : Option AccountStorageV3) (incoming : AccountStorageV3) : AccountStorageV3 :=
  match current with
  | none => incoming
  | some current =>
    let both : AccountStorageV3 := {
      accounts := current.accounts ++ incoming.accounts
      activeIndex := current.activeIndex
      activeIndexByFamily := current.activeIndexByFamily
      pinnedAccountIndex := current.pinnedAccountIndex
      fields := OrderedMap.assign [("version",.num 3)] "affinityGeneration" (OrderedMap.find current.fields "affinityGeneration") }
    match normalizeAccountStorage now both.toJson with
    | none => current
    | some merged =>
      match current.pinnedAccountIndex.bind (fun pin => item current.accounts pin) with
      | none => merged
      | some pinned => { merged with
          pinnedAccountIndex := (findMatchingAccountIndex merged.accounts (AccountRow.toAccountLike pinned)).map (fun index => (index : ℚ)) }

end

section
attribute [local instance] asciiHost

def newerPool : AccountStorageV3 where
  accounts := [[("email",.str "one@example.org"),("refreshToken",.str "token-2")]]
  activeIndex := 0

def olderPool : AccountStorageV3 where
  accounts := [[("email",.str "one@example.org"),("refreshToken",.str "token-1")]]
  activeIndex := 0

/-- A pool whose refresh token has been rotated since the backup. -/
def rotated : System AccountStorageV3 where
  disk := ⟨some (.whole newerPool),none,none,[some (.whole olderPool),none,none],false⟩
  outdated := false
  legacy := []
  current := some newerPool
  holder := none
  loads := fun _ => none

theorem rotated_start : Start rotated := ⟨rfl,fun _ => rfl,rfl⟩

def locked : List (Action AccountStorageV3) :=
  [.load 0,.advance 0 true] ++ List.replicate 5 (.advance 0 false) ++ [.acquire 0 0] ++ List.replicate 9 .work ++ [.release]

theorem locked_legal : Runs.Legal (step accountDocuments true (mergeStorageForMigration 0)) enabled rotated locked :=
  ⟨.inl rfl,⟨_,rfl⟩,⟨_,rfl⟩,⟨_,rfl⟩,⟨_,rfl⟩,⟨_,rfl⟩,⟨_,rfl⟩,⟨rfl,_,rfl⟩,⟨_,_,_,_,_,rfl⟩,⟨_,_,_,_,_,rfl⟩,⟨_,_,_,_,_,rfl⟩,⟨_,_,_,_,_,rfl⟩,
    ⟨_,_,_,_,_,rfl⟩,⟨_,_,_,_,_,rfl⟩,⟨_,_,_,_,_,rfl⟩,⟨_,_,_,_,_,rfl⟩,⟨_,_,_,_,_,rfl⟩,⟨_,_,_,rfl⟩,trivial⟩

/-- The load puts the backup back, with the refresh token that has been used. -/
theorem backup_replaces_newer_pool :
    ¬ ∀ (start : System AccountStorageV3) (actions : List (Action AccountStorageV3)), Start start →
      Runs.Legal (step accountDocuments true (mergeStorageForMigration 0)) enabled start actions →
        Runs.Along (step accountDocuments true (mergeStorageForMigration 0)) Kept start actions := by
  intro claim
  have kept := (claim rotated locked rotated_start locked_legal).last
  have same : some olderPool.accounts = some newerPool.accounts := congrArg (Option.map AccountStorageV3.accounts) kept
  exact absurd same (by decide)

def upgrading : List (Action AccountStorageV3) :=
  [.load 0,.advance 0 false,.acquire 0 0] ++ List.replicate 9 .work ++ [.release,.advance 0 false]

theorem upgrading_kept : Runs.Along (step accountDocuments true (mergeStorageForMigration 0)) Kept { rotated with outdated := true } upgrading := by
  have legal : Runs.Legal (step accountDocuments true (mergeStorageForMigration 0)) enabled { rotated with outdated := true } upgrading :=
    ⟨.inl rfl,⟨_,rfl⟩,⟨rfl,_,rfl⟩,⟨_,_,_,_,_,rfl⟩,⟨_,_,_,_,_,rfl⟩,⟨_,_,_,_,_,rfl⟩,⟨_,_,_,_,_,rfl⟩,⟨_,_,_,_,_,rfl⟩,⟨_,_,_,_,_,rfl⟩,
      ⟨_,_,_,_,_,rfl⟩,⟨_,_,_,_,_,rfl⟩,⟨_,_,_,_,_,rfl⟩,⟨_,_,_,rfl⟩,⟨_,rfl⟩,trivial⟩
  have start : Start ({ rotated with outdated := true } : System AccountStorageV3) := ⟨rfl,fun _ => rfl,rfl⟩
  refine (loads_keep_iff start legal).1.mpr ⟨trivial,trivial,⟨fun pool next waits _ => ?_,fun _ _ _ _ merges => ?_⟩,
    trivial,trivial,trivial,trivial,trivial,trivial,trivial,trivial,trivial,trivial,trivial,trivial⟩
  · change some (Phase.waiting newerPool (.loaded newerPool)) = some (.waiting pool next) at waits
    cases waits
    rfl
  · change some (Phase.waiting newerPool (.loaded newerPool)) = _ at merges
    cases merges

end

end CodexMultiAuth.AccountLoads
