import CodexMultiAuth.AccountFiles
import CodexMultiAuth.Runs

/-!
Saves and clears of one process after another, any step of which may fail or be the last
before a crash. A load has to return the pool of the last operation that completed, or
of one that failed or was interrupted since; it does not where the marker of an earlier
reset outlives a save.
-/
namespace CodexMultiAuth.AccountFiles

open List

variable {Pool : Type}

/-- No step crashes, and no required one fails. -/
def Finishes (fates : FileStep Pool → Fate) (lines : List (Line Pool)) : Prop :=
  ∀ line ∈ lines, fates line.step = .done ∨ line.required = false ∧ ∃ left, fates line.step = .fails left

theorem runLines_completed (fates : FileStep Pool → Fate) (lines : List (Line Pool)) (disk : Disk Pool) :
    (runLines fates lines disk).2 = .completed ↔ Finishes fates lines := by
  induction lines generalizing disk with
  | nil => exact iff_of_true rfl (fun line member => absurd member not_mem_nil)
  | cons line rest ih =>
    unfold Finishes at ih ⊢
    rw [runLines,forall_mem_cons]
    cases fate : fates line.step with
    | done => simp [ih]
    | fails left => cases line.required <;> simp [ih]
    | crashes left => simp

variable {fates : FileStep Pool → Fate} {disk : Disk Pool}

theorem runLines_append {first : List (Line Pool)}
    (completes : (runLines fates first disk).2 = .completed) (second : List (Line Pool)) :
    runLines fates (first ++ second) disk = runLines fates second (runLines fates first disk).1 := by
  induction first generalizing disk with
  | nil => rfl
  | cons line rest ih =>
    cases fate : fates line.step with
    | done =>
      simp only [cons_append,runLines,fate] at completes ⊢
      exact ih completes
    | fails left =>
      cases must : line.required <;> simp [runLines,fate,must] at completes ⊢
      exact ih completes
    | crashes left => simp [runLines,fate] at completes

theorem runLines_append_stopped {first : List (Line Pool)}
    (stops : (runLines fates first disk).2 ≠ .completed) (second : List (Line Pool)) :
    runLines fates (first ++ second) disk = runLines fates first disk := by
  induction first generalizing disk with
  | nil => exact absurd rfl stops
  | cons line rest ih =>
    cases fate : fates line.step with
    | done =>
      simp only [cons_append,runLines,fate] at stops ⊢
      exact ih stops
    | fails left =>
      cases must : line.required <;> simp [runLines,fate,must] at stops ⊢
      exact ih stops
    | crashes left => simp [runLines,fate]

theorem runLines_keeps {P : Disk Pool → Prop} {lines : List (Line Pool)}
    (kept : ∀ line ∈ lines, ∀ disk, P disk → P (line.step.apply disk) ∧ P (line.step.tear disk)) (holds : P disk) :
    P (runLines fates lines disk).1 := by
  induction lines generalizing disk with
  | nil => exact holds
  | cons line rest ih =>
    obtain ⟨whole,torn⟩ := kept line mem_cons_self disk holds
    have later : ∀ other ∈ rest, ∀ disk, P disk → P (other.step.apply disk) ∧ P (other.step.tear disk) :=
      fun other member => kept other (mem_cons_of_mem _ member)
    have left_fine : ∀ left, P (line.step.leave left disk) := by
      intro left
      cases left with
      | nothing => exact holds
      | part => exact torn
      | everything => exact whole
    have fail_fine : ∀ left, P (line.step.fail left disk) := by
      intro left
      unfold FileStep.fail
      split
      · exact left_fine left
      · exact holds
    rw [runLines]
    cases fates line.step with
    | done => exact ih later whole
    | fails left =>
      simp only
      split
      · exact fail_fine left
      · exact ih later (fail_fine left)
    | crashes left => exact left_fine left

/-! ### What a save does to the files -/

structure Unsaved (pool : Pool) (disk disk' : Disk Pool) : Prop where
  primary : disk'.primary = disk.primary
  resetMarker : disk'.resetMarker = disk.resetMarker
  journal : disk'.journal = disk.journal ∨ disk'.journal = some .torn ∨ disk'.journal = some (.whole pool)
  backups : disk.primary = none → disk'.backups = disk.backups

theorem Unsaved.refl (pool : Pool) (disk : Disk Pool) : Unsaved pool disk disk := ⟨rfl,rfl,.inl rfl,fun _ => rfl⟩

structure Saved (pool : Pool) (disk disk' : Disk Pool) : Prop where
  primary : disk'.primary = some (.whole pool)
  resetMarker : disk'.resetMarker = disk.resetMarker ∨ disk'.resetMarker = false

/-- The steps up to the rename. -/
def writeLines (storageBackupEnabled : Bool) (renamed : ℕ) (pool : Pool) : List (Line Pool) :=
  (if storageBackupEnabled then [bestEffort (.createRotatingBackup renamed)] else []) ++
    [required (.writeJournal pool),required (.writeTemp pool),required .statTemp]

def cleanupLines : List (Line Pool) := [bestEffort .cleanupResetMarker,bestEffort .cleanupWal]

def finishLines : List (Line Pool) := required .renameTempToPath :: cleanupLines

theorem saveLines_eq (storageBackupEnabled : Bool) (renamed : ℕ) (pool : Pool) :
    saveLines storageBackupEnabled renamed pool = writeLines storageBackupEnabled renamed pool ++ finishLines := by
  simp [saveLines,writeLines,finishLines,cleanupLines]

theorem writeLines_unsaved (storageBackupEnabled : Bool) (renamed : ℕ) (pool : Pool) (fates : FileStep Pool → Fate) (disk : Disk Pool) :
    Unsaved pool disk (runLines fates (writeLines storageBackupEnabled renamed pool) disk).1 := by
  refine runLines_keeps (fun line member other unsaved => ?_) (Unsaved.refl pool disk)
  have rotated : Unsaved pool disk (rotateBackups renamed other) := by
    unfold rotateBackups
    split
    · exact unsaved
    · next primary there =>
      refine ⟨unsaved.primary,unsaved.resetMarker,unsaved.journal,fun missing => ?_⟩
      rw [unsaved.primary,missing] at there
      cases there
  have cases_ : line.step = .createRotatingBackup renamed ∨ line.step = .writeJournal pool ∨ line.step = .writeTemp pool ∨ line.step = .statTemp := by
    cases storageBackupEnabled <;> simp [writeLines,required,bestEffort] at member <;> rcases member with rfl | rfl | rfl | rfl <;> simp
  rcases cases_ with same | same | same | same <;> rw [same]
  · exact ⟨rotated,unsaved⟩
  · exact ⟨⟨unsaved.primary,unsaved.resetMarker,.inr (.inr rfl),unsaved.backups⟩,
      ⟨unsaved.primary,unsaved.resetMarker,.inr (.inl rfl),unsaved.backups⟩⟩
  · exact ⟨⟨unsaved.primary,unsaved.resetMarker,unsaved.journal,unsaved.backups⟩,
      ⟨unsaved.primary,unsaved.resetMarker,unsaved.journal,unsaved.backups⟩⟩
  · exact ⟨unsaved,unsaved⟩

theorem writeLines_temp {storageBackupEnabled : Bool} {renamed : ℕ} {pool : Pool}
    (completes : (runLines fates (writeLines storageBackupEnabled renamed pool) disk).2 = .completed) :
    (runLines fates (writeLines storageBackupEnabled renamed pool) disk).1.temp = some (.whole pool) := by
  have finishes := (runLines_completed _ _ _).mp completes
  have must : ∀ step ∈ [FileStep.writeJournal pool,.writeTemp pool,.statTemp], fates step = .done := by
    intro step member
    have among : required step ∈ writeLines storageBackupEnabled renamed pool := by
      rw [writeLines]
      exact mem_append_right _ (mem_map_of_mem member)
    exact (finishes _ among).resolve_right (fun optional => by simp [required] at optional)
  unfold writeLines at completes ⊢
  have first : (runLines fates (if storageBackupEnabled then [bestEffort (.createRotatingBackup renamed)] else []) disk).2 = .completed := by
    by_contra stops
    rw [runLines_append_stopped stops] at completes
    exact stops completes
  rw [runLines_append first]
  simp [runLines,required,must,FileStep.apply]

/-- The mark of a reset outlives a save that completes only where its removal fails. -/
def keepsMarker (fates : FileStep Pool → Fate) : Bool :=
  match fates .cleanupResetMarker with
  | .fails _ => true
  | _ => false

theorem cleanupLines_saved {pool : Pool} {disk disk' : Disk Pool} (saved : Saved pool disk disk') (fates : FileStep Pool → Fate) :
    Saved pool disk (runLines fates cleanupLines disk').1 := by
  refine runLines_keeps (fun line member other here => ?_) saved
  simp only [cleanupLines,mem_cons,not_mem_nil,or_false] at member
  rcases member with rfl | rfl
  · exact ⟨⟨here.primary,.inr rfl⟩,here⟩
  · exact ⟨⟨here.primary,here.resetMarker⟩,here⟩

theorem cleanupLines_marker (completes : (runLines fates cleanupLines disk).2 = .completed) :
    (runLines fates cleanupLines disk).1.resetMarker = (disk.resetMarker && keepsMarker fates) := by
  unfold cleanupLines keepsMarker at *
  cases unmarks : fates .cleanupResetMarker <;> cases cleans : fates .cleanupWal <;>
    simp [runLines,bestEffort,unmarks,cleans,FileStep.fail,FileStep.writes,FileStep.apply] at completes ⊢

theorem finishLines_spec {pool : Pool} (fates : FileStep Pool → Fate) (temp : disk.temp = some (.whole pool)) :
    (runLines fates finishLines disk).2 ≠ .completed ∧ (runLines fates finishLines disk).1 = disk ∨
      Saved pool disk (runLines fates finishLines disk).1 ∧
        ((runLines fates finishLines disk).2 = .completed →
          (runLines fates finishLines disk).1.resetMarker = (disk.resetMarker && keepsMarker fates)) := by
  have renamed : Saved pool disk (FileStep.renameTempToPath.apply disk) := ⟨temp,.inl rfl⟩
  unfold finishLines
  cases renames : fates .renameTempToPath with
  | done =>
    simp only [runLines,required,renames]
    exact .inr ⟨cleanupLines_saved renamed fates,fun completes => cleanupLines_marker completes⟩
  | fails left => simp [runLines,required,renames,FileStep.fail,FileStep.writes]
  | crashes left =>
    simp only [runLines,required,renames]
    cases left with
    | nothing => exact .inl ⟨by simp,rfl⟩
    | part => exact .inl ⟨by simp,rfl⟩
    | everything => exact .inr ⟨renamed,fun completes => by cases completes⟩

section
variable {kind : Kind Pool} {storageBackupEnabled : Bool}

/-- Every required step of the save is done, and none crashes. -/
def SaveFinishes (storageBackupEnabled : Bool) (pool : Pool) (faults : Faults Pool) : Prop :=
  Finishes faults.fates (preparation ++ saveLines storageBackupEnabled faults.renamed pool)

theorem preparation_keeps (fates : FileStep Pool → Fate) (disk : Disk Pool) : (runLines fates preparation disk).1 = disk := by
  have kept : ∀ line ∈ (preparation : List (Line Pool)), ∀ other : Disk Pool, other = disk →
      line.step.apply other = disk ∧ line.step.tear other = disk := by
    intro line member other same
    simp only [preparation,required,mem_cons,not_mem_nil,or_false] at member
    rcases member with rfl | rfl <;> exact ⟨same,same⟩
  exact runLines_keeps (fun line member other same => kept line member other same) rfl

variable {pool : Pool}

theorem saveAccountsToDisk_eq (genuine : kind.looksLikeSyntheticFixtureStorage pool = false) (faults : Faults Pool)
    (disk : Disk Pool) :
    saveAccountsToDisk kind storageBackupEnabled pool faults disk =
      match runLines faults.fates (preparation ++ saveLines storageBackupEnabled faults.renamed pool) disk with
      | (disk,.failed) => ((runLines faults.fates [bestEffort .cleanupTemp] disk).1,.failed)
      | other => other := by
  have allowed : refuses kind pool disk = false := by simp [refuses,genuine]
  have kept := preparation_keeps faults.fates disk
  unfold saveAccountsToDisk
  cases outcome : (runLines faults.fates preparation disk).2 with
  | completed =>
    have first : runLines faults.fates preparation disk = (disk,.completed) := Prod.ext kept outcome
    rw [runLines_append outcome,first]
    dsimp only
    rewrite [if_neg (by simp [allowed])]
    rfl
  | failed =>
    rw [runLines_append_stopped (by rw [outcome]; simp)]
    have first : runLines faults.fates preparation disk = (disk,.failed) := Prod.ext kept outcome
    rw [first]
  | crashed =>
    rw [runLines_append_stopped (by rw [outcome]; simp)]
    have first : runLines faults.fates preparation disk = (disk,.crashed) := Prod.ext kept outcome
    rw [first]

theorem saveLines_spec (storageBackupEnabled : Bool) (renamed : ℕ) (pool : Pool) (fates : FileStep Pool → Fate) (disk : Disk Pool) :
    (runLines fates (preparation ++ saveLines storageBackupEnabled renamed pool) disk).2 ≠ .completed ∧
        Unsaved pool disk (runLines fates (preparation ++ saveLines storageBackupEnabled renamed pool) disk).1 ∨
      Saved pool disk (runLines fates (preparation ++ saveLines storageBackupEnabled renamed pool) disk).1 ∧
        ((runLines fates (preparation ++ saveLines storageBackupEnabled renamed pool) disk).2 = .completed →
          (runLines fates (preparation ++ saveLines storageBackupEnabled renamed pool) disk).1.resetMarker =
            (disk.resetMarker && keepsMarker fates)) := by
  have kept := preparation_keeps fates disk
  by_cases prepared : (runLines fates preparation disk).2 = .completed
  · rw [runLines_append prepared,kept,saveLines_eq]
    have unsaved := writeLines_unsaved storageBackupEnabled renamed pool fates disk
    by_cases written : (runLines fates (writeLines storageBackupEnabled renamed pool) disk).2 = .completed
    · rw [runLines_append written]
      rcases finishLines_spec fates (writeLines_temp written) with ⟨stops,same⟩ | ⟨saved,marker⟩
      · exact .inl ⟨stops,by rw [same]; exact unsaved⟩
      · rw [unsaved.resetMarker] at marker
        exact .inr ⟨⟨saved.primary,unsaved.resetMarker ▸ saved.resetMarker⟩,marker⟩
    · rw [runLines_append_stopped written]
      exact .inl ⟨written,unsaved⟩
  · rw [runLines_append_stopped prepared,kept]
    exact .inl ⟨prepared,Unsaved.refl pool disk⟩

variable (storageBackupEnabled) in
/-- A save that stops has not touched the primary or has replaced it; one that completes has replaced it. -/
theorem saveAccountsToDisk_spec (genuine : kind.looksLikeSyntheticFixtureStorage pool = false) (faults : Faults Pool)
    (disk : Disk Pool) :
    (saveAccountsToDisk kind storageBackupEnabled pool faults disk).2 ≠ .completed ∧
        Unsaved pool disk (saveAccountsToDisk kind storageBackupEnabled pool faults disk).1 ∨
      Saved pool disk (saveAccountsToDisk kind storageBackupEnabled pool faults disk).1 ∧
        ((saveAccountsToDisk kind storageBackupEnabled pool faults disk).2 = .completed →
          (saveAccountsToDisk kind storageBackupEnabled pool faults disk).1.resetMarker = (disk.resetMarker && keepsMarker faults.fates)) := by
  rw [saveAccountsToDisk_eq genuine]
  have spec := saveLines_spec storageBackupEnabled faults.renamed pool faults.fates disk
  split
  · next stopped result =>
    rw [result] at spec
    -- What is left of the temporary file is nothing that the specification reads.
    rcases spec with ⟨-,unsaved⟩ | ⟨saved,-⟩
    · refine .inl ⟨by simp,runLines_keeps (fun line member other here => ?_) unsaved⟩
      simp only [mem_singleton] at member
      subst member
      exact ⟨⟨here.primary,here.resetMarker,here.journal,here.backups⟩,here⟩
    · refine .inr ⟨runLines_keeps (fun line member other here => ?_) saved,fun completes => by cases completes⟩
      simp only [mem_singleton] at member
      subst member
      exact ⟨⟨here.primary,here.resetMarker⟩,here⟩
  · exact spec

theorem saveAccountsToDisk_completed (genuine : kind.looksLikeSyntheticFixtureStorage pool = false) (faults : Faults Pool)
    (disk : Disk Pool) :
    (saveAccountsToDisk kind storageBackupEnabled pool faults disk).2 = .completed ↔ SaveFinishes storageBackupEnabled pool faults := by
  rw [SaveFinishes,← runLines_completed _ _ disk,saveAccountsToDisk_eq genuine]
  split
  · next stopped result => rw [result]
  · rfl

theorem clear_spec (faults : Faults Pool) (disk : Disk Pool) :
    (clearAccountStorageArtifacts faults disk).2 ≠ .completed ∧ (clearAccountStorageArtifacts faults disk).1 = disk ∨
      (clearAccountStorageArtifacts faults disk).1.resetMarker = true := by
  have later : ∀ marked : Disk Pool, marked.resetMarker = true →
      (runLines faults.fates ([required .clearPrimary,required .clearWal] ++
        (List.range disk.backups.length).map (fun slot => bestEffort (.clearBackup slot))) marked).1.resetMarker = true := by
    intro marked mark
    refine runLines_keeps (P := fun other => other.resetMarker = true) (fun line member other here => ?_) mark
    rcases mem_append.mp member with member | member
    · simp only [mem_cons,not_mem_nil,or_false] at member
      rcases member with rfl | rfl <;> exact ⟨here,here⟩
    · obtain ⟨slot,-,rfl⟩ := mem_map.mp member
      exact ⟨here,here⟩
  unfold clearAccountStorageArtifacts clearLines
  rw [cons_append,runLines]
  cases marks : faults.fates (required .writeResetMarker).step with
  | done => exact .inr (later _ rfl)
  | fails left =>
    simp only [required,if_true]
    cases left with
    | nothing => exact .inl ⟨by simp,rfl⟩
    | part => exact .inr rfl
    | everything => exact .inr rfl
  | crashes left =>
    cases left with
    | nothing => exact .inl ⟨by simp,rfl⟩
    | part => exact .inr rfl
    | everything => exact .inr rfl

inductive Operation (Pool : Type) where
  | save (pool : Pool) (faults : Faults Pool)
  | clear (faults : Faults Pool)
  | load (faults : Faults Pool)

/-- The files, the pool of the last operation that completed, and those of the ones that stopped since. -/
structure History (Pool : Type) where
  disk : Disk Pool
  completed : Pool
  since : List Pool

namespace History

def allowed (h : History Pool) : List Pool := h.completed :: h.since

def after (h : History Pool) (pool : Pool) (result : Disk Pool × Outcome) : History Pool :=
  if result.2 = .completed then ⟨result.1,pool,[]⟩ else ⟨result.1,h.completed,pool :: h.since⟩

end History

variable (kind storageBackupEnabled)

def step (h : History Pool) : Operation Pool → History Pool
  | .save pool faults => h.after pool (saveAccountsToDisk kind storageBackupEnabled pool faults h.disk)
  | .clear faults => h.after kind.empty (clearAccountStorageArtifacts faults h.disk)
  | .load faults => { h with disk := afterLoad kind storageBackupEnabled faults h.disk }

def Genuine : History Pool → Operation Pool → Prop
  | _,.save pool _ => kind.looksLikeSyntheticFixtureStorage pool = false
  | _,.clear _ => True
  | _,.load _ => True

/-- A load returns the pool of the last operation that completed, or of one that stopped since. -/
def Answers (h : History Pool) : Prop := ∃ pool ∈ h.allowed, loadAccounts kind storageBackupEnabled h.disk = some pool

/-- A save that completes removes the marker of a reset, unless it saves what the marker stands for. -/
def Unmarks (h : History Pool) : Operation Pool → Prop
  | .save pool faults =>
    h.disk.resetMarker = true → SaveFinishes storageBackupEnabled pool faults → keepsMarker faults.fates = true → pool = kind.empty
  | .clear _ => True
  | .load _ => True

/-- No storage yet, or one with this pool and whatever journal and backups. -/
structure Start (h : History Pool) : Prop where
  since : h.since = []
  unmarked : h.disk.resetMarker = false
  genuine : kind.looksLikeSyntheticFixtureStorage h.completed = false
  files : h.disk.primary = some (.whole h.completed) ∨
    h.completed = kind.empty ∧ h.disk.primary = none ∧ h.disk.journal = none ∧ ∀ backup ∈ h.disk.backups, backup = none

/-- What the files may be, between operations. -/
structure Sound (h : History Pool) : Prop where
  genuine : ∀ pool ∈ h.allowed, kind.looksLikeSyntheticFixtureStorage pool = false
  marked : h.disk.resetMarker = true → kind.empty ∈ h.allowed
  stored : h.disk.resetMarker = false → ∀ file, h.disk.primary = some file → ∃ pool ∈ h.allowed, file = .whole pool
  missing : h.disk.resetMarker = false → h.disk.primary = none →
    kind.empty ∈ h.allowed ∧ (∀ pool, h.disk.journal = some (.whole pool) → pool ∈ h.allowed) ∧ ∀ backup ∈ h.disk.backups, backup = none

variable {kind storageBackupEnabled}
variable {h : History Pool}

theorem Start.sound (start : Start kind h) : Sound kind h := by
  have allowed : h.allowed = [h.completed] := by rw [History.allowed,start.since]
  refine ⟨fun pool member => ?_,fun marked => ?_,fun _ file there => ?_,fun _ gone => ?_⟩
  · rw [allowed,mem_singleton] at member
    exact member ▸ start.genuine
  · rw [start.unmarked] at marked; cases marked
  · rcases start.files with stored | ⟨-,gone,-⟩
    · rw [stored] at there
      exact ⟨h.completed,mem_cons_self,(Option.some.inj there).symm⟩
    · rw [gone] at there; cases there
  · rcases start.files with stored | ⟨nothing,-,journal,backups⟩
    · rw [stored] at gone; cases gone
    · refine ⟨nothing ▸ mem_cons_self,fun pool written => ?_,backups⟩
      rw [journal] at written; cases written

theorem loadAccounts_marked {disk : Disk Pool} (marked : disk.resetMarker = true) :
    loadAccounts kind storageBackupEnabled disk = some kind.empty := by
  unfold loadAccounts recovery
  split <;> simp [marked]

theorem loadFromBackups_none {disk : Disk Pool} (none_there : ∀ backup ∈ disk.backups, backup = none) : loadFromBackups disk = none := by
  rw [loadFromBackups,List.findSome?_eq_none_iff]
  intro backup member
  rw [none_there backup member]; rfl

variable (storageBackupEnabled) in
theorem Sound.recovery (sound : Sound kind h) :
    ∃ pool ∈ h.allowed, (recovery kind storageBackupEnabled h.disk).1 = some pool ∧
      ∀ saved, (AccountFiles.recovery kind storageBackupEnabled h.disk).2 = some saved →
        saved ∈ h.allowed ∧ h.disk.resetMarker = false ∧ h.disk.primary = none := by
  cases marked : h.disk.resetMarker with
  | true =>
    refine ⟨kind.empty,sound.marked marked,loadAccounts_marked marked,fun saved written => ?_⟩
    unfold AccountFiles.recovery at written
    split at written <;> simp [marked] at written
  | false =>
    cases there : h.disk.primary with
    | some file =>
      obtain ⟨pool,member,rfl⟩ := sound.stored marked file there
      have genuine := sound.genuine pool member
      refine ⟨pool,member,?_,fun saved written => ?_⟩
      · simp [AccountFiles.recovery,there,marked,genuine]
      · simp [AccountFiles.recovery,there,marked,genuine] at written
    | none =>
      obtain ⟨nothing,journal,backups⟩ := sound.missing marked there
      have empty := loadFromBackups_none backups
      cases entry : loadAccountsFromJournal h.disk with
      | some pool =>
        have member : pool ∈ h.allowed := by
          simp only [loadAccountsFromJournal,marked,Bool.false_eq_true,if_false,Option.bind_eq_some_iff] at entry
          obtain ⟨file,written,read⟩ := entry
          cases file with
          | whole other => cases read; exact journal pool written
          | torn => cases read
        refine ⟨pool,member,by simp [AccountFiles.recovery,there,marked,entry],fun saved written => ?_⟩
        simp only [AccountFiles.recovery,there,marked,entry,Bool.false_eq_true,if_false,Option.some_or,Option.some.injEq] at written
        exact ⟨written ▸ member,rfl,rfl⟩
      | none =>
        refine ⟨kind.empty,nothing,by simp [AccountFiles.recovery,there,marked,entry,empty],fun saved written => ?_⟩
        simp [AccountFiles.recovery,there,marked,entry,empty] at written

theorem Sound.answers (sound : Sound kind h) : Answers kind storageBackupEnabled h := by
  obtain ⟨pool,member,result,-⟩ := sound.recovery storageBackupEnabled
  exact ⟨pool,member,result⟩

theorem History.mem_after_stopped (h : History Pool) (pool : Pool) {result : Disk Pool × Outcome} (stops : result.2 ≠ .completed) (other : Pool) :
    other ∈ (h.after pool result).allowed ↔ other = pool ∨ other ∈ h.allowed := by
  rw [History.after,if_neg stops]
  simp only [History.allowed,mem_cons]
  tauto

theorem History.after_completed {result : Disk Pool × Outcome} (completes : result.2 = .completed) :
    h.after pool result = ⟨result.1,pool,[]⟩ := if_pos completes

theorem History.disk_after (h : History Pool) (pool : Pool) (result : Disk Pool × Outcome) : (h.after pool result).disk = result.1 := by
  unfold History.after
  split <;> rfl

/-- Files that a save has not got through to are sound for the pools that were allowed and its own. -/
theorem Sound.unsaved {h h' : History Pool} (sound : Sound kind h) (unsaved : Unsaved pool h.disk h'.disk)
    (genuine : kind.looksLikeSyntheticFixtureStorage pool = false) (own : pool ∈ h'.allowed)
    (allowed : ∀ other, other ∈ h'.allowed → other = pool ∨ other ∈ h.allowed) (kept : ∀ other ∈ h.allowed, other ∈ h'.allowed) :
    Sound kind h' := by
  refine ⟨fun other member => ?_,fun marked => ?_,fun unmarked file there => ?_,fun unmarked gone => ?_⟩
  · rcases allowed other member with rfl | before
    · exact genuine
    · exact sound.genuine other before
  · rw [unsaved.resetMarker] at marked
    exact kept _ (sound.marked marked)
  · rw [unsaved.resetMarker] at unmarked
    rw [unsaved.primary] at there
    obtain ⟨other,member,same⟩ := sound.stored unmarked file there
    exact ⟨other,kept other member,same⟩
  · rw [unsaved.resetMarker] at unmarked
    rw [unsaved.primary] at gone
    obtain ⟨nothing,journal,backups⟩ := sound.missing unmarked gone
    refine ⟨kept _ nothing,fun other written => ?_,fun backup member => backups backup (unsaved.backups gone ▸ member)⟩
    rcases unsaved.journal with same | torn | whole
    · rw [same] at written
      exact kept other (journal other written)
    · rw [torn] at written; cases written
    · rw [whole] at written
      cases written
      exact own

/-- Files that a pool has been saved to are sound for it while no marker outlives what it stands for. -/
theorem Sound.saved {h' : History Pool} {disk : Disk Pool} (saved : Saved pool disk h'.disk)
    (genuine : ∀ other ∈ h'.allowed, kind.looksLikeSyntheticFixtureStorage other = false) (own : pool ∈ h'.allowed)
    (marked : h'.disk.resetMarker = true → kind.empty ∈ h'.allowed) : Sound kind h' := by
  refine ⟨genuine,marked,fun _ file there => ⟨pool,own,?_⟩,fun _ gone => ?_⟩
  · exact Option.some.inj (there.symm.trans saved.primary)
  · rw [saved.primary] at gone; cases gone

theorem sound_save {faults : Faults Pool} (sound : Sound kind h)
    (genuine : kind.looksLikeSyntheticFixtureStorage pool = false)
    (unmarks : h.disk.resetMarker = true → SaveFinishes storageBackupEnabled pool faults → keepsMarker faults.fates = true → pool = kind.empty) :
    Sound kind (step kind storageBackupEnabled h (.save pool faults)) := by
  have spec := saveAccountsToDisk_spec storageBackupEnabled genuine faults h.disk
  by_cases completes : (saveAccountsToDisk kind storageBackupEnabled pool faults h.disk).2 = .completed
  · rcases spec with ⟨stops,-⟩ | ⟨saved,marker⟩
    · exact absurd completes stops
    · rw [step,History.after_completed completes]
      refine Sound.saved saved (fun other member => ?_) mem_cons_self (fun marked => ?_)
      · rw [History.allowed,mem_singleton] at member
        exact member ▸ genuine
      · rw [marker completes,Bool.and_eq_true] at marked
        exact mem_singleton.mpr
          (unmarks marked.1 ((saveAccountsToDisk_completed genuine faults h.disk).mp completes) marked.2).symm
  · have member := History.mem_after_stopped h pool completes
    have disk := History.disk_after h pool (saveAccountsToDisk kind storageBackupEnabled pool faults h.disk)
    rcases spec with ⟨-,unsaved⟩ | ⟨saved,-⟩
    · refine sound.unsaved (disk.symm ▸ unsaved) genuine ((member pool).mpr (.inl rfl)) (fun other => (member other).mp)
        (fun other before => (member other).mpr (.inr before))
    · refine Sound.saved (disk.symm ▸ saved) (fun other among => ?_) ((member pool).mpr (.inl rfl)) (fun marked => ?_)
      · rcases (member other).mp among with rfl | before
        · exact genuine
        · exact sound.genuine other before
      · -- An interrupted save does not set the marker, so it is that of a reset before.
        rw [step,disk] at marked
        refine (member _).mpr (.inr (sound.marked ?_))
        rcases saved.resetMarker with same | removed
        · exact same ▸ marked
        · rw [removed] at marked; cases marked

theorem sound_clear (faults : Faults Pool) (sound : Sound kind h) :
    Sound kind (step kind storageBackupEnabled h (.clear faults)) := by
  have spec := clear_spec faults h.disk
  have disk := History.disk_after h kind.empty (clearAccountStorageArtifacts faults h.disk)
  -- Under the marker the other files do not count.
  have marked : ∀ h' : History Pool, h'.disk.resetMarker = true → kind.empty ∈ h'.allowed →
      (∀ other ∈ h'.allowed, kind.looksLikeSyntheticFixtureStorage other = false) → Sound kind h' := by
    intro h' mark own genuine
    refine ⟨genuine,fun _ => own,fun unmarked => ?_,fun unmarked => ?_⟩ <;> rw [mark] at unmarked <;> cases unmarked
  by_cases completes : (clearAccountStorageArtifacts faults h.disk).2 = .completed
  · rcases spec with ⟨stops,-⟩ | mark
    · exact absurd completes stops
    · rw [step,History.after_completed completes]
      refine marked _ mark mem_cons_self (fun other among => ?_)
      rw [History.allowed,mem_singleton] at among
      exact among ▸ kind.empty_genuine
  · have member := History.mem_after_stopped h kind.empty completes
    rcases spec with ⟨-,same⟩ | mark
    · refine @Sound.unsaved _ kind kind.empty h _ sound ?_ kind.empty_genuine ((member _).mpr (.inl rfl)) (fun other => (member other).mp)
        (fun other before => (member other).mpr (.inr before))
      rw [step,disk,same]
      exact Unsaved.refl _ _
    · refine marked _ (by rw [step,disk]; exact mark) ((member _).mpr (.inl rfl)) (fun other among => ?_)
      rcases (member other).mp among with rfl | before
      · exact kind.empty_genuine
      · exact sound.genuine other before

theorem sound_load (faults : Faults Pool) (sound : Sound kind h) :
    Sound kind (step kind storageBackupEnabled h (.load faults)) := by
  obtain ⟨-,-,-,saves⟩ := sound.recovery storageBackupEnabled
  rw [step]
  unfold afterLoad
  cases recovered : (AccountFiles.recovery kind storageBackupEnabled h.disk).2 with
  | none => exact sound
  | some pool =>
    obtain ⟨member,unmarked,-⟩ := saves pool recovered
    have genuine := sound.genuine pool member
    rcases saveAccountsToDisk_spec storageBackupEnabled genuine faults h.disk with ⟨-,unsaved⟩ | ⟨saved,-⟩
    · exact sound.unsaved unsaved genuine member (fun other among => .inr among) (fun other among => among)
    · refine Sound.saved saved sound.genuine member (fun marked => ?_)
      rcases saved.resetMarker with same | removed
      · exact sound.marked (same ▸ marked)
      · rw [removed] at marked; cases marked

theorem sound_step {operation : Operation Pool} (genuine : Genuine kind h operation) (sound : Sound kind h)
    (unmarks : Unmarks kind storageBackupEnabled h operation) : Sound kind (step kind storageBackupEnabled h operation) := by
  cases operation with
  | save pool faults => exact sound_save sound genuine unmarks
  | clear faults => exact sound_clear faults sound
  | load faults => exact sound_load faults sound

theorem unmarks_of_answers {operation : Operation Pool} (genuine : Genuine kind h operation)
    (answers : Answers kind storageBackupEnabled (step kind storageBackupEnabled h operation)) : Unmarks kind storageBackupEnabled h operation := by
  cases operation with
  | save pool faults =>
    intro marked finishes keeps
    have completes := (saveAccountsToDisk_completed genuine faults h.disk).mpr finishes
    obtain ⟨other,member,returned⟩ := answers
    rw [step,History.after_completed completes] at member returned
    rw [History.allowed,mem_singleton] at member
    rcases saveAccountsToDisk_spec storageBackupEnabled genuine faults h.disk with ⟨stops,-⟩ | ⟨-,marker⟩
    · exact absurd completes stops
    · have left := marker completes
      rw [marked,keeps] at left
      rw [loadAccounts_marked left] at returned
      exact member.symm.trans (Option.some.inj returned).symm
  | clear faults => trivial
  | load faults => trivial

/-- Loads return what was saved just when the marker of a reset does not outlive a save. -/
theorem loads_answer_iff {start : History Pool} {operations : List (Operation Pool)} (fresh : Start kind start)
    (genuine : Runs.Legal (step kind storageBackupEnabled) (Genuine kind) start operations) :
    Runs.Along (step kind storageBackupEnabled) (Answers kind storageBackupEnabled) start operations ↔
      Runs.Legal (step kind storageBackupEnabled) (Unmarks kind storageBackupEnabled) start operations :=
  Runs.along_iff_legal (fun s (sound : Sound kind s) => sound.answers) (fun _ _ genuine sound unmarks => sound_step genuine sound unmarks)
    (fun _ _ genuine _ answers => unmarks_of_answers genuine answers) genuine fresh.sound

end

section
attribute [local instance] asciiHost

def savedPool : AccountStorageV3 where
  accounts := [[("email",.str "one@example.org"),("refreshToken",.str "token-1")]]
  activeIndex := 0

def settledStorage : History AccountStorageV3 where
  disk := ⟨some (.whole savedPool),none,none,[none,none,none],false⟩
  completed := savedPool
  since := []

def noFaults : Faults AccountStorageV3 := ⟨fun _ => .done,0⟩

/-- The reset marker cannot be unlinked. -/
def markerStays : Faults AccountStorageV3 := ⟨fun step => match step with | .cleanupResetMarker => .fails .nothing | _ => .done,0⟩

theorem settledStorage_start : Start accountDocuments settledStorage := ⟨rfl,rfl,by decide,.inl rfl⟩

theorem savedPool_genuine : accountDocuments.looksLikeSyntheticFixtureStorage savedPool = false := by decide

/-- A reset and a save of which every step succeeds. -/
theorem reset_then_saved_answers :
    Runs.Along (step accountDocuments true) (Answers accountDocuments true) settledStorage [.clear noFaults,.save savedPool noFaults] := by
  have genuine : Runs.Legal (step accountDocuments true) (Genuine accountDocuments) settledStorage [.clear noFaults,.save savedPool noFaults] :=
    ⟨trivial,savedPool_genuine,trivial⟩
  refine (loads_answer_iff settledStorage_start genuine).mpr ⟨trivial,fun _ _ keeps => ?_,trivial⟩
  exact absurd keeps (by decide)

/-- A save after a reset completes, and loads go on returning no accounts. -/
theorem saved_pool_reads_empty :
    ¬ ∀ (start : History AccountStorageV3) (operations : List (Operation AccountStorageV3)), Start accountDocuments start →
      Runs.Legal (step accountDocuments true) (Genuine accountDocuments) start operations →
        Runs.Along (step accountDocuments true) (Answers accountDocuments true) start operations := by
  intro claim
  have along := claim settledStorage [.clear noFaults,.save savedPool markerStays] settledStorage_start ⟨trivial,savedPool_genuine,trivial⟩
  have unmarks : Unmarks accountDocuments true (step accountDocuments true settledStorage (.clear noFaults)) (.save savedPool markerStays) :=
    unmarks_of_answers savedPool_genuine along.2.2
  have finishes : SaveFinishes true savedPool markerStays :=
    (runLines_completed _ _ settledStorage.disk).mp rfl
  have same := unmarks rfl finishes rfl
  exact absurd (congrArg AccountStorageV3.accounts same) (by decide)

end

end CodexMultiAuth.AccountFiles
