import CodexMultiAuth.UnifiedSettings

/-!
Saves of the settings file, one after another, each of which may fail or be given up
anywhere.
-/
namespace CodexMultiAuth.UnifiedSettings
open Exclusive (Task safe safe_mono)
open Dialogue (Program)
open Exclusive.Task OrderedMap

/-- What a save makes of a record. -/
def applySave (record : Option Record) (save : String × Record) : Option Record :=
  some (normalizeForWrite (put (record.getD []) save.1 (.obj save.2)))

def replay (initial : Option Record) (saved : List (String × Record)) : Option Record := saved.foldl applySave initial

/-- Reads of the file fail with such codes only. -/
def ReadFails (such : Code → Prop) : Disk → Request → Input → Prop
  | _,.read .primary,.fails code _ => such code
  | _,_,_ => True

/-- Where reads of the file fail, they fail with a code that the save takes for transient. -/
abbrev Tolerated (mild : Prop) : Disk → Request → Input → Prop := ReadFails (fun code => mild → code ∈ TRANSIENT_READ_FS_CODES)

structure Inv (mild : Prop) (initial : Option Record) (disk : Disk) : Prop where
  unspoiled : disk.spoiled = false
  replays : mild → disk.settings.map SettingsFile.contents = (replay initial disk.saved).map some

def Unchanged (began disk : Disk) : Prop := disk.settings = began.settings ∧ disk.saved = began.saved

def Reads (mild : Prop) (disk : Disk) : Except Failure (Option Record × Bool) → Prop
  | .ok (record,usedBackup) =>
    (usedBackup = false → disk.corrupt → ¬ disk.validBackup) ∧ (mild → usedBackup = false ∧ record = disk.record)
  | .error _ => True

def Saves (section_ : String) (value : Record) (began : Disk) : Except Failure Unit → Disk → Prop
  | .ok _,disk => disk.saved = began.saved ++ [(section_,value)]
  | .error _,disk => Unchanged began disk

section
variable {mild : Prop} {initial : Option Record} {s : Disk} {α β : Type}

theorem Inv.not_corrupt (inv : Inv mild initial s) (holds : mild) : ¬ s.corrupt := by
  intro corrupt
  rw [Disk.corrupt,inv.replays holds] at corrupt
  cases found : replay initial s.saved with
  | none =>
    rw [found] at corrupt
    cases corrupt
  | some record =>
    rw [found] at corrupt
    cases corrupt

theorem Inv.record (inv : Inv mild initial s) (holds : mild) : s.record = replay initial s.saved := by
  have replays := inv.replays holds
  rw [Disk.record]
  cases file : s.settings with
  | none =>
    rw [file] at replays
    cases found : replay initial s.saved with
    | none => rfl
    | some record =>
      rw [found] at replays
      cases replays
  | some settings =>
    rw [file] at replays
    cases found : replay initial s.saved with
    | none =>
      rw [found] at replays
      cases replays
    | some record =>
      rw [found] at replays
      exact Option.some.inj replays

theorem safe_after {task : Settings β} {rest : β → Settings α} {post : Except Failure α → Disk → Prop} {result : Except Failure β → Prop}
    (first : safe respond (Tolerated mild) (Inv mild initial) task.run (fun found t => t = s ∧ result found) s)
    (goes : ∀ value, result (.ok value) → safe respond (Tolerated mild) (Inv mild initial) (rest value).run post s)
    (stops : ∀ failure, result (.error failure) → post (.error failure) s) :
    safe respond (Tolerated mild) (Inv mild initial) (task >>= rest).run post s := by
  apply safe_bind
  refine safe_mono ?_ first
  rintro found t _ ⟨rfl,holds⟩
  cases found with
  | ok value => exact goes value holds
  | error failure => exact stops failure holds

theorem safe_orThrow {answer : Except Code α} {post : Except Failure α → Disk → Prop} (inv : Inv mild initial s)
    (goes : ∀ value, answer = .ok value → post (.ok value) s) (stops : ∀ code, answer = .error code → post (.error (.fs code)) s) :
    safe respond (Tolerated mild) (Inv mild initial) (orThrow answer).run post s := by
  cases answer with
  | ok value => exact safe_pure inv (goes value rfl)
  | error code => exact safe_throw inv (stops code rfl)

theorem mtime_safe (inv : Inv mild initial s) :
    safe respond (Tolerated mild) (Inv mild initial) getUnifiedSettingsMtimeMs.run (fun _ t => t = s ∧ True) s := by
  apply safe_bind
  refine safe_ask inv ?_
  intro input _
  cases input with
  | works mtime => exact ⟨inv,safe_orThrow inv (fun _ _ => ⟨rfl,trivial⟩) (fun _ _ => ⟨rfl,trivial⟩)⟩
  | fails code begun => exact ⟨inv,safe_orThrow inv (fun _ _ => ⟨rfl,trivial⟩) (fun _ _ => ⟨rfl,trivial⟩)⟩

/-! ### Reading -/

def ReadsFrom (mild : Prop) (contents : Option Contents) (primary : Prop) : Except Failure (Option Record) → Prop
  | .ok none => contents = none
  | .ok (some record) => contents = some (some record)
  | .error .invalidSettingsRecord => contents = some none
  | .error (.fs code) => primary → mild → code ∈ TRANSIENT_READ_FS_CODES

theorem parse_safe (inv : Inv mild initial s) (contents : Option Contents) (primary : Prop) :
    safe respond (Tolerated mild) (Inv mild initial) (parseSettingsRecord contents).run
      (fun found t => t = s ∧ ReadsFrom mild contents primary found) s := by
  match contents with
  | none => exact safe_pure inv ⟨rfl,rfl⟩
  | some none => exact safe_throw inv ⟨rfl,rfl⟩
  | some (some record) => exact safe_pure inv ⟨rfl,rfl⟩

theorem readPrimary_safe (inv : Inv mild initial s) :
    safe respond (Tolerated mild) (Inv mild initial) (readSettingsRecordAsyncFromPath .primary).run
      (fun found t => t = s ∧ ReadsFrom mild (s.settings.map SettingsFile.contents) True found) s := by
  apply safe_bind
  refine safe_ask inv ?_
  intro input tolerated
  cases input with
  | works mtime => exact ⟨inv,safe_bind (safe_pure inv (parse_safe inv _ True))⟩
  | fails code begun => exact ⟨inv,safe_bind (safe_throw inv ⟨rfl,fun _ => tolerated⟩)⟩

theorem readBackup_safe (inv : Inv mild initial s) :
    safe respond (Tolerated mild) (Inv mild initial) (readSettingsRecordAsyncFromPath .backup).run
      (fun found t => t = s ∧ ReadsFrom mild s.backup False found) s := by
  apply safe_bind
  refine safe_ask inv ?_
  intro input _
  cases input with
  | works mtime => exact ⟨inv,safe_bind (safe_pure inv (parse_safe inv _ False))⟩
  | fails code begun => exact ⟨inv,safe_bind (safe_throw inv ⟨rfl,False.elim⟩)⟩

theorem readSettingsBackup_safe (inv : Inv mild initial s) :
    safe respond (Tolerated mild) (Inv mild initial) readSettingsBackupAsync.run
      (fun found t => t = s ∧ ∀ record, found = .ok record → (record = none → ¬ s.validBackup)) s := by
  apply safe_tryCatch
  refine safe_mono ?_ (readBackup_safe inv)
  rintro found t _ ⟨rfl,reads⟩
  match found with
  | .ok none =>
    refine ⟨rfl,?_⟩
    rintro record ⟨⟩ _ ⟨valid,here⟩
    rw [show t.backup = none from reads] at here
    cases here
  | .ok (some record) =>
    refine ⟨rfl,?_⟩
    rintro other ⟨⟩ none
    cases none
  | .error .invalidSettingsRecord =>
    refine safe_pure inv ⟨rfl,?_⟩
    rintro record ⟨⟩ _ ⟨valid,here⟩
    rw [show t.backup = some none from reads] at here
    cases here
  | .error (.fs code) =>
    refine safe_throw inv ⟨rfl,?_⟩
    rintro record ⟨⟩

theorem fallBack_safe (inv : Inv mild initial s) (error : Failure) (ofMild : ¬ mild) :
    safe respond (Tolerated mild) (Inv mild initial)
      (do
        let backupRecord ← readSettingsBackupAsync
        match backupRecord with
        | some record => pure (some record,true)
        | none => if error = .invalidSettingsRecord then pure (none,false) else throw error : Settings (Option Record × Bool)).run
      (fun found t => t = s ∧ Reads mild s found) s := by
  refine safe_after (readSettingsBackup_safe inv) ?_ (fun _ _ => ⟨rfl,trivial⟩)
  intro record reads
  cases record with
  | some record =>
    refine safe_pure inv ⟨rfl,?_,fun holds => absurd holds ofMild⟩
    rintro ⟨⟩
  | none =>
    dsimp only
    split
    · exact safe_pure inv ⟨rfl,fun _ _ => reads none rfl rfl,fun holds => absurd holds ofMild⟩
    · exact safe_throw inv ⟨rfl,trivial⟩

/-- A read gives the file's own record while its failures are transient, and does not
    pass a corrupt file for a good one where there is a valid backup. -/
theorem readSettings_safe (inv : Inv mild initial s) :
    safe respond (Tolerated mild) (Inv mild initial) readSettingsRecordAsyncInternal.run (fun found t => t = s ∧ Reads mild s found) s := by
  rw [readSettingsRecordAsyncInternal]
  apply safe_bind
  refine safe_ask inv ?_
  intro input _
  have same : (respond s .existsPrimary input).1 = s := by cases input <;> rfl
  rw [same]
  refine ⟨inv,?_⟩
  generalize (respond s .existsPrimary input).2 = primaryExists
  apply safe_tryCatch
  refine safe_after (readPrimary_safe inv) ?_ ?_
  · intro record reads
    refine safe_pure inv ⟨rfl,?_,?_⟩
    · intro _ corrupt
      rw [Disk.corrupt] at corrupt
      cases record with
      | none =>
        rw [show s.settings.map SettingsFile.contents = none from reads] at corrupt
        cases corrupt
      | some record =>
        rw [show s.settings.map SettingsFile.contents = some (some record) from reads] at corrupt
        cases corrupt
    · intro _
      refine ⟨rfl,?_⟩
      cases record with
      | none =>
        rw [Disk.record,Option.map_eq_none_iff.mp reads]
        rfl
      | some record =>
        obtain ⟨file,there,contents⟩ := Option.map_eq_some_iff.mp (show s.settings.map SettingsFile.contents = some (some record) from reads)
        rw [Disk.record,there]
        exact contents.symm
  · intro error reads
    dsimp only
    split
    · exact safe_throw inv ⟨rfl,trivial⟩
    · next fallsBack =>
      match error with
      | .invalidSettingsRecord =>
        exact fallBack_safe inv .invalidSettingsRecord (fun holds => inv.not_corrupt holds reads)
      | .fs code =>
        refine fallBack_safe inv (.fs code) ?_
        intro holds
        have transient := reads trivial holds
        refine fallsBack ?_
        rw [shouldFallbackToSettingsBackup,List.contains_iff_mem.mpr transient]
        exact Bool.and_false _

/-- A copy would not be of a corrupt file over a valid backup. -/
def Disk.Fine (disk : Disk) : Prop := disk.corrupt → ¬ disk.validBackup

theorem Inv.of_unchanged {t : Disk} (inv : Inv mild initial s) (unchanged : Unchanged s t) (unspoiled : t.spoiled = false) : Inv mild initial t := by
  refine ⟨unspoiled,?_⟩
  rw [unchanged.1,unchanged.2]
  exact inv.replays

theorem Unchanged.trans {t u : Disk} (first : Unchanged s t) (second : Unchanged t u) : Unchanged s u :=
  ⟨second.1.trans first.1,second.2.trans first.2⟩

theorem copied_spoiled (inv : Inv mild initial s) (fine : s.Fine) (contents : Contents) : (copied s contents).spoiled = false := by
  have not_both : (decide s.corrupt && decide s.validBackup) = false := by
    by_cases corrupt : s.corrupt
    · rw [decide_eq_false (fine corrupt)]
      exact Bool.and_false _
    · rw [decide_eq_false corrupt]
      exact Bool.false_and _
  rw [copied,inv.unspoiled,not_both]
  rfl

theorem not_valid_of_corrupt {t : Disk} (backup : t.backup = some none) : ¬ t.validBackup := by
  rintro ⟨record,valid⟩
  rw [backup] at valid
  cases valid

theorem copy_keeps (inv : Inv mild initial s) (fine : s.Fine) (input : Input) :
    Inv mild initial (respond s .copyToBackup input).1 ∧ (respond s .copyToBackup input).1.Fine ∧ Unchanged s (respond s .copyToBackup input).1 := by
  have copies (contents : Contents) (given : s.corrupt → contents = none) :
      Inv mild initial (copied s contents) ∧ (copied s contents).Fine ∧ Unchanged s (copied s contents) := by
    refine ⟨inv.of_unchanged ⟨rfl,rfl⟩ (copied_spoiled inv fine contents),?_,rfl,rfl⟩
    intro corrupt
    apply not_valid_of_corrupt
    show some contents = some none
    rw [given corrupt]
  cases input with
  | works mtime =>
    rw [respond]
    cases there : s.settings with
    | none => exact ⟨inv,fine,rfl,rfl⟩
    | some file =>
      refine copies file.contents ?_
      intro corrupt
      rw [Disk.corrupt,there] at corrupt
      exact Option.some.inj corrupt
  | fails code begun =>
    cases begun with
    | false => exact ⟨inv,fine,rfl,rfl⟩
    | true => exact copies none (fun _ => rfl)

theorem copyAttempts_safe (later : ℕ) (inv : Inv mild initial s) (fine : s.Fine) :
    safe respond (Tolerated mild) (Inv mild initial) (copyAttempts later).run (fun _ t => Unchanged s t) s := by
  induction later generalizing s with
  | zero => exact safe_pure inv ⟨rfl,rfl⟩
  | succ later ih =>
    rw [copyAttempts]
    apply safe_bind
    refine safe_ask inv ?_
    intro input _
    obtain ⟨kept,still,unchanged⟩ := copy_keeps inv fine input
    refine ⟨kept,?_⟩
    dsimp only
    split
    · exact safe_pure kept unchanged
    · split
      · exact safe_mono (fun _ _ _ after => unchanged.trans after) (ih kept still)
      · exact safe_pure kept unchanged

theorem snapshot_safe (inv : Inv mild initial s) (skipBecauseBackupRead : Bool) (fine : skipBecauseBackupRead = false → s.Fine) :
    safe respond (Tolerated mild) (Inv mild initial) (trySnapshotUnifiedSettingsBackupAsync skipBecauseBackupRead).run (fun _ t => Unchanged s t) s := by
  rw [trySnapshotUnifiedSettingsBackupAsync]
  split
  · exact safe_pure inv ⟨rfl,rfl⟩
  · next takes =>
    apply safe_bind
    refine safe_ask inv ?_
    intro input _
    have same : (respond s .existsPrimary input).1 = s := by cases input <;> rfl
    rw [same]
    refine ⟨inv,?_⟩
    dsimp only
    split
    · exact copyAttempts_safe 5 inv (fine (Bool.eq_false_iff.mpr takes))
    · exact safe_pure inv ⟨rfl,rfl⟩

/-- The temporary file holds what the save makes of the file. -/
def Prepared (mild : Prop) (initial : Option Record) (section_ : String) (value : Record) (disk : Disk) : Prop :=
  ∃ record, disk.temp = some record ∧ (mild → replay initial (disk.saved ++ [(section_,value)]) = some record)

variable {section_ : String} {value : Record}

theorem renamed_keeps (inv : Inv mild initial s) (prepared : Prepared mild initial section_ value s) (input : Input) :
    Inv mild initial (respond s (.renameTemp section_ value) input).1 ∧
      match (respond s (.renameTemp section_ value) input).2 with
      | .ok _ => (respond s (.renameTemp section_ value) input).1.saved = s.saved ++ [(section_,value)]
      | .error _ => (respond s (.renameTemp section_ value) input).1 = s := by
  cases input with
  | works mtime =>
    obtain ⟨record,temp,replays⟩ := prepared
    rw [respond,temp]
    refine ⟨⟨inv.unspoiled,?_⟩,rfl⟩
    intro holds
    show some (some record) = (replay initial (s.saved ++ [(section_,value)])).map some
    rw [replays holds]
    rfl
  | fails code begun => exact ⟨inv,rfl⟩

theorem renameAttempts_safe (later : ℕ) (inv : Inv mild initial s) (prepared : Prepared mild initial section_ value s) :
    safe respond (Tolerated mild) (Inv mild initial) (renameAttempts section_ value (later + 1)).run (Saves section_ value s) s := by
  induction later with
  | zero =>
    rw [renameAttempts]
    apply safe_bind
    refine safe_ask inv ?_
    intro input _
    obtain ⟨kept,does⟩ := renamed_keeps inv prepared input
    refine ⟨kept,?_⟩
    dsimp only
    split
    · next moved =>
      rw [moved] at does
      exact safe_pure kept does
    · next moved =>
      rw [moved] at does
      rw [if_neg (fun both => both.2 rfl),does]
      exact safe_throw inv ⟨rfl,rfl⟩
  | succ later ih =>
    rw [renameAttempts]
    apply safe_bind
    refine safe_ask inv ?_
    intro input _
    obtain ⟨kept,does⟩ := renamed_keeps inv prepared input
    refine ⟨kept,?_⟩
    dsimp only
    split
    · next moved =>
      rw [moved] at does
      exact safe_pure kept does
    · next moved =>
      rw [moved] at does
      rw [does]
      split
      · exact ih
      · exact safe_throw inv ⟨rfl,rfl⟩

theorem Saves.trans {t u : Disk} {result : Except Failure Unit} (unchanged : Unchanged s t)
    (saves : Saves section_ value t result u) : Saves section_ value s result u := by
  cases result with
  | ok done =>
    show u.saved = s.saved ++ [(section_,value)]
    rw [← unchanged.2]
    exact saves
  | error failure => exact unchanged.trans saves

theorem moveIntoPlace_safe (inv : Inv mild initial s) (prepared : Prepared mild initial section_ value s)
    (expectedMtimeMs : Option ℕ) :
    safe respond (Tolerated mild) (Inv mild initial) (moveIntoPlace section_ value expectedMtimeMs).run (Saves section_ value s) s := by
  refine safe_after (mtime_safe inv) ?_ (fun _ _ => ⟨rfl,rfl⟩)
  intro currentMtimeMs _
  split
  · exact safe_throw inv ⟨rfl,rfl⟩
  · exact renameAttempts_safe 4 inv prepared

theorem mkdir_same (disk : Disk) (input : Input) : (respond disk .mkdir input).1 = disk := by cases input <;> rfl

theorem writeTemp_keeps (inv : Inv mild initial s) (record : Record) (input : Input) :
    Inv mild initial (respond s (.writeTemp record) input).1 ∧ Unchanged s (respond s (.writeTemp record) input).1 ∧
      ∀ done, (respond s (.writeTemp record) input).2 = .ok done → (respond s (.writeTemp record) input).1.temp = some record := by
  cases input with
  | works mtime => exact ⟨⟨inv.unspoiled,inv.replays⟩,⟨rfl,rfl⟩,fun _ _ => rfl⟩
  | fails code begun =>
    refine ⟨⟨inv.unspoiled,inv.replays⟩,⟨rfl,rfl⟩,?_⟩
    rintro done ⟨⟩

theorem unlinkTemp_keeps (inv : Inv mild initial s) (input : Input) :
    Inv mild initial (respond s .unlinkTemp input).1 ∧ Unchanged s (respond s .unlinkTemp input).1 := by
  cases input with
  | works mtime => exact ⟨⟨inv.unspoiled,inv.replays⟩,rfl,rfl⟩
  | fails code begun => exact ⟨inv,rfl,rfl⟩

theorem replay_snoc (saved : List (String × Record)) (save : String × Record) : replay initial (saved ++ [save]) = applySave (replay initial saved) save :=
  List.foldl_append

theorem writeSettings_safe {record : Option Record} {usedBackup : Bool} (inv : Inv mild initial s)
    (reads : Reads mild s (.ok (record,usedBackup))) (expectedMtimeMs : Option ℕ) :
    safe respond (Tolerated mild) (Inv mild initial)
      (writeSettingsRecordAsync section_ value (put (record.getD []) section_ (.obj value)) usedBackup expectedMtimeMs).run (Saves section_ value s)
      s := by
  rw [writeSettingsRecordAsync]
  apply safe_bind
  refine safe_ask inv ?_
  intro input _
  rw [mkdir_same]
  refine ⟨inv,?_⟩
  apply safe_bind
  refine safe_orThrow inv (fun _ _ => ?_) (fun _ _ => ⟨rfl,rfl⟩)
  apply safe_bind
  refine safe_mono ?_ (snapshot_safe inv usedBackup reads.1)
  intro found t here unchanged
  cases found with
  | error failure => exact unchanged
  | ok snapped =>
    apply safe_bind
    refine safe_ask here ?_
    intro input _
    obtain ⟨kept,still,written⟩ := writeTemp_keeps here (normalizeForWrite (put (record.getD []) section_ (.obj value))) input
    have unchanged := unchanged.trans still
    refine ⟨kept,?_⟩
    apply safe_bind
    refine safe_orThrow kept ?_ (fun _ _ => unchanged)
    intro done works
    apply safe_tryCatch
    have prepared : Prepared mild initial section_ value
        (respond t (.writeTemp (normalizeForWrite (put (record.getD []) section_ (.obj value)))) input).1 := by
      refine ⟨_,written done works,?_⟩
      intro holds
      rw [unchanged.2,replay_snoc,← inv.record holds,← (reads.2 holds).2]
      rfl
    refine safe_mono ?_ (moveIntoPlace_safe kept prepared expectedMtimeMs)
    intro result u there saves
    have saves := saves.trans unchanged
    cases result with
    | ok moved => exact saves
    | error failure =>
      apply safe_bind
      refine safe_ask there ?_
      intro input _
      obtain ⟨kept,still⟩ := unlinkTemp_keeps there input
      exact ⟨kept,safe_throw kept (Unchanged.trans saves still)⟩

theorem saveAttempts_safe {record : Option Record} {usedBackup : Bool} (later : ℕ) (inv : Inv mild initial s)
    (reads : Reads mild s (.ok (record,usedBackup))) (expectedMtimeMs : Option ℕ) :
    safe respond (Tolerated mild) (Inv mild initial) (saveAttempts section_ value (later + 1) expectedMtimeMs record usedBackup).run
      (Saves section_ value s) s := by
  induction later generalizing s expectedMtimeMs record usedBackup with
  | zero =>
    rw [saveAttempts]
    apply safe_tryCatch
    refine safe_mono ?_ (writeSettings_safe inv reads expectedMtimeMs)
    intro result t here saves
    cases result with
    | ok written => exact saves
    | error failure =>
      dsimp only
      rw [if_pos (Or.inr rfl)]
      exact safe_throw here saves
  | succ later ih =>
    rw [saveAttempts]
    apply safe_tryCatch
    refine safe_mono ?_ (writeSettings_safe inv reads expectedMtimeMs)
    intro result t here saves
    cases result with
    | ok written => exact saves
    | error failure =>
      have unchanged : Unchanged s t := saves
      dsimp only
      split
      · exact safe_throw here saves
      · refine safe_after (mtime_safe here) ?_ (fun _ _ => unchanged)
        intro expectedMtimeMs _
        refine safe_after (readSettings_safe here) ?_ (fun _ _ => unchanged)
        intro found reads
        exact safe_mono (fun _ _ _ saves => saves.trans unchanged) (ih here reads expectedMtimeMs)

theorem saveSection_safe (inv : Inv mild initial s) :
    safe respond (Tolerated mild) (Inv mild initial) (saveSection section_ value).run (Saves section_ value s) s := by
  refine safe_after (mtime_safe inv) ?_ (fun _ _ => ⟨rfl,rfl⟩)
  intro expectedMtimeMs _
  refine safe_after (readSettings_safe inv) ?_ (fun _ _ => ⟨rfl,rfl⟩)
  intro found reads
  exact saveAttempts_safe 2 inv reads expectedMtimeMs

end

namespace Disk

def start (settings : Option SettingsFile) (backup : Option Contents) : Disk := ⟨settings,backup,none,[],false⟩

def valueOf (disk : Disk) (key : String) : Option Json := disk.record.bind (fun record => find record key)

end Disk

/-- The value a key was last saved with, else the one it had. -/
def latest (initial : Option Record) (saved : List (String × Record)) (key : String) : Option Json :=
  saved.foldl (fun value save => if save.1 = key then some (.obj save.2) else value) (initial.bind (fun record => find record key))

theorem find_applySave (record : Option Record) (save : String × Record) {key : String} (unversioned : key ≠ "version") :
    (applySave record save).bind (fun record => find record key) =
      if save.1 = key then some (.obj save.2) else record.bind (fun record => find record key) := by
  show find (put (put (record.getD []) save.1 (.obj save.2)) "version" (.num 1)) key = _
  rw [find_put,if_neg unversioned.symm,find_put]
  cases record with
  | none => rfl
  | some record => rfl

theorem find_replay (initial : Option Record) (saved : List (String × Record)) {key : String} (unversioned : key ≠ "version") :
    (replay initial saved).bind (fun record => find record key) = latest initial saved key := by
  induction saved generalizing initial with
  | nil => rfl
  | cons save rest ih =>
    rw [replay,List.foldl_cons,← replay,ih,latest,latest,List.foldl_cons,find_applySave initial save unversioned]

theorem Save.program_safe {mild : Prop} {initial : Option Record} {s : Disk} (save : Save) (inv : Inv mild initial s) :
    safe respond (Tolerated mild) (Inv mild initial) save.program (Saves save.section_ save.value s) s := by
  cases save with
  | pluginConfig value => exact saveSection_safe inv
  | dashboardDisplaySettings value => exact saveSection_safe inv

/-- In every run of saves in which an intact file is read or fails with a code taken for
    transient, the file is what the saves that took effect have made of it, one after another,
    so that every key has its latest value. And whatever fails, a save that fails leaves the
    file as it was, and a corrupt file is never copied over a valid backup. -/
theorem saves_keep_sections (initial : Option Record) (settings : Option SettingsFile) (backup : Option Contents)
    (w : Exclusive.World Answer Disk Save (Except Failure Unit)) :
    (settings.map SettingsFile.contents = initial.map some →
      Exclusive.Runs respond (fun _ => Tolerated True) Save.program (Exclusive.World.quiet (Disk.start settings backup)) w →
      w.state.settings.map SettingsFile.contents = (replay initial w.state.saved).map some ∧
      (∀ key ≠ "version", w.state.valueOf key = latest initial w.state.saved key) ∧
      ∀ save began, w.call = some ⟨save,began,.done (.ok ())⟩ → w.state.saved = began.saved ++ [(save.section_,save.value)]) ∧
    (Exclusive.Runs respond (fun _ => Tolerated False) Save.program (Exclusive.World.quiet (Disk.start settings backup)) w →
      w.state.spoiled = false ∧
      ∀ save began failure, w.call = some ⟨save,began,.done (.error failure)⟩ → w.state.settings = began.settings) := by
  constructor
  · intro intact run
    have start : Inv True initial (Disk.start settings backup) := ⟨rfl,fun _ => intact⟩
    have keeps := Exclusive.Keeps.run (fun save s inv => save.program_safe inv) start run
    refine ⟨keeps.1.replays trivial,?_,?_⟩
    · intro key unversioned
      rw [Disk.valueOf,keeps.1.record trivial,find_replay initial _ unversioned]
    · intro save began ended
      exact keeps.ended ended
  · intro run
    have start : Inv False initial (Disk.start settings backup) := ⟨rfl,False.elim⟩
    have keeps := Exclusive.Keeps.run (fun save s inv => save.program_safe inv) start run
    refine ⟨keeps.1.unspoiled,?_⟩
    intro save began failure ended
    exact (show Unchanged began w.state from keeps.ended ended).1

/-- A save to whose requests the disk answers so. -/
def Save.answered (save : Save) (answers : List Input) : List (Exclusive.Action Input Save) := .begin save :: answers.map .answer

def oldDisplay : Record := [("menuStatuslineFields",.arr [])]
def newDisplay : Record := [("menuStatuslineFields",.arr [.str "limits"])]

/-- The display settings are saved twice, with no file before, and then the plugin's
    settings, with these answers. -/
def threeSaves (answers : List Input) : List (Exclusive.Action Input Save) :=
  (Save.dashboardDisplaySettings oldDisplay).answered (List.replicate 8 (.works 1)) ++ [.leave] ++
    (Save.dashboardDisplaySettings newDisplay).answered (List.replicate 9 (.works 2)) ++ [.leave] ++
    (Save.pluginConfig []).answered answers

def noSettings : Exclusive.World Answer Disk Save (Except Failure Unit) := .quiet (Disk.start none none)

def savesEnd (answers : List Input) : Exclusive.World Answer Disk Save (Except Failure Unit) :=
  (threeSaves answers).foldl (fun w action => w.step respond Save.program action) noSettings

instance (such : Code → Prop) [DecidablePred such] (disk : Disk) (request : Request) (input : Input) : Decidable (ReadFails such disk request input) :=
  match request,input with
  | .read .primary,.fails code _ => inferInstanceAs (Decidable (such code))
  | .read .primary,.works _ => isTrue trivial
  | .read .backup,_ => isTrue trivial
  | .stat,_ => isTrue trivial
  | .existsPrimary,_ => isTrue trivial
  | .mkdir,_ => isTrue trivial
  | .copyToBackup,_ => isTrue trivial
  | .writeTemp _,_ => isTrue trivial
  | .renameTemp _ _,_ => isTrue trivial
  | .unlinkTemp,_ => isTrue trivial

theorem savesEnd_runs (such : Code → Prop) {answers : List Input}
    (legal : Runs.Legal (fun w action => w.step respond Save.program action) (fun w action => w.enabled (fun _ => ReadFails such) action) noSettings
      (threeSaves answers)) : Exclusive.Runs respond (fun _ => ReadFails such) Save.program noSettings (savesEnd answers) :=
  (Runs.Run.nil _).ofList _ legal

/-- Three saves that work, and a third that cannot read the file's date. -/
theorem saves_keep_sections_three :
    (savesEnd (List.replicate 9 (.works 3))).state.valueOf "dashboardDisplaySettings" = some (.obj newDisplay) ∧
      (savesEnd [.fails .EACCES false]).state.spoiled = false :=
  ⟨((saves_keep_sections none none none (savesEnd (List.replicate 9 (.works 3)))).1 rfl (savesEnd_runs _ (by decide))).2.1
      "dashboardDisplaySettings" (by decide),
    ((saves_keep_sections none none none (savesEnd [.fails .EACCES false])).2 (savesEnd_runs _ (by decide))).1⟩

def unreadable (code : Code) : List Input := [.works 3,.works 3,.fails code false] ++ List.replicate 5 (.works 3)

/-- A read of an intact file fails with EACCES, and the save takes the display settings of
    the backup for the latest. -/
theorem section_goes_back :
    Exclusive.Runs respond (fun _ => ReadFails (fun code => code ∈ [Code.EBUSY,.EPERM,.EACCES,.EAGAIN])) Save.program noSettings
        (savesEnd (unreadable .EACCES)) ∧
      (∃ began, (savesEnd (unreadable .EACCES)).call = some ⟨.pluginConfig [],began,.done (.ok ())⟩) ∧
      latest none (savesEnd (unreadable .EACCES)).state.saved "dashboardDisplaySettings" = some (.obj newDisplay) ∧
      (savesEnd (unreadable .EACCES)).state.valueOf "dashboardDisplaySettings" = some (.obj oldDisplay) :=
  ⟨savesEnd_runs _ (by decide),⟨_,rfl⟩,rfl,rfl⟩

end CodexMultiAuth.UnifiedSettings
