import CodexMultiAuth.FlaggedAccounts
import CodexMultiAuth.Runs

/-!
The files of the flagged accounts: saves, clears and loads, one after another, with
whatever of them that fails. A clear leaves the legacy file, from which the next load
migrates the accounts again; a save whose removal of the reset marker fails is not read
back.
-/
namespace CodexMultiAuth.Flagged

structure Disk where
  primary : Option Content := none
  bak : Option Content := none
  bak1 : Option Content := none
  bak2 : Option Content := none
  legacy : Option Content := none
  resetMarker : Bool := false

namespace Disk

def backups (disk : Disk) : List Content := [disk.bak,disk.bak1,disk.bak2].filterMap id

end Disk

structure SaveFaults where
  mkdir : Bool := false
  copyFile : Bool := false
  /-- The temporary file cannot be written or not be renamed. -/
  replace : Bool := false
  unlinkMarker : Bool := false

/-- The files after a save, and whether it completes. -/
def saveFlaggedAccountsUnlockedToDisk (now : ℚ) (storage : List Record) (faults : SaveFaults) (disk : Disk) : Disk × Bool :=
  if faults.mkdir then (disk,false)
  else
    let copied := if disk.primary.isSome && !faults.copyFile then { disk with bak := disk.primary } else disk
    if faults.replace then (copied,false)
    else
      let saved := { copied with primary := some (some (toJson (normalizeFlaggedStorage now (toJson storage)))) }
      (if faults.unlinkMarker then saved else { saved with resetMarker := false },true)

structure ClearFaults where
  writeMarker : Bool := false
  unlinkPrimary : Bool := false
  unlinkBak : Bool := false
  unlinkBak1 : Bool := false
  unlinkBak2 : Bool := false
  /-- Of a backup that no load takes. -/
  unlinkOther : Bool := false
  unlinkMarker : Bool := false

/-- The marker stays as long as there may be a backup. -/
def ClearFaults.keepResetMarker (faults : ClearFaults) : Bool := faults.unlinkBak || faults.unlinkBak1 || faults.unlinkBak2 || faults.unlinkOther

def clearFlaggedAccountsOnDisk (faults : ClearFaults) (disk : Disk) : Disk × Bool :=
  if faults.writeMarker then (disk,false)
  else
    let marked := { disk with resetMarker := true }
    if faults.unlinkPrimary then (marked,false)
    else
      let cleared : Disk :=
        { marked with
          primary := none
          bak := if faults.unlinkBak then disk.bak else none
          bak1 := if faults.unlinkBak1 then disk.bak1 else none
          bak2 := if faults.unlinkBak2 then disk.bak2 else none }
      if faults.keepResetMarker then (cleared,true)
      else if faults.unlinkMarker then (cleared,false)
      else ({ cleared with resetMarker := false },true)

structure LoadFaults where
  save : SaveFaults := {}
  unlinkLegacy : Bool := false

variable (accepts : Json → Bool)

/-- The first backup that can be read, saved again unless it is empty. Nothing sets the
    marker in between, so one look at it is enough. -/
def loadFlaggedBackup (now : ℚ) (faults : LoadFaults) (disk : Disk) : Option (Disk × List Record) :=
  (disk.backups.findSome? (candidate accepts now)).map (fun recovered =>
    (if recovered.isEmpty then disk else (saveFlaggedAccountsUnlockedToDisk now recovered faults.save disk).1,recovered))

def migrateLegacy (now : ℚ) (faults : LoadFaults) (disk : Disk) : Disk × List Record :=
  match disk.legacy.bind (parseFlaggedStorageContent accepts) with
  | none => (disk,[])
  | some legacyData =>
    let migrated := normalizeFlaggedStorage now legacyData
    let saved := if migrated.isEmpty then (disk,true) else saveFlaggedAccountsUnlockedToDisk now migrated faults.save disk
    if saved.2 then (if faults.unlinkLegacy then saved.1 else { saved.1 with legacy := none },migrated) else (saved.1,[])

/-- The files after a load, and what it returns. -/
def loadFlaggedAccountsState (now : ℚ) (faults : LoadFaults) (disk : Disk) : Disk × List Record :=
  if disk.resetMarker then (disk,[])
  else
    match disk.primary with
    | some content =>
      match candidate accepts now content with
      | some loaded => (disk,loaded)
      | none => (loadFlaggedBackup accepts now faults disk).getD (disk,[])
    | none => (loadFlaggedBackup accepts now faults disk).getD (migrateLegacy accepts now faults disk)

structure State where
  disk : Disk
  /-- What the last save or clear that completed asks of the loads, unless a later clear
      has stopped half way. -/
  expected : Option (List Record) := none

inductive Action where
  | save (now : ℚ) (storage : List Record) (faults : SaveFaults)
  | clear (faults : ClearFaults)
  | load (now : ℚ) (faults : LoadFaults)

def step (s : State) : Action → State
  | .save now storage faults =>
    let saved := saveFlaggedAccountsUnlockedToDisk now storage faults s.disk
    ⟨saved.1,if saved.2 then some (normalizeFlaggedStorage now (toJson storage)) else s.expected⟩
  | .clear faults =>
    let cleared := clearFlaggedAccountsOnDisk faults s.disk
    ⟨cleared.1,if cleared.2 then some [] else if faults.writeMarker then s.expected else s.expected.filter List.isEmpty⟩
  | .load now faults => ⟨(loadFlaggedAccountsState accepts now faults s.disk).1,s.expected⟩

def enabled (_ : State) : Action → Prop
  | .save _ storage _ => ∀ row ∈ storage, Typed row
  | _ => True

/-- A load returns what was saved, and nothing after a clear. -/
def Kept (s : State) : Prop :=
  ∀ accounts, s.expected = some accounts → ∀ now faults, (loadFlaggedAccountsState accepts now faults s.disk).2 = accounts

def legacyHasAccounts (disk : Disk) : Bool :=
  (disk.legacy.bind (parseFlaggedStorageContent accepts)).any (fun data => !(normalizeFlaggedStorage 0 data).isEmpty)

/-- A save that completes removes the marker, if there is one and there are accounts; a
    clear that does not keep the marker finds no accounts in the legacy file. -/
def Careful (s : State) : Action → Prop
  | .save now storage faults =>
    faults.mkdir = false → faults.replace = false → s.disk.resetMarker = true → faults.unlinkMarker = true →
      normalizeFlaggedStorage now (toJson storage) = []
  | .clear faults =>
    faults.writeMarker = false → faults.unlinkPrimary = false → faults.keepResetMarker = false → faults.unlinkMarker = false →
      legacyHasAccounts accepts s.disk = false
  | .load _ _ => True

/-- Where loads find what is expected: behind the marker, in the primary, or in no file at all. -/
inductive Settled (disk : Disk) : List Record → Prop where
  | marked (here : disk.resetMarker = true) : Settled disk []
  | saved {content : Content} {accounts : List Record} (unmarked : disk.resetMarker = false) (stored : disk.primary = some content)
      (reads : ∀ now, candidate accepts now content = some accounts) : Settled disk accounts
  | cleared (unmarked : disk.resetMarker = false) (primary : disk.primary = none) (backups : disk.backups = [])
      (legacy : legacyHasAccounts accepts disk = false) : Settled disk []

def Good (s : State) : Prop := ∀ accounts, s.expected = some accounts → Settled accepts s.disk accounts

/-! ### What an operation leaves -/

section
variable {accepts : Json → Bool} {disk : Disk} {accounts : List Record}

theorem migrateLegacy_empty (legacy : legacyHasAccounts accepts disk = false) (now : ℚ) (faults : LoadFaults) :
    (migrateLegacy accepts now faults disk).2 = [] ∧
      ((migrateLegacy accepts now faults disk).1 = disk ∨ (migrateLegacy accepts now faults disk).1 = { disk with legacy := none }) := by
  rw [legacyHasAccounts] at legacy
  unfold migrateLegacy
  cases parsed : disk.legacy.bind (parseFlaggedStorageContent accepts) with
  | none => exact ⟨rfl,Or.inl rfl⟩
  | some legacyData =>
    rw [parsed,Option.any_some,Bool.not_eq_false',normalizeFlaggedStorage_isEmpty 0 now] at legacy
    dsimp only
    rw [if_pos legacy,if_pos rfl]
    refine ⟨List.isEmpty_iff.mp legacy,?_⟩
    split
    · exact Or.inl rfl
    · exact Or.inr rfl

theorem load_marked (here : disk.resetMarker = true) (now : ℚ) (faults : LoadFaults) : loadFlaggedAccountsState accepts now faults disk = (disk,[]) :=
  if_pos here

theorem Settled.load (settled : Settled accepts disk accounts) (now : ℚ) (faults : LoadFaults) :
    (loadFlaggedAccountsState accepts now faults disk).2 = accounts ∧ Settled accepts (loadFlaggedAccountsState accepts now faults disk).1 accounts := by
  cases settled with
  | marked here =>
    rw [load_marked here]
    exact ⟨rfl,Settled.marked here⟩
  | saved unmarked stored reads =>
    rw [loadFlaggedAccountsState,if_neg (Bool.eq_false_iff.mp unmarked),stored]
    dsimp only
    rw [reads now]
    exact ⟨rfl,Settled.saved unmarked stored reads⟩
  | cleared unmarked primary backups legacy =>
    have none_ : loadFlaggedBackup accepts now faults disk = none := by
      rw [loadFlaggedBackup,backups]
      rfl
    rw [loadFlaggedAccountsState,if_neg (Bool.eq_false_iff.mp unmarked),primary,none_]
    dsimp only [Option.getD_none]
    obtain ⟨nothing,same | gone⟩ := migrateLegacy_empty legacy now faults
    · exact ⟨nothing,by rw [same]; exact Settled.cleared unmarked primary backups legacy⟩
    · exact ⟨nothing,by rw [gone]; exact Settled.cleared unmarked primary backups rfl⟩

theorem Settled.copied (settled : Settled accepts disk accounts) (copyFile : Bool) :
    Settled accepts (if disk.primary.isSome && !copyFile then { disk with bak := disk.primary } else disk) accounts := by
  split
  · next copies =>
    cases settled with
    | marked here => exact Settled.marked here
    | saved unmarked stored reads => exact Settled.saved unmarked stored reads
    | cleared unmarked primary backups legacy =>
      rw [primary] at copies
      cases copies
  · exact settled

variable {faults : SaveFaults}

theorem save_completes (disk : Disk) (now : ℚ) (storage : List Record) (directory : faults.mkdir = false)
    (replaced : faults.replace = false) :
    (saveFlaggedAccountsUnlockedToDisk now storage faults disk).2 = true ∧
      (saveFlaggedAccountsUnlockedToDisk now storage faults disk).1.primary = some (some (toJson (normalizeFlaggedStorage now (toJson storage)))) ∧
      (saveFlaggedAccountsUnlockedToDisk now storage faults disk).1.resetMarker = (disk.resetMarker && faults.unlinkMarker) := by
  rw [saveFlaggedAccountsUnlockedToDisk,directory,replaced]
  cases faults.unlinkMarker with
  | false => exact ⟨rfl,rfl,(Bool.and_false _).symm⟩
  | true =>
    refine ⟨rfl,rfl,Eq.trans ?_ (Bool.and_true _).symm⟩
    cases (disk.primary.isSome && !faults.copyFile) <;> rfl

variable {s : State}

theorem good_save {now : ℚ} {storage : List Record} (typed : ∀ row ∈ storage, Typed row) (good : Good accepts s)
    (careful : Careful accepts s (.save now storage faults)) : Good accepts (step accepts s (.save now storage faults)) := by
  intro accounts expected
  cases directory : faults.mkdir with
  | true =>
    rw [step,saveFlaggedAccountsUnlockedToDisk,directory] at expected ⊢
    exact good accounts expected
  | false =>
    cases replaced : faults.replace with
    | true =>
      rw [step,saveFlaggedAccountsUnlockedToDisk,directory,replaced] at expected ⊢
      exact (good accounts expected).copied faults.copyFile
    | false =>
      obtain ⟨completes,stored,marker⟩ := save_completes s.disk now storage directory replaced
      rw [step] at expected ⊢
      dsimp only at expected ⊢
      rw [if_pos completes] at expected
      cases expected
      cases stays : s.disk.resetMarker && faults.unlinkMarker with
      | false => exact Settled.saved (marker.trans stays) stored (fun later => candidate_saved accepts now later typed)
      | true =>
        obtain ⟨marked,stuck⟩ := Bool.and_eq_true_iff.mp stays
        rw [careful directory replaced marked stuck]
        exact Settled.marked (marker.trans stays)

theorem good_clear {faults : ClearFaults} (good : Good accepts s) (careful : Careful accepts s (.clear faults)) :
    Good accepts (step accepts s (.clear faults)) := by
  intro accounts expected
  rw [step,clearFlaggedAccountsOnDisk] at expected ⊢
  cases noMarker : faults.writeMarker with
  | true =>
    rw [noMarker] at expected
    exact good accounts expected
  | false =>
    rw [noMarker] at expected
    -- a clear that stops half way has set the marker
    have half : ∀ {some_ : Option (List Record)} {disk : Disk}, disk.resetMarker = true → some_.filter List.isEmpty = some accounts →
        Settled accepts disk accounts := by
      intro some_ disk marked filtered
      rw [List.isEmpty_iff.mp (Option.filter_eq_some_iff.mp filtered).2]
      exact Settled.marked marked
    cases stays : faults.unlinkPrimary with
    | true =>
      rw [stays] at expected
      exact half rfl expected
    | false =>
      rw [stays] at expected
      cases keeps : faults.keepResetMarker with
      | true =>
        rw [keeps] at expected
        cases expected
        exact Settled.marked rfl
      | false =>
        rw [keeps] at expected
        cases stuck : faults.unlinkMarker with
        | true =>
          rw [stuck] at expected
          exact half rfl expected
        | false =>
          rw [stuck] at expected
          cases expected
          have legacy := careful noMarker stays keeps stuck
          rw [ClearFaults.keepResetMarker,Bool.or_eq_false_iff,Bool.or_eq_false_iff,Bool.or_eq_false_iff] at keeps
          obtain ⟨⟨⟨bak,bak1⟩,bak2⟩,-⟩ := keeps
          refine Settled.cleared rfl rfl ?_ legacy
          rw [bak,bak1,bak2]
          rfl

theorem good_step {action : Action} (may : enabled s action) (good : Good accepts s) (careful : Careful accepts s action) :
    Good accepts (step accepts s action) := by
  cases action with
  | save now storage faults => exact good_save may good careful
  | clear faults => exact good_clear good careful
  | load now faults => exact fun accounts expected => ((good accounts expected).load now faults).2

theorem careful_save {now : ℚ} {storage : List Record}
    (kept : Kept accepts (step accepts s (.save now storage faults))) : Careful accepts s (.save now storage faults) := by
  intro directory replaced marked stays
  obtain ⟨completes,-,marker⟩ := save_completes s.disk now storage directory replaced
  rw [marked,stays] at marker
  rw [step] at kept
  rw [if_pos completes] at kept
  exact (kept _ rfl 0 {}).symm.trans (congrArg Prod.snd (load_marked marker 0 {}))

theorem migrateLegacy_some (legacy : legacyHasAccounts accepts disk = true) : (migrateLegacy accepts 0 {} disk).2 ≠ [] := by
  rw [legacyHasAccounts,Option.any_eq_true] at legacy
  obtain ⟨legacyData,parsed,some_⟩ := legacy
  rw [Bool.not_eq_true'] at some_
  rw [migrateLegacy,parsed]
  dsimp only
  rw [some_,if_neg Bool.false_ne_true,if_pos (save_completes _ _ _ rfl rfl).1]
  intro none_
  dsimp only at none_
  rw [none_] at some_
  cases some_

theorem careful_clear {faults : ClearFaults} (kept : Kept accepts (step accepts s (.clear faults))) :
    Careful accepts s (.clear faults) := by
  intro marker primary keeps unmarked
  rw [step,clearFlaggedAccountsOnDisk,marker,primary,keeps,unmarked] at kept
  rw [← Bool.not_eq_true]
  intro legacy
  have reads := kept _ rfl 0 {}
  rw [ClearFaults.keepResetMarker,Bool.or_eq_false_iff,Bool.or_eq_false_iff,Bool.or_eq_false_iff] at keeps
  obtain ⟨⟨⟨bak,bak1⟩,bak2⟩,-⟩ := keeps
  rw [bak,bak1,bak2] at reads
  have migrates : (migrateLegacy accepts 0 {} { s.disk with primary := none,bak := none,bak1 := none,bak2 := none,resetMarker := false }).2 ≠ [] :=
    migrateLegacy_some legacy
  exact migrates reads

end

/-- Loads return what was saved or cleared throughout just when every save and clear of a
    run is careful, whatever files there are at the start and whatever fails. -/
theorem flagged_pool_kept_iff (accepts : Json → Bool) (disk : Disk) (actions : List Action)
    (legal : Runs.Legal (step accepts) enabled ⟨disk,none⟩ actions) :
    Runs.Along (step accepts) (Kept accepts) ⟨disk,none⟩ actions ↔ Runs.Legal (step accepts) (Careful accepts) ⟨disk,none⟩ actions := by
  refine Runs.along_iff_legal (fun s (good : Good accepts s) => ?_) ?_ ?_ legal ?_
  · exact fun accounts expected now faults => ((good accounts expected).load now faults).1
  · exact fun s action may good careful => good_step may good careful
  · intro s action may good kept
    cases action with
    | save now storage faults => exact careful_save kept
    | clear faults => exact careful_clear kept
    | load now faults => trivial
  · exact fun accounts absent => nomatch absent

def flaggedAccount : Record := [("refreshToken",.str "r"),("flaggedAt",.num 1)]

/-- An account is saved, and the store is cleared. -/
def clearing : List Action := [.save 0 [flaggedAccount] {},.clear {}]

theorem saved_stays_saved : Runs.Along (step (fun _ => true)) (Kept (fun _ => true)) ⟨{},none⟩ clearing := by
  refine (flagged_pool_kept_iff (fun _ => true) {} clearing ?_).mpr ?_
  · refine ⟨?_,trivial,trivial⟩
    intro row member items found
    rw [List.mem_singleton.mp member] at found
    cases found
  · exact ⟨fun _ _ _ stuck => (nomatch stuck),fun _ _ _ _ => rfl,trivial⟩

theorem legacy_comes_back : ¬ ∀ (accepts : Json → Bool) (disk : Disk) (actions : List Action),
    Runs.Legal (step accepts) enabled ⟨disk,none⟩ actions → Runs.Along (step accepts) (Kept accepts) ⟨disk,none⟩ actions := by
  intro kept
  have reads := (kept (fun _ => false) { legacy := some (some (toJson [flaggedAccount])) } [.clear {}] ⟨trivial,trivial⟩).2 [] rfl 0 {}
  exact absurd reads (by decide +kernel)

end CodexMultiAuth.Flagged
