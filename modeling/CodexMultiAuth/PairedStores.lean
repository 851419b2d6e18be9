import CodexMultiAuth.Runs
import CodexMultiAuth.SnapshotMerge

/-!
The transaction over the active and the flagged accounts. Each of the two files is
saved in one atomic step that succeeds, fails or is the last before a crash; a file
is followed by the pool that is loaded from it.
-/
namespace CodexMultiAuth.PairedStores
open AccountStorageV3
set_option linter.unusedSectionVars false

section
variable [Host]

structure Disk where
  active : Option AccountStorageV3
  flagged : List Record

/-- How the save of one file goes. -/
inductive Save where
  | done
  | failed
  | crashedBefore
  | crashedAfter
  deriving DecidableEq

inductive Outcome where
  | persisted
  | error
  /-- The save of the flagged accounts failed, and so did the rollback. -/
  | combinedError
  | crashed
  deriving DecidableEq

structure Transaction where
  disk : Disk
  snapshot : Option AccountStorageV3

/-- A call of `persist`: the pools, the baseline that the active one was loaded with, and how its saves go. -/
structure Persist where
  accountStorage : AccountStorageV3
  baseline : Option AccountStorageV3 := none
  flaggedStorage : List Record
  accountsSave : Save := .done
  flaggedSave : Save := .done
  rollback : Save := .done

def cloneAccountStorageForPersistence (storage : Option AccountStorageV3) : AccountStorageV3 where
  accounts := (storage.map accounts).getD []
  activeIndex := (storage.map activeIndex).getD 0
  activeIndexByFamily := some ((storage.bind activeIndexByFamily).getD [])
  pinnedAccountIndex := storage.bind pinnedAccountIndex
  fields := OrderedMap.assign [("version",.num 3)] "affinityGeneration"
    ((storage.bind (fun storage => Record.number storage.fields "affinityGeneration")).map Json.num)

/-- The pool that is saved: the three-way merge where the proposal was loaded. -/
def nextAccounts (t : Transaction) (call : Persist) : Except StorageError AccountStorageV3 :=
  match call.baseline with
  | some baseline => (mergeAccountSnapshot (some baseline) t.snapshot call.accountStorage).map (fun merged => cloneAccountStorageForPersistence (some merged))
  | none => .ok (cloneAccountStorageForPersistence (some call.accountStorage))

def Transaction.withActive (t : Transaction) (storage : AccountStorageV3) : Transaction := { t with disk := { t.disk with active := some storage } }

def Transaction.withFlagged (t : Transaction) (accounts : List Record) : Transaction := { t with disk := { t.disk with flagged := accounts } }

/-- The way back after a failed save of the flagged accounts. -/
def rollBack (t : Transaction) (call : Persist) : Transaction × Outcome :=
  let previous := cloneAccountStorageForPersistence t.snapshot
  match call.rollback with
  | .done => ({ t.withActive previous with snapshot := some previous },.error)
  | .failed => (t,.combinedError)
  | .crashedBefore => (t,.crashed)
  | .crashedAfter => (t.withActive previous,.crashed)

def saveFlagged (t : Transaction) (call : Persist) (next : AccountStorageV3) : Transaction × Outcome :=
  match call.flaggedSave with
  | .done => ({ t.withFlagged call.flaggedStorage with snapshot := some next },.persisted)
  | .failed => rollBack t call
  | .crashedBefore => (t,.crashed)
  | .crashedAfter => (t.withFlagged call.flaggedStorage,.crashed)

def persist (t : Transaction) (call : Persist) : Transaction × Outcome :=
  match nextAccounts t call with
  | .error _ => (t,.error)
  | .ok next =>
    match call.accountsSave with
    | .done => saveFlagged (t.withActive next) call next
    | .failed => (t,.error)
    | .crashedBefore => (t,.crashed)
    | .crashedAfter => (t.withActive next,.crashed)

def step (t : Transaction) (call : Persist) : Transaction := (persist t call).1

section
variable {κ : Type} (account : Record → κ)

def Disk.Has (disk : Disk) (key : κ) : Prop := key ∈ ((disk.active.map accounts).getD []).map account ∨ key ∈ disk.flagged.map account

/-- The handler keeps the account in one of the new pools. -/
def Keeps (t : Transaction) (call : Persist) (key : κ) : Prop :=
  ∃ next, nextAccounts t call = .ok next ∧ (key ∈ next.accounts.map account ∨ key ∈ call.flaggedStorage.map account)

/-- The same accounts, selection, pin and generation. -/
def SamePool (a b : Option AccountStorageV3) : Prop := cloneAccountStorageForPersistence a = cloneAccountStorageForPersistence b

/-- No account is lost, and a plain error leaves both pools as they were. -/
structure Safe (t : Transaction) (call : Persist) : Prop where
  kept : ∀ key, t.disk.Has account key → Keeps account t call key → (persist t call).1.disk.Has account key
  unchanged : (persist t call).2 = .error → SamePool (persist t call).1.disk.active t.disk.active ∧ (persist t call).1.disk.flagged = t.disk.flagged

/-- An account that leaves the active pool for the flagged one, where it was not yet. -/
def Moves (t : Transaction) (call : Persist) (key : κ) : Prop :=
  key ∈ ((t.disk.active.map accounts).getD []).map account ∧ key ∈ call.flaggedStorage.map account ∧
    key ∉ t.disk.flagged.map account ∧ ∀ next, nextAccounts t call = .ok next → key ∉ next.accounts.map account

def HalfDone (call : Persist) : Prop :=
  call.accountsSave = .crashedAfter ∨
    call.accountsSave = .done ∧ (call.flaggedSave = .crashedBefore ∨
      call.flaggedSave = .failed ∧ (call.rollback = .failed ∨ call.rollback = .crashedBefore))

/-- No account moves to the flagged pool where only the active one is saved, and
    a rollback writes what was on the disk. -/
structure Careful (t : Transaction) (call : Persist) : Prop where
  half : HalfDone call → ∀ next, nextAccounts t call = .ok next → ∀ key, ¬ Moves account t call key
  back : call.accountsSave = .done → call.flaggedSave = .failed → call.rollback = .done → ∀ next, nextAccounts t call = .ok next →
    SamePool t.snapshot t.disk.active
  /-- Before a crash it may also write a pool that has every account which is kept. -/
  interrupted : call.accountsSave = .done → call.flaggedSave = .failed → call.rollback = .crashedAfter → ∀ key, t.disk.Has account key →
    Keeps account t call key → key ∈ ((t.snapshot.map accounts).getD []).map account ∨ key ∈ t.disk.flagged.map account

/-! ### One call -/

variable {account : Record → κ} {t : Transaction} {call : Persist}

theorem clone_clone (storage : Option AccountStorageV3) :
    cloneAccountStorageForPersistence (some (cloneAccountStorageForPersistence storage)) = cloneAccountStorageForPersistence storage := by
  cases storage with
  | none => rfl
  | some storage =>
    unfold cloneAccountStorageForPersistence
    have generation : ∀ value : Option ℚ, Record.number (OrderedMap.assign [("version",.num 3)] "affinityGeneration" (value.map Json.num))
        "affinityGeneration" = value := by
      intro value
      rw [Record.number,OrderedMap.find_assign,if_pos rfl]
      cases value <;> rfl
    simp only [Option.map_some,Option.getD_some,Option.bind_some]
    rw [generation]

theorem accounts_of_samePool {a b : Option AccountStorageV3} (same : SamePool a b) :
    (a.map accounts).getD [] = (b.map accounts).getD [] := congrArg accounts same

theorem Safe.of_same (same : (persist t call).1 = t) : Safe account t call := by
  refine ⟨?_,?_⟩
  · intro key has _
    rw [same]
    exact has
  · intro _
    rw [same]
    exact ⟨rfl,rfl⟩

theorem Safe.of_saved {next : AccountStorageV3} (made : nextAccounts t call = .ok next) (active : (persist t call).1.disk.active = some next)
    (flagged : (persist t call).1.disk.flagged = call.flaggedStorage) (fine : (persist t call).2 ≠ .error) : Safe account t call := by
  refine ⟨?_,fun failed => absurd failed fine⟩
  rintro key _ ⟨kept,made',among⟩
  rw [made] at made'
  cases made'
  rw [Disk.Has,active,flagged]
  exact among

theorem safe_half_iff {next : AccountStorageV3} (made : nextAccounts t call = .ok next) (active : (persist t call).1.disk.active = some next)
    (flagged : (persist t call).1.disk.flagged = t.disk.flagged) (fine : (persist t call).2 ≠ .error) :
    Safe account t call ↔ ∀ key, ¬ Moves account t call key := by
  constructor
  · rintro safe key ⟨was,put,fresh,gone⟩
    have left := safe.kept key (Or.inl was) ⟨next,made,Or.inr put⟩
    rw [Disk.Has,active,flagged] at left
    exact left.elim (gone next made) fresh
  · intro stays
    refine ⟨?_,fun failed => absurd failed fine⟩
    rintro key has ⟨kept,made',among⟩
    rw [made] at made'
    cases made'
    rw [Disk.Has,active,flagged]
    by_cases inNext : key ∈ next.accounts.map account
    · exact Or.inl inNext
    by_cases before : key ∈ t.disk.flagged.map account
    · exact Or.inr before
    · have was := has.resolve_right before
      have put := among.resolve_left inNext
      refine absurd ⟨was,put,before,?_⟩ (stays key)
      intro other made'
      rw [made] at made'
      cases made'
      exact inNext

theorem safe_back_iff (active : (persist t call).1.disk.active = some (cloneAccountStorageForPersistence t.snapshot))
    (flagged : (persist t call).1.disk.flagged = t.disk.flagged) (failed : (persist t call).2 = .error) :
    Safe account t call ↔ SamePool t.snapshot t.disk.active := by
  have pool : SamePool (persist t call).1.disk.active t.disk.active ↔ SamePool t.snapshot t.disk.active := by
    rw [active,SamePool,SamePool,clone_clone]
  constructor
  · intro safe
    exact pool.mp (safe.unchanged failed).1
  · intro same
    refine ⟨?_,fun _ => ⟨pool.mpr same,flagged⟩⟩
    intro key has _
    rw [Disk.Has,flagged,accounts_of_samePool (pool.mpr same)]
    exact has

theorem safe_interrupted_iff (active : (persist t call).1.disk.active = some (cloneAccountStorageForPersistence t.snapshot))
    (flagged : (persist t call).1.disk.flagged = t.disk.flagged) (fine : (persist t call).2 ≠ .error) :
    Safe account t call ↔ ∀ key, t.disk.Has account key → Keeps account t call key →
      key ∈ ((t.snapshot.map accounts).getD []).map account ∨ key ∈ t.disk.flagged.map account := by
  have has : ∀ key, (persist t call).1.disk.Has account key ↔
      key ∈ ((t.snapshot.map accounts).getD []).map account ∨ key ∈ t.disk.flagged.map account := by
    intro key
    rw [Disk.Has,active,flagged]
    rfl
  constructor
  · intro safe key was keeps
    exact (has key).mp (safe.kept key was keeps)
  · intro stays
    exact ⟨fun key was keeps => (has key).mpr (stays key was keeps),fun failed => absurd failed fine⟩

theorem safe_iff_careful : Safe account t call ↔ Careful account t call := by
  cases made : nextAccounts t call with
  | error refused =>
    have same : (persist t call).1 = t := by rw [persist,made]
    refine ⟨fun _ => ⟨?_,?_,?_⟩,fun _ => Safe.of_same same⟩
    · intro _ next made'
      rw [made] at made'
      cases made'
    · intro _ _ _ next made'
      rw [made] at made'
      cases made'
    · rintro _ _ _ key _ ⟨next,made',_⟩
      rw [made] at made'
      cases made'
  | ok next =>
    have whole : ∀ {P : Prop}, (∀ other, nextAccounts t call = .ok other → P) ↔ P := by
      intro P
      refine ⟨fun all => all next made,fun holds _ _ => holds⟩
    cases accountsSave : call.accountsSave with
    | failed | crashedBefore =>
      have same : (persist t call).1 = t := by rw [persist,made]; simp [accountsSave]
      refine ⟨fun _ => ⟨?_,?_,?_⟩,fun _ => Safe.of_same same⟩ <;> simp [HalfDone,accountsSave]
    | crashedAfter =>
      have result : persist t call = (t.withActive next,.crashed) := by rw [persist,made]; simp [accountsSave]
      rw [safe_half_iff made (by rw [result]; rfl) (by rw [result]; rfl) (by rw [result]; simp)]
      refine ⟨fun stays => ⟨fun _ _ _ => stays,?_,?_⟩,fun careful => careful.half (Or.inl accountsSave) next made⟩ <;> simp [accountsSave]
    | done =>
      have inner : persist t call = saveFlagged (t.withActive next) call next := by rw [persist,made]; simp [accountsSave]
      cases flaggedSave : call.flaggedSave with
      | done | crashedAfter =>
        have saved : Safe account t call := by
          refine Safe.of_saved made ?_ ?_ ?_ <;> rw [inner,saveFlagged,flaggedSave]
          · rfl
          · rfl
          · simp
        refine ⟨fun _ => ⟨?_,?_,?_⟩,fun _ => saved⟩ <;> simp [HalfDone,accountsSave,flaggedSave]
      | crashedBefore =>
        have result : persist t call = (t.withActive next,.crashed) := by rw [inner,saveFlagged,flaggedSave]
        rw [safe_half_iff made (by rw [result]; rfl) (by rw [result]; rfl) (by rw [result]; simp)]
        refine ⟨fun stays => ⟨fun _ _ _ => stays,?_,?_⟩,fun careful => careful.half (Or.inr ⟨accountsSave,Or.inl flaggedSave⟩) next made⟩ <;>
          simp [flaggedSave]
      | failed =>
        have back : persist t call = rollBack (t.withActive next) call := by rw [inner,saveFlagged,flaggedSave]
        cases rollback : call.rollback with
        | done =>
          have result : persist t call = ({ t.withActive (cloneAccountStorageForPersistence t.snapshot) with
              snapshot := some (cloneAccountStorageForPersistence t.snapshot) },.error) := by
            rw [back,rollBack,rollback]
            rfl
          rw [safe_back_iff (by rw [result]; rfl) (by rw [result]; rfl) (by rw [result])]
          refine ⟨fun same => ⟨?_,fun _ _ _ _ _ => same,?_⟩,fun careful => careful.back accountsSave flaggedSave rollback next made⟩
          · simp [HalfDone,accountsSave,flaggedSave,rollback]
          · simp [rollback]
        | crashedAfter =>
          have result : persist t call = (t.withActive (cloneAccountStorageForPersistence t.snapshot),.crashed) := by
            rw [back,rollBack,rollback]
            rfl
          rw [safe_interrupted_iff (by rw [result]; rfl) (by rw [result]; rfl) (by rw [result]; simp)]
          refine ⟨fun stays => ⟨?_,?_,fun _ _ _ => stays⟩,fun careful => careful.interrupted accountsSave flaggedSave rollback⟩
          · simp [HalfDone,accountsSave,flaggedSave,rollback]
          · simp [rollback]
        | failed | crashedBefore =>
          have state : (persist t call).1 = t.withActive next := by rw [back,rollBack,rollback]
          have fine : (persist t call).2 ≠ .error := by rw [back,rollBack,rollback]; simp
          rw [safe_half_iff made (by rw [state]; rfl) (by rw [state]; rfl) fine]
          refine ⟨fun stays => ⟨fun _ _ _ => stays,?_,?_⟩,fun careful => careful.half ?_ next made⟩
          · simp [rollback]
          · simp [rollback]
          · simp [HalfDone,accountsSave,flaggedSave,rollback]

end

def start (disk : Disk) : Transaction := ⟨disk,disk.active⟩

/-- Whatever fails, the first call loses no account, just when none moves from the active to the flagged pool. -/
theorem first_persist_safe_iff {κ : Type} (account : Record → κ) (disk : Disk) (call : Persist) :
    (∀ accountsSave flaggedSave rollback, Safe account (start disk)
        { call with accountsSave := accountsSave,flaggedSave := flaggedSave,rollback := rollback }) ↔
      ∀ next, nextAccounts (start disk) call = .ok next → ∀ key, ¬ Moves account (start disk) call key := by
  constructor
  · intro safe next made key
    exact (safe_iff_careful.mp (safe .crashedAfter .done .done)).half (Or.inl rfl) next made key
  · intro stays accountsSave flaggedSave rollback
    refine safe_iff_careful.mpr ⟨fun _ => stays,fun _ _ _ _ _ => rfl,?_⟩
    rintro _ _ _ key has ⟨next,made,among⟩
    exact has

/-- Over a whole transaction no account is lost and no plain error changes a pool, just when every call is careful. -/
theorem paired_stores_safe_iff {κ : Type} (account : Record → κ) (disk : Disk) :
    (∀ calls, Runs.Legal step (Safe account) (start disk) calls ↔ Runs.Legal step (Careful account) (start disk) calls) ∧
    ∀ call : Persist, (∀ accountsSave flaggedSave rollback, Safe account (start disk)
        { call with accountsSave := accountsSave,flaggedSave := flaggedSave,rollback := rollback }) ↔
      ∀ next, nextAccounts (start disk) call = .ok next → ∀ key, ¬ Moves account (start disk) call key := by
  have same : Safe account = Careful account := funext (fun t => funext (fun call => propext safe_iff_careful))
  refine ⟨fun calls => by rw [same],first_persist_safe_iff account disk⟩

end

section
attribute [local instance] asciiHost

/-- The account check flags a dead account and the process ends after the first save. -/
def deadAccount : Record := [("refreshToken",.str "r1")]

def checked : Disk := ⟨some { accounts := [deadAccount],activeIndex := 0 },[]⟩

def flagging : Persist where
  accountStorage := { accounts := [],activeIndex := 0 }
  flaggedStorage := [deadAccount]
  accountsSave := .crashedAfter

theorem flagged_account_lost :
    ¬ ∀ (disk : Disk) (call : Persist), Safe (fun row : Record => Record.text row "refreshToken") (start disk) call := by
  intro claim
  have left := (claim checked flagging).kept (some "r1") (Or.inl (by decide)) ⟨_,rfl,Or.inr (by decide)⟩
  unfold Disk.Has at left
  revert left
  decide

end
end CodexMultiAuth.PairedStores
