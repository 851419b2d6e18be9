import CodexMultiAuth.FileCaches

/-!
The caches of the accounts file over runs: replacements of the files, time that passes,
and the calls of one process, each with the replacements that race it.
-/
namespace CodexMultiAuth.FileCaches
open ReplacedFiles Option World Function
open SessionAffinity (SessionAffinityStore)
set_option linter.unusedSectionVars false

abbrev Races := List (List DiskChange)

/-- What a record has read of the accounts file and of the mirror files. -/
structure Recorded where
  storage : Buffer
  mirror : OrderedMap String (Option Buffer)

structure State (Digest : Type) where
  disk : Disk
  storageMeta : StorageMetaCache Digest
  fingerprints : ActiveSyncFingerprints Digest
  recorded : String → Option Recorded

inductive Event (Digest : Type) where
  | change (c : DiskChange)
  | readStorageMeta (storagePath : String) (races : Races)
  | invalidateAffinity (sessionAffinityStore : Option SessionAffinityStore) (lastObservedGeneration : ℚ) (storagePath : String) (races : Races)
  | checkSync (storagePath : String) (codexCliMirrorPaths : List String) (races : Races)
  | recordSync (storagePath : String) (syncedContentHash : Option Digest) (existedBeforePass requiredMirrorPaths : String → Bool)
      (codexCliMirrorPaths : List String) (races : Races)
  /-- A pass that finds the selection drifted. -/
  | forgetSync (storagePath : String)

section
variable {Digest : Type} [DecidableEq Digest] (granularity : ℕ) (hashStorageBytes : Buffer → Digest) (parse : Buffer → Option Json)

/-- The bytes of the mirror files, at the looks of `recordMirror`. -/
def readMirror (looks : ℕ → Disk) : List String → ℕ → OrderedMap String (Option Buffer) → OrderedMap String (Option Buffer)
  | [],_,mirror => mirror
  | path :: rest,look,mirror =>
    readMirror looks rest (look + 2) (mirror.put path (if path = "" then none else readAfterStat path looks look))

namespace State

def looks (s : State Digest) (races : Races) : ℕ → Disk := s.disk.during granularity races

def afterRaces (s : State Digest) (races : Races) : Disk := s.disk.changes granularity races.flatten

def step (s : State Digest) : Event Digest → State Digest
  | .change c => { s with disk := s.disk.change granularity c }
  | .readStorageMeta storagePath races =>
    { s with
      disk := s.afterRaces granularity races
      storageMeta := (readStorageMetaFromDisk hashStorageBytes parse s.storageMeta storagePath (s.looks granularity races)).2 }
  | .invalidateAffinity sessionAffinityStore lastObservedGeneration storagePath races =>
    { s with
      disk := s.afterRaces granularity races
      storageMeta := (maybeInvalidateAffinityFromDisk hashStorageBytes parse sessionAffinityStore lastObservedGeneration s.storageMeta
        storagePath (s.looks granularity races)).cache }
  | .checkSync storagePath codexCliMirrorPaths races =>
    { s with
      disk := s.afterRaces granularity races
      fingerprints := (isActiveSelectionSyncCurrent hashStorageBytes s.fingerprints storagePath codexCliMirrorPaths
        (s.looks granularity races)).2 }
  | .recordSync storagePath syncedContentHash existedBeforePass requiredMirrorPaths codexCliMirrorPaths races =>
    { s with
      disk := s.afterRaces granularity races
      fingerprints := recordActiveSelectionSync hashStorageBytes s.fingerprints storagePath syncedContentHash existedBeforePass
        requiredMirrorPaths codexCliMirrorPaths (s.looks granularity races)
      recorded := Function.update s.recorded storagePath
        ((readAfterStat storagePath (s.looks granularity races) 0).map (fun storage =>
          ⟨storage,readMirror (s.looks granularity races) codexCliMirrorPaths 2 []⟩)) }
  | .forgetSync storagePath => { s with fingerprints := Function.update s.fingerprints storagePath none }

end State

def uncachedMeta (disk : Disk) (storagePath : String) : Option StorageMeta :=
  match disk.bytes storagePath with
  | none => some .none
  | some bytes => metaOf parse bytes

/-- What the files record at one of the looks of the call, and for the sync only files
    with the recorded bytes. -/
def Right (s : State Digest) : Event Digest → Prop
  | .readStorageMeta storagePath races =>
    ∃ look ≤ 3, uncachedMeta parse (s.looks granularity races look) storagePath =
      some (readStorageMetaFromDisk hashStorageBytes parse s.storageMeta storagePath (s.looks granularity races)).1
  | .invalidateAffinity sessionAffinityStore lastObservedGeneration storagePath races =>
    let after := maybeInvalidateAffinityFromDisk hashStorageBytes parse sessionAffinityStore lastObservedGeneration s.storageMeta
      storagePath (s.looks granularity races)
    ∃ look ≤ 3, ∃ found, uncachedMeta parse (s.looks granularity races look) storagePath = some found ∧
      after.lastObservedGeneration = max lastObservedGeneration found.affinityGeneration ∧
      after.sessionAffinityStore =
        if lastObservedGeneration < found.affinityGeneration then sessionAffinityStore.map SessionAffinityStore.clearAll
        else sessionAffinityStore
  | .checkSync storagePath codexCliMirrorPaths races =>
    (isActiveSelectionSyncCurrent hashStorageBytes s.fingerprints storagePath codexCliMirrorPaths (s.looks granularity races)).1 = true →
      ∃ recorded, s.recorded storagePath = some recorded ∧
        (∃ look, (s.looks granularity races look).bytes storagePath = some recorded.storage) ∧
        ∀ path ∈ codexCliMirrorPaths, ∃ expected, recorded.mirror.find path = some expected ∧
          ∃ look, (s.looks granularity races look).bytes path = expected
  | _ => True

variable (contents : Set Buffer)

/-- The bytes that the files hold are among those known not to collide, and the mirror
    paths are told apart. -/
def Known : Event Digest → Prop
  | .change c => ∀ path bytes, c = .replace path bytes → bytes ∈ contents
  | .readStorageMeta _ races => ∀ path bytes, Change.replace path bytes ∈ races.flatten → bytes ∈ contents
  | .invalidateAffinity _ _ _ races => ∀ path bytes, Change.replace path bytes ∈ races.flatten → bytes ∈ contents
  | .checkSync _ codexCliMirrorPaths races =>
    codexCliMirrorPaths.Nodup ∧ ∀ path bytes, Change.replace path bytes ∈ races.flatten → bytes ∈ contents
  | .recordSync _ _ _ _ codexCliMirrorPaths races =>
    codexCliMirrorPaths.Nodup ∧ ∀ path bytes, Change.replace path bytes ∈ races.flatten → bytes ∈ contents
  | .forgetSync _ => True

/-- Every look finds a file that can be read and parsed. -/
def ReadsSucceed (storagePath : String) (looks : ℕ → Disk) : Prop :=
  ∀ look ≤ 3, ∀ bytes, (looks look).bytes storagePath = some bytes → (metaOf parse bytes).isSome

/-- The file that is trusted records what the file records that the entry is of. -/
def SameMeta (cache : StorageMetaCache Digest) (storagePath : String) (looks : ℕ → Disk) : Prop :=
  ∀ cached stats, cache storagePath = some cached → (looks 1).files storagePath = some stats → cached.trusts stats (looks 2) →
    ∀ bytes ∈ contents, hashStorageBytes bytes = cached.contentHash → metaOf parse stats.bytes = metaOf parse bytes

/-- The file that is trusted is the file that the fingerprint is of. -/
def SameFile (path : String) (cached : ActiveSyncFingerprint Digest) (looks : ℕ → Disk) (look : ℕ) : Prop :=
  ∀ stats, (looks look).files path = some stats → cached.trusts stats (looks (look + 1)) → hashStorageBytes stats.bytes = cached.contentHash

def Careful (s : State Digest) : Event Digest → Prop
  | .readStorageMeta storagePath races =>
    ReadsSucceed parse storagePath (s.looks granularity races) ∧
      SameMeta hashStorageBytes parse contents s.storageMeta storagePath (s.looks granularity races)
  | .invalidateAffinity _ _ storagePath races =>
    ReadsSucceed parse storagePath (s.looks granularity races) ∧
      SameMeta hashStorageBytes parse contents s.storageMeta storagePath (s.looks granularity races)
  | .checkSync storagePath codexCliMirrorPaths races =>
    ∀ entry, s.fingerprints storagePath = some entry →
      SameFile hashStorageBytes storagePath entry.storage (s.looks granularity races) 1 ∧
      ∀ index path, codexCliMirrorPaths[index]? = some path → ∀ expected, entry.mirror.find path = some (some expected) →
        SameFile hashStorageBytes path expected (s.looks granularity races) (4 + 3 * index)
  | _ => True

end

section
variable {Digest : Type} [DecidableEq Digest] {granularity : ℕ} {hashStorageBytes : Buffer → Digest} {parse : Buffer → Option Json}
  {contents : Set Buffer}

/-- An entry and the bytes that it is of. -/
def Fits (hashStorageBytes : Buffer → Digest) (entry : ActiveSyncCacheEntry Digest) (recorded : Recorded) : Prop :=
  hashStorageBytes recorded.storage = entry.storage.contentHash ∧
    ∀ path, (entry.mirror.find path).map (Option.map ActiveSyncFingerprint.contentHash) =
      (recorded.mirror.find path).map (Option.map hashStorageBytes)

variable (hashStorageBytes parse contents) in
structure Inv (s : State Digest) : Prop where
  files : ∀ path version, s.disk.files path = some version → version.bytes ∈ contents
  storageMeta : ∀ path cached, s.storageMeta path = some cached →
    ∃ bytes ∈ contents, hashStorageBytes bytes = cached.contentHash ∧ metaOf parse bytes = some cached.toStorageMeta
  fingerprints : ∀ path entry, s.fingerprints path = some entry →
    ∃ recorded, s.recorded path = some recorded ∧ Fits hashStorageBytes entry recorded ∧ recorded.storage ∈ contents ∧
      ∀ mirrorPath bytes, recorded.mirror.find mirrorPath = some (some bytes) → bytes ∈ contents

variable (contents) in
def Start (s : State Digest) : Prop :=
  (∀ path version, s.disk.files path = some version → version.bytes ∈ contents) ∧
    (∀ path, s.storageMeta path = none) ∧ ∀ path, s.fingerprints path = none

variable {s : State Digest}

theorem Start.inv (start : Start contents s) : Inv hashStorageBytes parse contents s where
  files := start.1
  storageMeta path cached found := by simp [start.2.1 path] at found
  fingerprints path entry found := by simp [start.2.2 path] at found

theorem looks_contents (files : ∀ path version, s.disk.files path = some version → version.bytes ∈ contents)
    {races : Races} (known : ∀ path bytes, Change.replace path bytes ∈ races.flatten → bytes ∈ contents) (look : ℕ) :
    ∀ path version, (s.looks granularity races look).files path = some version → version.bytes ∈ contents := by
  apply contents_changes files
  intro path bytes member
  obtain ⟨cs,inside,here⟩ := List.mem_flatten.mp member
  exact known path bytes (List.mem_flatten.mpr ⟨cs,List.mem_of_mem_take inside,here⟩)

/-! ### The pin and the generation -/

variable (hashStorageBytes parse contents) in
/-- Each entry is of known bytes, and has what they record. -/
def CacheValid (cache : StorageMetaCache Digest) : Prop :=
  ∀ path cached, cache path = some cached →
    ∃ bytes ∈ contents, hashStorageBytes bytes = cached.contentHash ∧ metaOf parse bytes = some cached.toStorageMeta

variable {cache : StorageMetaCache Digest} {storagePath : String}

theorem CacheValid.update (valid : CacheValid hashStorageBytes parse contents cache)
    {entry : Option (StorageMetaSnapshot Digest)} (fits : ∀ cached, entry = some cached →
      ∃ bytes ∈ contents, hashStorageBytes bytes = cached.contentHash ∧ metaOf parse bytes = some cached.toStorageMeta) :
    CacheValid hashStorageBytes parse contents (Function.update cache storagePath entry) := by
  intro path cached found
  by_cases same : path = storagePath
  · subst same
    rw [update_self] at found
    exact fits cached found
  · rw [update_of_ne same] at found
    exact valid path cached found

theorem readFresh_valid (valid : CacheValid hashStorageBytes parse contents cache)
    {stats : Version Buffer} {bytes : Buffer} (known : bytes ∈ contents) :
    CacheValid hashStorageBytes parse contents (readFresh hashStorageBytes parse cache storagePath stats bytes).2 := by
  rw [readFresh]
  split
  · next cached found =>
    rw [filter_eq_some_iff] at found
    apply valid.update
    rintro refreshed ⟨⟩
    exact valid storagePath cached found.1
  · split
    · next parsed here =>
      apply valid.update
      rintro entry ⟨⟩
      exact ⟨bytes,known,rfl,here⟩
    · exact valid

theorem readFresh_meta (noCollision : Set.InjOn hashStorageBytes contents)
    (valid : CacheValid hashStorageBytes parse contents cache) {stats : Version Buffer} {bytes : Buffer}
    (known : bytes ∈ contents) {found : StorageMeta} (parsed : metaOf parse bytes = some found) :
    (readFresh hashStorageBytes parse cache storagePath stats bytes).1 = found := by
  rw [readFresh]
  split
  · next cached here =>
    rw [filter_eq_some_iff] at here
    obtain ⟨source,member,hashed,records⟩ := valid storagePath cached here.1
    have same : source = bytes := noCollision member known (hashed.trans (of_decide_eq_true here.2))
    rw [same,parsed] at records
    exact (Option.some.inj records).symm
  · rw [parsed]

variable {looks : ℕ → Disk}

theorem readStorageMeta_valid (valid : CacheValid hashStorageBytes parse contents cache)
    (files : ∀ look path version, (looks look).files path = some version → version.bytes ∈ contents) (storagePath : String) :
    CacheValid hashStorageBytes parse contents (readStorageMetaFromDisk hashStorageBytes parse cache storagePath looks).2 := by
  rw [readStorageMetaFromDisk]
  split
  · apply valid.update
    rintro cached ⟨⟩
  · split
    · exact valid
    · split
      · exact valid
      · split
        · exact valid
        · next read found => exact readFresh_valid valid (files 3 storagePath read found)

/-- Where a file that is trusted is of the same record as the entry's, the call gives
    what the file records at one of its looks. -/
theorem readStorageMeta_right (noCollision : Set.InjOn hashStorageBytes contents)
    (valid : CacheValid hashStorageBytes parse contents cache)
    (files : ∀ look path version, (looks look).files path = some version → version.bytes ∈ contents)
    (stays : ∀ look later, look ≤ later → ((looks look).files storagePath).isSome → ((looks later).files storagePath).isSome)
    (succeed : ReadsSucceed parse storagePath looks) (same : SameMeta hashStorageBytes parse contents cache storagePath looks) :
    ∃ look ≤ 3, uncachedMeta parse (looks look) storagePath =
      some (readStorageMetaFromDisk hashStorageBytes parse cache storagePath looks).1 := by
  rw [readStorageMetaFromDisk]
  split
  · next absent =>
    refine ⟨0,by omega,?_⟩
    rw [uncachedMeta,World.bytes,isNone_iff_eq_none.mp absent]
    rfl
  · next present =>
    rw [Bool.not_eq_true,isNone_eq_false_iff] at present
    obtain ⟨stats,atStat⟩ := isSome_iff_exists.mp (stays 0 1 (by omega) present)
    obtain ⟨read,atRead⟩ := isSome_iff_exists.mp (stays 0 3 (by omega) present)
    rw [atStat]
    dsimp only
    split
    · next cached trusted =>
      rw [filter_eq_some_iff] at trusted
      obtain ⟨source,member,hashed,records⟩ := valid storagePath cached trusted.1
      refine ⟨1,by omega,?_⟩
      rw [uncachedMeta,World.bytes,atStat]
      exact (same cached stats trusted.1 atStat (of_decide_eq_true trusted.2) source member hashed).trans records
    · rw [atRead]
      have here : (looks 3).bytes storagePath = some read.bytes := by rw [World.bytes,atRead]; rfl
      obtain ⟨found,parsed⟩ := isSome_iff_exists.mp (succeed 3 (le_refl _) read.bytes here)
      refine ⟨3,le_refl _,?_⟩
      rw [uncachedMeta,here]
      dsimp only
      rw [parsed,readFresh_meta noCollision valid (files 3 storagePath read atRead) parsed]

/-! ### The sync -/

@[simp] theorem fingerprintMatchesCurrent_hash (path : String) (cached : ActiveSyncFingerprint Digest) (looks : ℕ → Disk) (look : ℕ) :
    (fingerprintMatchesCurrent hashStorageBytes path cached looks look).2.contentHash = cached.contentHash := by
  rw [fingerprintMatchesCurrent]
  repeat' split
  all_goals rfl

variable {look : ℕ}

theorem fingerprintMatchesCurrent_true {path : String} {cached : ActiveSyncFingerprint Digest}
    (same : SameFile hashStorageBytes path cached looks look)
    (passes : (fingerprintMatchesCurrent hashStorageBytes path cached looks look).1 = true) :
    ∃ at_, ((looks at_).bytes path).map hashStorageBytes = some cached.contentHash := by
  rw [fingerprintMatchesCurrent] at passes
  split at passes
  · cases passes
  · next stats atStat =>
    split at passes
    · next trusted =>
      refine ⟨look,?_⟩
      rw [World.bytes,atStat]
      exact congrArg some (same stats atStat trusted)
    · split at passes
      · cases passes
      · next read atRead =>
        split at passes
        · cases passes
        · next hashed =>
          refine ⟨look + 2,?_⟩
          rw [World.bytes,atRead]
          exact congrArg some (not_not.mp hashed)

def hashes (mirror : Mirror Digest) (path : String) : Option (Option Digest) :=
  (mirror.find path).map (Option.map ActiveSyncFingerprint.contentHash)

theorem hashes_put_same {mirror : Mirror Digest} {path : String} {expected checked : ActiveSyncFingerprint Digest}
    (found : mirror.find path = some (some expected)) (same : checked.contentHash = expected.contentHash) :
    hashes (mirror.put path (some checked)) = hashes mirror := by
  funext other
  rw [hashes,hashes,OrderedMap.find_put]
  by_cases here : path = other
  · rw [if_pos here,← here,found]
    simp [same]
  · rw [if_neg here]

theorem mirrorMatches_hashes (looks : ℕ → Disk) (paths : List String) (look : ℕ) (mirror : Mirror Digest) :
    hashes (mirrorMatches hashStorageBytes looks paths look mirror).2 = hashes mirror := by
  induction paths generalizing look mirror with
  | nil => rfl
  | cons path rest ih =>
    rw [mirrorMatches]
    split
    · rfl
    · split
      · rfl
      · exact ih _ _
    · next expected found =>
      have same : (fingerprintMatchesCurrent hashStorageBytes path expected looks look).2.contentHash = expected.contentHash :=
        fingerprintMatchesCurrent_hash path expected looks look
      have kept := hashes_put_same found same
      dsimp only
      split
      · rw [ih,kept]
      · exact kept

variable {paths : List String}

theorem mirrorMatches_true (distinct : paths.Nodup) {mirror : Mirror Digest}
    (same : ∀ index path, paths[index]? = some path → ∀ expected, mirror.find path = some (some expected) →
      SameFile hashStorageBytes path expected looks (look + 3 * index))
    (passes : (mirrorMatches hashStorageBytes looks paths look mirror).1 = true) :
    ∀ path ∈ paths, ∃ expected, hashes mirror path = some expected ∧ ∃ at_, ((looks at_).bytes path).map hashStorageBytes = expected := by
  induction paths generalizing look mirror with
  | nil => intro path member; cases member
  | cons path rest ih =>
    obtain ⟨fresh,distinct⟩ := List.nodup_cons.mp distinct
    have later : ∀ index other, rest[index]? = some other → ∀ expected, mirror.find other = some (some expected) →
        SameFile hashStorageBytes other expected looks (look + 3 + 3 * index) := by
      intro index other here expected found
      have := same (index + 1) other (by simpa using here) expected found
      rwa [show look + 3 * (index + 1) = look + 3 + 3 * index by omega] at this
    rw [mirrorMatches] at passes
    split at passes
    · cases passes
    · next found =>
      split at passes
      · cases passes
      · next absent =>
        intro other member
        rcases List.mem_cons.mp member with rfl | member
        · refine ⟨none,by rw [hashes,found]; rfl,look,?_⟩
          rw [World.bytes,not_isSome_iff_eq_none.mp absent]
          rfl
        · exact ih distinct later passes other member
    · next expected found =>
      dsimp only at passes
      split at passes
      · next passed =>
        have stays : (fingerprintMatchesCurrent hashStorageBytes path expected looks look).2.contentHash = expected.contentHash :=
          fingerprintMatchesCurrent_hash path expected looks look
        have kept := hashes_put_same found stays
        intro other member
        rcases List.mem_cons.mp member with rfl | member
        · refine ⟨some expected.contentHash,by rw [hashes,found]; rfl,?_⟩
          exact fingerprintMatchesCurrent_true (same 0 other (by simp) expected found) passed
        · rw [← kept]
          refine ih distinct ?_ passes other member
          intro index another here known found
          rw [OrderedMap.find_put,if_neg] at found
          · exact later index another here known found
          · rintro rfl
            exact fresh (List.mem_of_getElem? here)
      · cases passes

variable (hashStorageBytes contents) in
/-- Each entry is of the known bytes that its record has read. -/
def EntriesValid (fingerprints : ActiveSyncFingerprints Digest) (recorded : String → Option Recorded) : Prop :=
  ∀ path entry, fingerprints path = some entry →
    ∃ read, recorded path = some read ∧ Fits hashStorageBytes entry read ∧ read.storage ∈ contents ∧
      ∀ mirrorPath bytes, read.mirror.find mirrorPath = some (some bytes) → bytes ∈ contents

variable {fingerprints : ActiveSyncFingerprints Digest} {recorded : String → Option Recorded}

theorem isActiveSelectionSyncCurrent_right (noCollision : Set.InjOn hashStorageBytes contents)
    (valid : EntriesValid hashStorageBytes contents fingerprints recorded)
    (files : ∀ look path version, (looks look).files path = some version → version.bytes ∈ contents)
    {codexCliMirrorPaths : List String} (distinct : codexCliMirrorPaths.Nodup)
    (same : ∀ entry, fingerprints storagePath = some entry →
      SameFile hashStorageBytes storagePath entry.storage looks 1 ∧
      ∀ index path, codexCliMirrorPaths[index]? = some path → ∀ expected, entry.mirror.find path = some (some expected) →
        SameFile hashStorageBytes path expected looks (4 + 3 * index))
    (passes : (isActiveSelectionSyncCurrent hashStorageBytes fingerprints storagePath codexCliMirrorPaths looks).1 = true) :
    ∃ read, recorded storagePath = some read ∧ (∃ look, (looks look).bytes storagePath = some read.storage) ∧
      ∀ path ∈ codexCliMirrorPaths, ∃ expected, read.mirror.find path = some expected ∧ ∃ look, (looks look).bytes path = expected := by
  have inside : ∀ look path bytes, (looks look).bytes path = some bytes → bytes ∈ contents := by
    intro look path bytes found
    obtain ⟨version,here,rfl⟩ := map_eq_some_iff.mp found
    exact files look path version here
  rw [isActiveSelectionSyncCurrent] at passes
  split at passes
  · cases passes
  · split at passes
    · cases passes
    · split at passes
      · cases passes
      · next entry found =>
        obtain ⟨read,known,fits,storageKnown,mirrorKnown⟩ := valid storagePath entry found
        obtain ⟨sameStorage,sameMirror⟩ := same entry found
        dsimp only at passes
        split at passes
        · cases passes
        · next goes =>
          rw [not_or,Bool.not_eq_false] at goes
          refine ⟨read,known,?_,?_⟩
          · obtain ⟨look,hashed⟩ := fingerprintMatchesCurrent_true sameStorage goes.1
            obtain ⟨bytes,here,same⟩ := map_eq_some_iff.mp hashed
            refine ⟨look,here.trans (congrArg some ?_)⟩
            exact noCollision (inside look storagePath bytes here) storageKnown (same.trans fits.1.symm)
          · intro path member
            obtain ⟨expected,hashed,look,here⟩ := mirrorMatches_true distinct sameMirror passes path member
            rw [hashes,fits.2] at hashed
            obtain ⟨bytes,recordedHere,rfl⟩ := map_eq_some_iff.mp hashed
            refine ⟨bytes,recordedHere,look,?_⟩
            cases was : (looks look).bytes path with
            | none =>
              rw [was] at here
              exact (map_eq_none_iff.mp here.symm).symm
            | some now =>
              rw [was] at here
              obtain ⟨source,rfl,same⟩ := map_eq_some_iff.mp here.symm
              exact congrArg some (noCollision (inside look path now was) (mirrorKnown path source recordedHere) same.symm)

theorem EntriesValid.update (valid : EntriesValid hashStorageBytes contents fingerprints recorded)
    {entry : Option (ActiveSyncCacheEntry Digest)}
    (fits : ∀ changed, entry = some changed → ∃ cached, fingerprints storagePath = some cached ∧
      changed.storage.contentHash = cached.storage.contentHash ∧ hashes changed.mirror = hashes cached.mirror) :
    EntriesValid hashStorageBytes contents (Function.update fingerprints storagePath entry) recorded := by
  intro path changed found
  by_cases same : path = storagePath
  · subst same
    rw [update_self] at found
    obtain ⟨cached,here,storage,mirror⟩ := fits changed found
    obtain ⟨read,known,fit,inside⟩ := valid path cached here
    refine ⟨read,known,⟨fit.1.trans storage.symm,?_⟩,inside⟩
    intro mirrorPath
    rw [← fit.2]
    exact congrFun mirror mirrorPath
  · rw [update_of_ne same] at found
    exact valid path changed found

theorem isActiveSelectionSyncCurrent_valid (valid : EntriesValid hashStorageBytes contents fingerprints recorded)
    (looks : ℕ → Disk) (storagePath : String)
    (codexCliMirrorPaths : List String) :
    EntriesValid hashStorageBytes contents
      (isActiveSelectionSyncCurrent hashStorageBytes fingerprints storagePath codexCliMirrorPaths looks).2 recorded := by
  rw [isActiveSelectionSyncCurrent]
  split
  · exact valid
  · split
    · apply valid.update
      rintro changed ⟨⟩
    · split
      · exact valid
      · next cached found =>
        dsimp only
        split
        · apply valid.update
          rintro changed ⟨⟩
          exact ⟨cached,found,fingerprintMatchesCurrent_hash _ _ _ _,rfl⟩
        · apply valid.update
          rintro changed ⟨⟩
          exact ⟨cached,found,fingerprintMatchesCurrent_hash _ _ _ _,mirrorMatches_hashes _ _ _ _⟩

theorem statFingerprint_hash (path : String) (looks : ℕ → Disk) (look : ℕ) :
    (statFingerprint hashStorageBytes path looks look).map ActiveSyncFingerprint.contentHash =
      (if path = "" then none else readAfterStat path looks look).map hashStorageBytes := by
  rw [statFingerprint,readAfterStat]
  by_cases empty : path = ""
  · rw [if_pos empty,if_pos empty]
    rfl
  · rw [if_neg empty,if_neg empty]
    cases (looks look).files path with
    | none => rfl
    | some stats => cases (looks (look + 1)).bytes path <;> rfl

theorem readAfterStat_mem (files : ∀ look path version, (looks look).files path = some version → version.bytes ∈ contents)
    {path : String} {bytes : Buffer} (found : readAfterStat path looks look = some bytes) : bytes ∈ contents := by
  rw [readAfterStat] at found
  obtain ⟨stats,_,here⟩ := bind_eq_some_iff.mp found
  obtain ⟨version,place,rfl⟩ := map_eq_some_iff.mp here
  exact files _ path version place

theorem recordMirror_hashes {existedBeforePass requiredMirrorPaths : String → Bool}
    {mirror final : Mirror Digest} {read : OrderedMap String (Option Buffer)}
    (fits : ∀ path, hashes mirror path = (read.find path).map (Option.map hashStorageBytes))
    (records : recordMirror hashStorageBytes existedBeforePass requiredMirrorPaths looks paths look mirror = some final) :
    ∀ path, hashes final path = ((readMirror looks paths look read).find path).map (Option.map hashStorageBytes) := by
  induction paths generalizing look mirror read with
  | nil =>
    rw [recordMirror] at records
    cases records
    exact fits
  | cons path rest ih =>
    rw [recordMirror] at records
    split at records
    · cases records
    · refine ih (fun other => ?_) records
      rw [hashes,OrderedMap.find_put,OrderedMap.find_put]
      by_cases same : path = other
      · rw [if_pos same,if_pos same]
        exact congrArg some (statFingerprint_hash path looks look)
      · rw [if_neg same,if_neg same]
        exact fits other

theorem readMirror_mem (files : ∀ look path version, (looks look).files path = some version → version.bytes ∈ contents) {read : OrderedMap String (Option Buffer)}
    (inside : ∀ path bytes, read.find path = some (some bytes) → bytes ∈ contents) :
    ∀ path bytes, (readMirror looks paths look read).find path = some (some bytes) → bytes ∈ contents := by
  induction paths generalizing look read with
  | nil => exact inside
  | cons path rest ih =>
    apply ih
    intro other bytes found
    rw [OrderedMap.find_put] at found
    split at found
    · have here := Option.some.inj found
      split at here
      · cases here
      · exact readAfterStat_mem files here
    · exact inside other bytes found

theorem recordActiveSelectionSync_valid (valid : EntriesValid hashStorageBytes contents fingerprints recorded)
    (files : ∀ look path version, (looks look).files path = some version → version.bytes ∈ contents) (storagePath : String)
    (syncedContentHash : Option Digest) (existedBeforePass requiredMirrorPaths : String → Bool) (codexCliMirrorPaths : List String) :
    EntriesValid hashStorageBytes contents
      (recordActiveSelectionSync hashStorageBytes fingerprints storagePath syncedContentHash existedBeforePass requiredMirrorPaths
        codexCliMirrorPaths looks)
      (Function.update recorded storagePath
        ((readAfterStat storagePath looks 0).map (fun storage => ⟨storage,readMirror looks codexCliMirrorPaths 2 []⟩))) := by
  intro path entry found
  rw [recordActiveSelectionSync] at found
  by_cases same : path = storagePath
  · subst same
    rw [update_self] at found ⊢
    obtain ⟨storage,stated,rest⟩ := bind_eq_some_iff.mp found
    obtain ⟨mirror,recordsMirror,rfl⟩ := map_eq_some_iff.mp rest
    have hashed : (statFingerprint hashStorageBytes path looks 0).map _ = _ := statFingerprint_hash path looks 0
    rw [(filter_eq_some_iff.mp stated).1] at hashed
    obtain ⟨bytes,read,same⟩ := map_eq_some_iff.mp hashed.symm
    split at read
    · cases read
    · rw [read]
      refine ⟨_,rfl,⟨same,?_⟩,readAfterStat_mem files read,?_⟩
      · exact recordMirror_hashes (fun _ => rfl) recordsMirror
      · exact readMirror_mem files (by simp)
  · rw [update_of_ne same] at found ⊢
    exact valid path entry found

theorem Inv.step (s : State Digest) (event : Event Digest) (known : Known contents event) (inv : Inv hashStorageBytes parse contents s) :
    Inv hashStorageBytes parse contents (s.step granularity hashStorageBytes parse event) := by
  have raced : ∀ races : Races, (∀ path bytes, Change.replace path bytes ∈ races.flatten → bytes ∈ contents) →
      ∀ path version, (s.afterRaces granularity races).files path = some version → version.bytes ∈ contents :=
    fun races known => contents_changes inv.files known
  cases event with
  | change c =>
    refine ⟨contents_changes inv.files (fun path bytes (member : Change.replace path bytes ∈ [c]) => ?_),inv.storageMeta,inv.fingerprints⟩
    exact known path bytes (List.mem_singleton.mp member).symm
  | readStorageMeta storagePath races =>
    exact ⟨raced races known,readStorageMeta_valid inv.storageMeta (looks_contents inv.files known) storagePath,inv.fingerprints⟩
  | invalidateAffinity store last storagePath races =>
    refine ⟨raced races known,?_,inv.fingerprints⟩
    have files : ∀ look path version, (s.looks granularity races look).files path = some version → version.bytes ∈ contents :=
      looks_contents inv.files known
    have valid := readStorageMeta_valid inv.storageMeta files storagePath
    show CacheValid hashStorageBytes parse contents
      (maybeInvalidateAffinityFromDisk hashStorageBytes parse store last s.storageMeta storagePath (s.looks granularity races)).cache
    rw [maybeInvalidateAffinityFromDisk]
    split
    · exact valid
    · exact valid
  | checkSync storagePath paths races =>
    exact ⟨raced races known.2,inv.storageMeta,isActiveSelectionSyncCurrent_valid inv.fingerprints _ storagePath paths⟩
  | recordSync storagePath synced existed required paths races =>
    exact ⟨raced races known.2,inv.storageMeta,
      recordActiveSelectionSync_valid inv.fingerprints (looks_contents inv.files known.2) storagePath synced existed required paths⟩
  | forgetSync storagePath =>
    refine ⟨inv.files,inv.storageMeta,EntriesValid.update inv.fingerprints ?_⟩
    rintro changed ⟨⟩

theorem right_of_careful (noCollision : Set.InjOn hashStorageBytes contents) (s : State Digest) (event : Event Digest)
    (known : Known contents event) (inv : Inv hashStorageBytes parse contents s)
    (careful : Careful granularity hashStorageBytes parse contents s event) : Right granularity hashStorageBytes parse s event := by
  have stays : ∀ (races : Races) (storagePath : String) (look later : ℕ), look ≤ later →
      ((s.looks granularity races look).files storagePath).isSome → ((s.looks granularity races later).files storagePath).isSome :=
    fun races storagePath look later after => present_during after
  cases event with
  | readStorageMeta storagePath races =>
    exact readStorageMeta_right noCollision inv.storageMeta (looks_contents inv.files known) (stays races storagePath) careful.1 careful.2
  | invalidateAffinity store last storagePath races =>
    have files : ∀ look path version, (s.looks granularity races look).files path = some version → version.bytes ∈ contents :=
      looks_contents inv.files known
    obtain ⟨look,within,found⟩ := readStorageMeta_right noCollision inv.storageMeta files
      (stays races storagePath) careful.1 careful.2
    refine ⟨look,within,_,found,?_⟩
    dsimp only [maybeInvalidateAffinityFromDisk]
    split
    · next newer => exact ⟨(max_eq_right (le_of_lt newer)).symm,rfl⟩
    · next older => exact ⟨(max_eq_left (not_lt.mp older)).symm,rfl⟩
  | checkSync storagePath paths races =>
    exact isActiveSelectionSyncCurrent_right noCollision inv.fingerprints (looks_contents inv.files known.2) known.1 careful
  | change c => trivial
  | recordSync storagePath synced existed required paths races => trivial
  | forgetSync storagePath => trivial

/-- A call that nothing races is right just when the file that it trusts records what
    the entry's file did. -/
theorem readStorageMeta_right_iff (noCollision : Set.InjOn hashStorageBytes contents)
    (inv : Inv hashStorageBytes parse contents s)
    (succeed : ReadsSucceed parse storagePath (s.looks granularity [])) :
    Right granularity hashStorageBytes parse s (.readStorageMeta storagePath []) ↔
      SameMeta hashStorageBytes parse contents s.storageMeta storagePath (s.looks granularity []) := by
  have still : s.looks granularity [] = fun _ => s.disk := funext (fun look => during_nil _ _)
  constructor
  · intro right cached stats found here trusts bytes member hashed
    obtain ⟨look,_,gives⟩ := right
    obtain ⟨source,known,sourceHash,records⟩ := inv.storageMeta storagePath cached found
    rw [still] at gives here trusts
    have answer : (readStorageMetaFromDisk hashStorageBytes parse s.storageMeta storagePath (fun _ => s.disk)).1 = cached.toStorageMeta := by
      have kept : (s.storageMeta storagePath).filter (fun cached => decide (cached.trusts stats s.disk)) = some cached := by
        rw [found,filter_some,if_pos (decide_eq_true trusts)]
      rw [readStorageMetaFromDisk,here,if_neg (by simp)]
      dsimp only
      rw [kept]
    rw [answer,uncachedMeta,World.bytes,here] at gives
    have same : bytes = source := noCollision member known (hashed.trans sourceHash.symm)
    rw [same,records]
    exact gives
  · intro same
    apply readStorageMeta_right noCollision inv.storageMeta ?_ ?_ succeed same
    · intro look path version found
      rw [still] at found
      exact inv.files path version found
    · intro look later _ present
      rw [still] at present ⊢
      exact present

/-- Waiting, replacements, and reads of the pin and the generation that nothing races. -/
def Quiet : Event Digest → Prop
  | .change _ => True
  | .readStorageMeta _ races => races = []
  | _ => False

variable (parse granularity) in
def Succeeds (s : State Digest) : Event Digest → Prop
  | .readStorageMeta storagePath races => ReadsSucceed parse storagePath (s.looks granularity races)
  | _ => True

end

/-- An accounts file whose generation is the digit, with its digest and its text parsed. -/
def fileOf (digit : UInt8) : Buffer :=
  [123,34,97,102,102,105,110,105,116,121,71,101,110,101,114,97,116,105,111,110,34,58,digit,125]

def digestOf (bytes : Buffer) : String :=
  if bytes = fileOf 49 then "ec343e787dda865406b31fd491d624c12f33d0a6"
  else if bytes = fileOf 50 then "aa1bdf87ab48ecc274846d49b1bf18759691b0cd"
  else ""

def parseOf (bytes : Buffer) : Option Json :=
  if bytes = fileOf 49 then some (.obj [("affinityGeneration",.num 1)])
  else if bytes = fileOf 50 then some (.obj [("affinityGeneration",.num 2)])
  else none

def noFiles : State String := ⟨⟨0,fun _ => none⟩,fun _ => none,fun _ => none,fun _ => none⟩

/-- A switch, a read, a second switch within the same date, and after three seconds a
    read. -/
def twoSwitches : List (Event String) :=
  [.change (.replace "accounts.json" (fileOf 49)),.readStorageMeta "accounts.json" [],.change (.wait 1000000),
    .change (.replace "accounts.json" (fileOf 50)),.change (.wait 3000000000),.readStorageMeta "accounts.json" []]

/-- The same with a mirror file that another program replaces after the record. -/
def replacedMirror : List (Event String) :=
  [.change (.replace "accounts.json" (fileOf 49)),.change (.replace "auth.json" (fileOf 49)),
    .recordSync "accounts.json" (some "ec343e787dda865406b31fd491d624c12f33d0a6") (fun _ => false) (fun _ => false) ["auth.json"] [],
    .change (.replace "auth.json" (fileOf 50)),.change (.wait 3000000000),.checkSync "accounts.json" ["auth.json"] []]

theorem digestOf_inj : Set.InjOn digestOf {fileOf 49,fileOf 50} := by
  rintro a (rfl | rfl) b (rfl | rfl) same
  · rfl
  · exact absurd same (by decide)
  · exact absurd same (by decide)
  · rfl

theorem start_noFiles : Start {fileOf 49,fileOf 50} noFiles := by
  refine ⟨?_,fun path => rfl,fun path => rfl⟩
  intro path version found
  cases found

/-- A switch, a read, and after three seconds another read. -/
def oneSwitch : List (Event String) :=
  [.change (.replace "accounts.json" (fileOf 49)),.readStorageMeta "accounts.json" [],.change (.wait 3000000000),
    .readStorageMeta "accounts.json" []]

end CodexMultiAuth.FileCaches
