import CodexMultiAuth.Json
import CodexMultiAuth.Runs
import CodexMultiAuth.ReplacedFiles
import CodexMultiAuth.SessionAffinity

/-!
The caches of the accounts file: the pin and the affinity generation that the proxy
reads on each request, and the check that the files of the official CLI are still
those of the last sync. Both trust a file whose date and size are the cached ones
once the date lies more than two seconds back, and hash it otherwise.

A look at a file is numbered within its call. A look that a branch leaves out keeps
its number, and finds nothing.
-/
namespace CodexMultiAuth.FileCaches
open ReplacedFiles
open SessionAffinity (SessionAffinityStore)

abbrev Buffer := List UInt8
abbrev Disk := World String Buffer
abbrev DiskChange := Change String Buffer

def MTIME_SHORTCIRCUIT_SETTLE_MS : ℕ := 2000
def ACTIVE_SYNC_MTIME_SETTLE_MS : ℕ := 2000

/-- `Date.now() - mtimeMs > settleMs`, where `Date.now` counts whole milliseconds. -/
def settled (settleMs : ℕ) (disk : Disk) (mtime : ℕ) : Prop := mtime + settleMs * 1000000 < disk.clock / 1000000 * 1000000

instance (settleMs : ℕ) (disk : Disk) (mtime : ℕ) : Decidable (settled settleMs disk mtime) := inferInstanceAs (Decidable (_ < _))

structure StorageMeta where
  pinnedAccountIndex : Option ℚ
  affinityGeneration : ℚ
  deriving DecidableEq

def StorageMeta.none : StorageMeta := ⟨.none,0⟩

def validPin (raw : Json) : Option ℚ := raw.asNumber.filter (fun n => decide (n.den = 1 ∧ 0 ≤ n))

def validGeneration (raw : Json) : Option ℚ := raw.asNumber.filter (fun n => decide (n.den = 1 ∧ n ≤ 9007199254740991 ∧ 0 ≤ n))

/-- What the parsed file records. Only `null` has no properties to ask for. -/
def parsedMeta : Json → Option StorageMeta
  | .null => none
  | .obj fields =>
    some ⟨(OrderedMap.find fields "pinnedAccountIndex").bind validPin,
      ((OrderedMap.find fields "affinityGeneration").bind validGeneration).getD 0⟩
  | _ => some .none

structure StorageMetaSnapshot (Digest : Type) extends StorageMeta where
  mtime : ℕ
  size : ℕ
  contentHash : Digest

abbrev StorageMetaCache (Digest : Type) := String → Option (StorageMetaSnapshot Digest)

section
variable {Digest : Type} [DecidableEq Digest] (hashStorageBytes : Buffer → Digest) (parse : Buffer → Option Json)

def metaOf (bytes : Buffer) : Option StorageMeta := (parse bytes).bind parsedMeta

/-- The fast path: the cached date and size, and a date that has settled. -/
def StorageMetaSnapshot.trusts (cached : StorageMetaSnapshot Digest) (stats : Version Buffer) (atNow : Disk) : Prop :=
  cached.mtime = stats.mtime ∧ cached.size = stats.bytes.length ∧ settled MTIME_SHORTCIRCUIT_SETTLE_MS atNow stats.mtime

instance (cached : StorageMetaSnapshot Digest) (stats : Version Buffer) (atNow : Disk) : Decidable (cached.trusts stats atNow) :=
  inferInstanceAs (Decidable (_ ∧ _))

/-- The last good snapshot, after any failure. -/
def lastGood (cache : StorageMetaCache Digest) (storagePath : String) : StorageMeta :=
  match cache storagePath with
  | some cached => cached.toStorageMeta
  | none => .none

/-- The slow path, over the bytes that were read. -/
def readFresh (cache : StorageMetaCache Digest) (storagePath : String) (stats : Version Buffer) (bytes : Buffer) :
    StorageMeta × StorageMetaCache Digest :=
  match (cache storagePath).filter (fun cached => decide (cached.contentHash = hashStorageBytes bytes)) with
  | some cached =>
    (cached.toStorageMeta,Function.update cache storagePath (some { cached with mtime := stats.mtime,size := stats.bytes.length }))
  | none =>
    match metaOf parse bytes with
    | some parsed =>
      (parsed,Function.update cache storagePath (some ⟨parsed,stats.mtime,stats.bytes.length,hashStorageBytes bytes⟩))
    | none => (lastGood cache storagePath,cache)

/-- The looks: existence, stat, clock, bytes. -/
def readStorageMetaFromDisk (cache : StorageMetaCache Digest) (storagePath : String) (looks : ℕ → Disk) :
    StorageMeta × StorageMetaCache Digest :=
  if ((looks 0).files storagePath).isNone then (.none,Function.update cache storagePath none)
  else
    match (looks 1).files storagePath with
    | none => (lastGood cache storagePath,cache)
    | some stats =>
      match (cache storagePath).filter (fun cached => decide (cached.trusts stats (looks 2))) with
      | some cached => (cached.toStorageMeta,cache)
      | none =>
        match (looks 3).files storagePath with
        | none => (lastGood cache storagePath,cache)
        | some read => readFresh hashStorageBytes parse cache storagePath stats read.bytes

structure Invalidated (Digest : Type) where
  sessionAffinityStore : Option SessionAffinityStore
  lastObservedGeneration : ℚ
  cache : StorageMetaCache Digest

def maybeInvalidateAffinityFromDisk (sessionAffinityStore : Option SessionAffinityStore) (lastObservedGeneration : ℚ)
    (cache : StorageMetaCache Digest) (storagePath : String) (looks : ℕ → Disk) : Invalidated Digest :=
  let read := readStorageMetaFromDisk hashStorageBytes parse cache storagePath looks
  if lastObservedGeneration < read.1.affinityGeneration then
    ⟨sessionAffinityStore.map SessionAffinityStore.clearAll,read.1.affinityGeneration,read.2⟩
  else ⟨sessionAffinityStore,lastObservedGeneration,read.2⟩

structure ActiveSyncFingerprint (Digest : Type) where
  mtime : ℕ
  size : ℕ
  contentHash : Digest

/-- A mirror file that was absent has no fingerprint. -/
abbrev Mirror (Digest : Type) := OrderedMap String (Option (ActiveSyncFingerprint Digest))

structure ActiveSyncCacheEntry (Digest : Type) where
  storage : ActiveSyncFingerprint Digest
  mirror : Mirror Digest

abbrev ActiveSyncFingerprints (Digest : Type) := String → Option (ActiveSyncCacheEntry Digest)

/-- The bytes of a file that was there at a first look and read at the next. -/
def readAfterStat (path : String) (looks : ℕ → Disk) (look : ℕ) : Option Buffer :=
  ((looks look).files path).bind (fun _ => (looks (look + 1)).bytes path)

/-- The looks: stat, bytes. -/
def statFingerprint (storagePath : String) (looks : ℕ → Disk) (look : ℕ) : Option (ActiveSyncFingerprint Digest) :=
  if storagePath = "" then none
  else
    ((looks look).files storagePath).bind (fun stats =>
      ((looks (look + 1)).bytes storagePath).map (fun bytes => ⟨stats.mtime,stats.bytes.length,hashStorageBytes bytes⟩))

def ActiveSyncFingerprint.trusts (cached : ActiveSyncFingerprint Digest) (stats : Version Buffer) (atNow : Disk) : Prop :=
  cached.mtime = stats.mtime ∧ cached.size = stats.bytes.length ∧ settled ACTIVE_SYNC_MTIME_SETTLE_MS atNow stats.mtime

instance (cached : ActiveSyncFingerprint Digest) (stats : Version Buffer) (atNow : Disk) : Decidable (cached.trusts stats atNow) :=
  inferInstanceAs (Decidable (_ ∧ _))

/-- The looks: stat, clock, bytes. The cached fingerprint takes over the date and the
    size where the bytes are the cached ones. -/
def fingerprintMatchesCurrent (path : String) (cached : ActiveSyncFingerprint Digest) (looks : ℕ → Disk) (look : ℕ) :
    Bool × ActiveSyncFingerprint Digest :=
  match (looks look).files path with
  | none => (false,cached)
  | some stats =>
    if cached.trusts stats (looks (look + 1)) then (true,cached)
    else
      match (looks (look + 2)).files path with
      | none => (false,cached)
      | some read =>
        if hashStorageBytes read.bytes ≠ cached.contentHash then (false,cached)
        else (true,{ cached with mtime := stats.mtime,size := stats.bytes.length })

def mirrorMatches (looks : ℕ → Disk) : List String → ℕ → Mirror Digest → Bool × Mirror Digest
  | [],_,mirror => (true,mirror)
  | path :: rest,look,mirror =>
    match mirror.find path with
    | none => (false,mirror)
    | some none => if ((looks look).files path).isSome then (false,mirror) else mirrorMatches looks rest (look + 3) mirror
    | some (some expected) =>
      let checked := fingerprintMatchesCurrent hashStorageBytes path expected looks look
      let updated := mirror.put path (some checked.2)
      if checked.1 then mirrorMatches looks rest (look + 3) updated else (false,updated)

def isActiveSelectionSyncCurrent (fingerprints : ActiveSyncFingerprints Digest) (storagePath : String) (codexCliMirrorPaths : List String)
    (looks : ℕ → Disk) : Bool × ActiveSyncFingerprints Digest :=
  if storagePath = "" then (false,fingerprints)
  else if ((looks 0).files storagePath).isNone then (false,Function.update fingerprints storagePath none)
  else
    match fingerprints storagePath with
    | none => (false,fingerprints)
    | some cached =>
      let storage := fingerprintMatchesCurrent hashStorageBytes storagePath cached.storage looks 1
      if storage.1 = false ∨ codexCliMirrorPaths.length ≠ cached.mirror.length then
        (false,Function.update fingerprints storagePath (some { cached with storage := storage.2 }))
      else
        let mirror := mirrorMatches hashStorageBytes looks codexCliMirrorPaths 4 cached.mirror
        (mirror.1,Function.update fingerprints storagePath (some ⟨storage.2,mirror.2⟩))

/-- The fingerprints of the mirror files, unless one has gone that was there before
    the pass or that the pass must have written. -/
def recordMirror (existedBeforePass requiredMirrorPaths : String → Bool) (looks : ℕ → Disk) :
    List String → ℕ → Mirror Digest → Option (Mirror Digest)
  | [],_,mirror => some mirror
  | path :: rest,look,mirror =>
    let fingerprint := statFingerprint hashStorageBytes path looks look
    if fingerprint.isNone ∧ (existedBeforePass path = true ∨ requiredMirrorPaths path = true) then none
    else recordMirror existedBeforePass requiredMirrorPaths looks rest (look + 2) (mirror.put path fingerprint)

def recordActiveSelectionSync (fingerprints : ActiveSyncFingerprints Digest) (storagePath : String) (syncedContentHash : Option Digest)
    (existedBeforePass requiredMirrorPaths : String → Bool) (codexCliMirrorPaths : List String) (looks : ℕ → Disk) :
    ActiveSyncFingerprints Digest :=
  Function.update fingerprints storagePath
    (((statFingerprint hashStorageBytes storagePath looks 0).filter (fun storage => decide (some storage.contentHash = syncedContentHash))).bind
      (fun storage => (recordMirror hashStorageBytes existedBeforePass requiredMirrorPaths looks codexCliMirrorPaths 2 []).map
        (fun mirror => ⟨storage,mirror⟩)))

end
end CodexMultiAuth.FileCaches
