import CodexMultiAuth.OrderedMap
import Mathlib.Data.List.DropRight
import Mathlib.Data.Rat.Floor

/-!
The account that a chat session stays on. A store keeps for each session the
index of an account, the time it is kept until and the version of the write; it
has room for a number of sessions and drops the one that was written first when
a new one has no room. Every number here is finite.
-/
namespace CodexMultiAuth.SessionAffinity

open List OrderedMap

/-- A JavaScript text, as its UTF-16 units. -/
abbrev Text := List UInt16

/-- The white space and line terminators that `trim` strips. -/
def isWhiteSpace (unit : UInt16) : Bool :=
  (9 ≤ unit.toNat && unit.toNat ≤ 13) || (0x2000 ≤ unit.toNat && unit.toNat ≤ 0x200A) ||
    [0x20,0xA0,0x1680,0x2028,0x2029,0x202F,0x205F,0x3000,0xFEFF].contains unit.toNat

def trim (text : Text) : Text := ((text.dropWhile isWhiteSpace).reverse.dropWhile isWhiteSpace).reverse

theorem trim_trim (text : Text) : trim (trim text) = trim text := by
  have front : ∀ l : Text, l.dropWhile isWhiteSpace = l →
      (l.reverse.dropWhile isWhiteSpace).reverse.dropWhile isWhiteSpace = (l.reverse.dropWhile isWhiteSpace).reverse := by
    intro l solid
    have initial : (l.reverse.dropWhile isWhiteSpace).reverse <+: l := by
      have suffix := dropWhile_suffix isWhiteSpace (l := l.reverse)
      rw [← reverse_prefix] at suffix
      rwa [reverse_reverse] at suffix
    cases shape : (l.reverse.dropWhile isWhiteSpace).reverse with
    | nil => rfl
    | cons first rest =>
      rw [shape] at initial
      obtain ⟨others,rfl⟩ := initial
      rw [cons_append,dropWhile_cons] at solid
      split at solid
      · have shorter := (dropWhile_suffix isWhiteSpace (l := rest ++ others)).length_le
        have same := congrArg List.length solid
        rw [length_cons] at same
        omega
      case isFalse solid_ => rw [dropWhile_cons,if_neg solid_]
  unfold trim
  rw [front (text.dropWhile isWhiteSpace) (dropWhile_idempotent _ _),reverse_reverse,dropWhile_idempotent]

def MAX_SESSION_KEY_LENGTH : Nat := 256

/-- A key that sessions are kept under is never empty. -/
abbrev SessionKey := { text : Text // text ≠ [] }

def normalizeSessionKey (value : Option Text) : Option SessionKey :=
  match value with
  | none => none
  | some value =>
    if empty : trim value = [] then none
    else some ⟨(trim value).take MAX_SESSION_KEY_LENGTH,by simpa [MAX_SESSION_KEY_LENGTH] using empty⟩

/-! ### The store -/

structure SessionAffinityEntry where
  accountIndex : ℚ
  expiresAt : ℚ
  lastResponseId : Option Text
  updatedAt : ℚ
  writeVersion : Nat

abbrev Entries := OrderedMap SessionKey SessionAffinityEntry

structure SessionAffinityStore where
  ttlMs : ℚ
  maxEntries : Nat
  entries : Entries
  writeVersionCounter : Nat
  room : 0 < maxEntries
  distinct : entries.keys.Nodup
  within : entries.length ≤ maxEntries
  /-- No entry has a version that the counter has not reached. -/
  versions : ∀ key entry, entries.find key = some entry → entry.writeVersion ≤ writeVersionCounter

def DEFAULT_TTL_MS : ℚ := 20 * 60 * 1000
def DEFAULT_MAX_ENTRIES : ℚ := 512

structure SessionAffinityOptions where
  ttlMs : Option ℚ := none
  maxEntries : Option ℚ := none

def SessionAffinityStore.new (options : SessionAffinityOptions) : SessionAffinityStore where
  ttlMs := max 1000 ⌊options.ttlMs.getD DEFAULT_TTL_MS⌋
  maxEntries := (max 1 ⌊options.maxEntries.getD DEFAULT_MAX_ENTRIES⌋).toNat
  entries := []
  writeVersionCounter := 0
  room := by
    have positive : 1 ≤ max 1 ⌊options.maxEntries.getD DEFAULT_MAX_ENTRIES⌋ := le_max_left _ _
    omega
  distinct := nodup_nil
  within := Nat.zero_le _
  versions := fun _ _ found => by cases found

/-- The first entry of those that were updated the longest ago. -/
def older (oldest : Option (SessionKey × ℚ)) (entry : SessionKey × SessionAffinityEntry) : Option (SessionKey × ℚ) :=
  match oldest with
  | none => some (entry.1,entry.2.updatedAt)
  | some (key,timestamp) => if entry.2.updatedAt < timestamp then some (entry.1,entry.2.updatedAt) else some (key,timestamp)

def findOldestKey (entries : Entries) : Option SessionKey := (entries.foldl older none).map Prod.fst

/-- The entries with room for a key. -/
def makeRoom (maxEntries : Nat) (entries : Entries) (key : SessionKey) : Entries :=
  if maxEntries ≤ entries.length ∧ (entries.find key).isNone then
    match findOldestKey entries with
    | some oldest => entries.remove oldest
    | none => entries
  else entries

theorem foldl_older_mem (entries : Entries) (oldest : Option (SessionKey × ℚ)) :
    entries.foldl older oldest = oldest ∧ (oldest.isSome ∨ entries = []) ∨
      ∃ entry ∈ entries, entries.foldl older oldest = some (entry.1,entry.2.updatedAt) := by
  induction entries generalizing oldest with
  | nil => exact .inl ⟨rfl,.inr rfl⟩
  | cons entry entries ih =>
    rw [foldl_cons]
    rcases ih (older oldest entry) with ⟨same,_⟩ | ⟨later,member,same⟩
    · rw [same]
      cases oldest with
      | none => exact .inr ⟨entry,mem_cons_self,rfl⟩
      | some kept =>
        obtain ⟨key,timestamp⟩ := kept
        unfold older
        dsimp only
        split
        · exact .inr ⟨entry,mem_cons_self,rfl⟩
        · exact .inl ⟨rfl,.inl rfl⟩
    · exact .inr ⟨later,mem_cons_of_mem _ member,same⟩

variable {entries : Entries}

theorem findOldestKey_mem (some_entry : entries ≠ []) : ∃ key ∈ entries.keys, findOldestKey entries = some key := by
  rcases foldl_older_mem entries none with ⟨_,absent | empty⟩ | ⟨entry,member,found⟩
  · cases absent
  · exact absurd empty some_entry
  · exact ⟨entry.1,mem_map_of_mem member,by simp [findOldestKey,found]⟩

theorem length_remove_lt {key : SessionKey} (member : key ∈ entries.keys) :
    (entries.remove key).length < entries.length := by
  obtain ⟨entry,among,rfl⟩ := mem_map.mp member
  exact length_filter_lt_length_iff_exists.mpr ⟨entry,among,by simp⟩

theorem length_put (entries : Entries) (key : SessionKey) (entry : SessionAffinityEntry) :
    (entries.put key entry).length = if key ∈ entries.keys then entries.length else entries.length + 1 := by
  have keys : (entries.put key entry).keys.length = _ := congrArg List.length (keys_put entries key entry)
  have counted : (entries.put key entry).length = (entries.put key entry).keys.length := (length_map Prod.fst).symm
  refine counted.trans (keys.trans ?_)
  split
  · exact length_map _
  · rw [length_append,length_singleton,OrderedMap.keys,length_map]

theorem nodup_makeRoom (maxEntries : Nat) (distinct : entries.keys.Nodup) (key : SessionKey) :
    (makeRoom maxEntries entries key).keys.Nodup := by
  unfold makeRoom
  split
  · split
    · exact nodup_remove distinct _
    · exact distinct
  · exact distinct

theorem find_makeRoom {maxEntries : Nat} {key other : SessionKey} {entry : SessionAffinityEntry}
    (found : (makeRoom maxEntries entries key).find other = some entry) : entries.find other = some entry := by
  unfold makeRoom at found
  split at found
  · split at found
    · rw [find_remove] at found
      split at found
      · cases found
      · exact found
    · exact found
  · exact found

theorem length_put_makeRoom {maxEntries : Nat} (room : 0 < maxEntries) (within : entries.length ≤ maxEntries)
    (key : SessionKey) (entry : SessionAffinityEntry) : ((makeRoom maxEntries entries key).put key entry).length ≤ maxEntries := by
  rw [length_put]
  unfold makeRoom
  split
  · next full =>
    have some_entry : entries ≠ [] := by
      rintro rfl
      simp at full
      omega
    obtain ⟨oldest,member,found⟩ := findOldestKey_mem some_entry
    rw [found]
    have shorter := length_remove_lt member
    dsimp only
    split <;> omega
  · next spare =>
    by_cases here : key ∈ entries.keys
    · rw [if_pos here]
      exact within
    · rw [if_neg here]
      have absent : (entries.find key).isNone := by simpa using find_eq_none.mpr here
      have less : ¬ maxEntries ≤ entries.length := fun full => spare ⟨full,absent⟩
      omega

namespace SessionAffinityStore

def live (entry : SessionAffinityEntry) (now : ℚ) : Bool := decide (now < entry.expiresAt)

def keep (store : SessionAffinityStore) (test : SessionKey × SessionAffinityEntry → Bool) : SessionAffinityStore :=
  { store with
    entries := store.entries.filter test
    distinct := (filter_sublist.map Prod.fst).nodup store.distinct
    within := le_trans (length_filter_le _ _) store.within
    versions := by
      intro key entry found
      have member := mem_of_mem_filter (mem_of_find found)
      exact store.versions key entry (find_of_mem store.distinct member) }

def drop (store : SessionAffinityStore) (key : SessionKey) : SessionAffinityStore :=
  store.keep (fun entry => !decide (entry.1 = key))

/-- The version that a write takes, and the counter after it. -/
def normalizeWriteVersion (counter : Nat) (writeVersion : Option ℚ) : Nat × Nat :=
  match writeVersion with
  | some version => (⌊version⌋.toNat,max counter ⌊version⌋.toNat)
  | none => (counter + 1,counter + 1)

theorem normalizeWriteVersion_le (counter : Nat) (writeVersion : Option ℚ) :
    counter ≤ (normalizeWriteVersion counter writeVersion).2 ∧
      (normalizeWriteVersion counter writeVersion).1 ≤ (normalizeWriteVersion counter writeVersion).2 := by
  cases writeVersion with
  | none => exact ⟨Nat.le_succ _,le_refl _⟩
  | some version => exact ⟨le_max_left _ _,le_max_right _ _⟩

def count (store : SessionAffinityStore) (counter : Nat) (up : store.writeVersionCounter ≤ counter) : SessionAffinityStore :=
  { store with
    writeVersionCounter := counter
    versions := fun key entry found => le_trans (store.versions key entry found) up }

def setEntry (store : SessionAffinityStore) (key : SessionKey) (entry : SessionAffinityEntry)
    (version : entry.writeVersion ≤ store.writeVersionCounter) : SessionAffinityStore :=
  { store with
    entries := (makeRoom store.maxEntries store.entries key).put key entry
    distinct := nodup_put (nodup_makeRoom _ store.distinct key) key entry
    within := length_put_makeRoom store.room store.within key entry
    versions := by
      intro other stored found
      rw [find_put] at found
      split at found
      · obtain rfl := Option.some.inj found
        exact version
      · exact store.versions other stored (find_makeRoom found) }

def getPreferredAccountIndex (store : SessionAffinityStore) (sessionKey : Option Text) (now : ℚ) :
    Option ℚ × SessionAffinityStore :=
  match normalizeSessionKey sessionKey with
  | none => (none,store)
  | some key =>
    match store.entries.find key with
    | none => (none,store)
    | some entry => if live entry now then (some entry.accountIndex,store) else (none,store.drop key)

def rememberWithVersion (store : SessionAffinityStore) (sessionKey : Option Text) (accountIndex now : ℚ)
    (writeVersion : Option ℚ) : SessionAffinityStore :=
  match normalizeSessionKey sessionKey with
  | none => store
  | some key =>
    if accountIndex < 0 then store
    else
      let normalized := normalizeWriteVersion store.writeVersionCounter writeVersion
      let counted := store.count normalized.2 (normalizeWriteVersion_le _ _).1
      let existingEntry := store.entries.find key
      if existingEntry.any (fun existing => live existing now && decide (normalized.1 < existing.writeVersion)) then counted
      else
        counted.setEntry key
          { accountIndex
            expiresAt := now + store.ttlMs
            lastResponseId := existingEntry.bind (·.lastResponseId)
            updatedAt := now
            writeVersion := normalized.1 } (normalizeWriteVersion_le _ _).2

def remember (store : SessionAffinityStore) (sessionKey : Option Text) (accountIndex now : ℚ) : SessionAffinityStore :=
  store.rememberWithVersion sessionKey accountIndex now none

def getLastResponseId (store : SessionAffinityStore) (sessionKey : Option Text) (now : ℚ) : Option Text × SessionAffinityStore :=
  match normalizeSessionKey sessionKey with
  | none => (none,store)
  | some key =>
    match store.entries.find key with
    | none => (none,store)
    | some entry =>
      if live entry now then ((entry.lastResponseId.map trim).filter (fun id => decide (id ≠ [])),store) else (none,store.drop key)

def updateLastResponseId (store : SessionAffinityStore) (sessionKey responseId : Option Text) (now : ℚ)
    (writeVersion : Option ℚ) : SessionAffinityStore :=
  match normalizeSessionKey sessionKey,(responseId.map trim).filter (fun id => decide (id ≠ [])) with
  | some key,some normalizedResponseId =>
    let normalized := normalizeWriteVersion store.writeVersionCounter writeVersion
    let counted := store.count normalized.2 (normalizeWriteVersion_le _ _).1
    match store.entries.find key with
    | none => counted
    | some entry =>
      if !live entry now then counted.drop key
      else if normalized.1 < entry.writeVersion then counted
      else
        counted.setEntry key
          { entry with
            expiresAt := now + store.ttlMs
            lastResponseId := some normalizedResponseId
            updatedAt := now
            writeVersion := normalized.1 } (normalizeWriteVersion_le _ _).2
  | _,_ => store

def forgetSession (store : SessionAffinityStore) (sessionKey : Option Text) : SessionAffinityStore :=
  match normalizeSessionKey sessionKey with
  | none => store
  | some key => store.drop key

def forgetAccount (store : SessionAffinityStore) (accountIndex : ℚ) : SessionAffinityStore :=
  if accountIndex < 0 then store else store.keep (fun entry => !decide (entry.2.accountIndex = accountIndex))

/-- After an account is removed the accounts behind it move up. -/
def moveUp (removedIndex : ℚ) (entry : SessionAffinityEntry) : SessionAffinityEntry :=
  if removedIndex < entry.accountIndex then { entry with accountIndex := entry.accountIndex - 1 } else entry

theorem find_map (change : SessionAffinityEntry → SessionAffinityEntry) (entries : Entries) (key : SessionKey) :
    OrderedMap.find (entries.map (fun entry => (entry.1,change entry.2))) key = (entries.find key).map change := by
  induction entries with
  | nil => rfl
  | cons entry entries ih =>
    rw [map_cons,find_cons,find_cons,ih]
    split <;> rfl

def reindexAfterRemoval (store : SessionAffinityStore) (removedIndex : ℚ) : SessionAffinityStore :=
  if removedIndex < 0 then store
  else
    { store with
      entries := store.entries.map (fun entry => (entry.1,moveUp removedIndex entry.2))
      distinct := by
        have keys : OrderedMap.keys (store.entries.map (fun entry => (entry.1,moveUp removedIndex entry.2))) = store.entries.keys := by
          simp [OrderedMap.keys,Function.comp_def]
        rw [keys]
        exact store.distinct
      within := by
        rw [length_map]
        exact store.within
      versions := by
        intro key entry found
        rw [find_map] at found
        obtain ⟨kept,before,rfl⟩ := Option.map_eq_some_iff.mp found
        have version : (moveUp removedIndex kept).writeVersion = kept.writeVersion := by
          unfold moveUp
          split <;> rfl
        rw [version]
        exact store.versions key kept before }

def prune (store : SessionAffinityStore) (now : ℚ) : SessionAffinityStore := store.keep (fun entry => live entry.2 now)

def clearAll (store : SessionAffinityStore) : SessionAffinityStore := store.keep (fun _ => false)

/-- A write without a version of its own is never refused: the session is on the
    account that was given, and stays there until its time is over. -/
theorem find_remember (store : SessionAffinityStore) {sessionKey : Option Text} {key : SessionKey} {accountIndex : ℚ} (now : ℚ)
    (named : normalizeSessionKey sessionKey = some key) (index : 0 ≤ accountIndex) :
    ∃ entry, (store.remember sessionKey accountIndex now).entries.find key = some entry ∧
      entry.accountIndex = accountIndex ∧ entry.expiresAt = now + store.ttlMs := by
  have fresh : (normalizeWriteVersion store.writeVersionCounter none).1 = store.writeVersionCounter + 1 := rfl
  have refused : ¬ ((store.entries.find key).any (fun existing =>
      live existing now && decide ((normalizeWriteVersion store.writeVersionCounter none).1 < existing.writeVersion))) = true := by
    cases found : store.entries.find key with
    | none => simp
    | some existing =>
      have reached := store.versions key existing found
      rw [fresh]
      simp only [Option.any_some,Bool.and_eq_true,decide_eq_true_eq]
      omega
  refine ⟨{ accountIndex
            expiresAt := now + store.ttlMs
            lastResponseId := (store.entries.find key).bind (·.lastResponseId)
            updatedAt := now
            writeVersion := (normalizeWriteVersion store.writeVersionCounter none).1 },?_,rfl,rfl⟩
  simp only [remember,rememberWithVersion,named,if_neg (not_lt.mpr index)]
  rw [if_neg refused]
  simp only [setEntry,find_put,if_true]

end SessionAffinityStore
end CodexMultiAuth.SessionAffinity
