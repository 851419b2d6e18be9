import CodexMultiAuth.SessionAffinity
import CodexMultiAuth.Runs

/-!
The store of session affinities over whole runs (`affinity_stays_iff`). A response id
outlives its entry just when the session is remembered again before its expired entry is
dropped.
-/
namespace CodexMultiAuth.SessionAffinity
open SessionAffinityStore OrderedMap Option

variable {entries : Entries} {key : SessionKey}

theorem foldl_older_least {oldest : Option (SessionKey × ℚ)} {timestamp : ℚ}
    (found : entries.foldl older oldest = some (key,timestamp)) :
    (∀ entry ∈ entries, timestamp ≤ entry.2.updatedAt) ∧ ∀ first, oldest = some first → timestamp ≤ first.2 := by
  induction entries generalizing oldest with
  | nil =>
    refine ⟨fun entry member => absurd member List.not_mem_nil,fun first same => ?_⟩
    rw [List.foldl_nil,same] at found
    cases found
    exact le_refl _
  | cons entry rest ih =>
    obtain ⟨later,before⟩ := ih found
    cases oldest with
    | none => exact ⟨List.forall_mem_cons.mpr ⟨before _ rfl,later⟩,fun first same => nomatch same⟩
    | some kept =>
      unfold older at before
      dsimp only at before
      split at before
      case isTrue newer =>
        have least := before _ rfl
        refine ⟨List.forall_mem_cons.mpr ⟨least,later⟩,fun first same => ?_⟩
        cases same
        exact le_trans least newer.le
      case isFalse notNewer =>
        have least := before _ rfl
        refine ⟨List.forall_mem_cons.mpr ⟨le_trans least (not_lt.mp notNewer),later⟩,fun first same => ?_⟩
        cases same
        exact least

variable {entry : SessionAffinityEntry}

theorem findOldestKey_least (distinct : entries.keys.Nodup) (oldest : findOldestKey entries = some key)
    (found : entries.find key = some entry) :
    ∀ other stored, entries.find other = some stored → entry.updatedAt ≤ stored.updatedAt := by
  intro other stored there
  obtain ⟨⟨first,timestamp⟩,folded,rfl⟩ := map_eq_some_iff.mp oldest
  have least := (foldl_older_least folded).1 _ (mem_of_find there)
  rcases foldl_older_mem entries none with ⟨same,-⟩ | ⟨source,member,same⟩
  · rw [same] at folded
    cases folded
  · rw [same] at folded
    cases folded
    have itself : entries.find source.1 = some source.2 := find_of_mem distinct member
    rw [itself] at found
    cases found
    exact least

variable {key other : SessionKey}

theorem find_makeRoom_none {maxEntries : ℕ} (distinct : entries.keys.Nodup)
    (found : entries.find other = some entry) (gone : (makeRoom maxEntries entries key).find other = none) :
    maxEntries ≤ entries.length ∧ entries.find key = none ∧ ∀ third stored, entries.find third = some stored → entry.updatedAt ≤ stored.updatedAt := by
  unfold makeRoom at gone
  split at gone
  case isFalse =>
    rw [found] at gone
    cases gone
  case isTrue full =>
    refine ⟨full.1,isNone_iff_eq_none.mp full.2,?_⟩
    cases oldest : findOldestKey entries with
    | none =>
      rw [oldest] at gone
      exact absurd (found.symm.trans gone) (by simp)
    | some first =>
      rw [oldest] at gone
      dsimp only at gone
      rw [find_remove] at gone
      split at gone
      case isTrue same =>
        subst same
        exact findOldestKey_least distinct oldest found
      case isFalse =>
        rw [found] at gone
        cases gone

section
variable {Account : Type}

def Denotes (accounts : List Account) (index : ℚ) (account : Account) : Prop :=
  ∃ position : ℕ, index = position ∧ accounts[position]? = some account

theorem denotes_moveUp (accounts : List Account) (removed : ℕ) {entry : SessionAffinityEntry} (other : entry.accountIndex ≠ removed)
    (account : Account) :
    Denotes (accounts.eraseIdx removed) (moveUp removed entry).accountIndex account ↔ Denotes accounts entry.accountIndex account := by
  unfold moveUp
  split
  case isTrue behind =>
    show Denotes (accounts.eraseIdx removed) (entry.accountIndex - 1) account ↔ _
    constructor
    · rintro ⟨position,same,found⟩
      have moved : entry.accountIndex = ((position + 1 : ℕ) : ℚ) := by
        push_cast
        exact sub_eq_iff_eq_add.mp same
      rw [moved] at behind
      have after : removed ≤ position := Nat.lt_succ_iff.mp (Nat.cast_lt.mp behind)
      rw [List.getElem?_eraseIdx_of_ge after] at found
      exact ⟨position + 1,moved,found⟩
    · rintro ⟨position,same,found⟩
      rw [same] at behind
      have after : removed < position := Nat.cast_lt.mp behind
      obtain ⟨before,rfl⟩ : ∃ before, position = before + 1 := Nat.exists_eq_succ_of_ne_zero (by omega)
      refine ⟨before,?_,?_⟩
      · rw [same]
        push_cast
        exact add_sub_cancel_right _ _
      · rw [List.getElem?_eraseIdx_of_ge (Nat.lt_succ_iff.mp after)]
        exact found
  case isFalse ahead =>
    have before : ∀ {position : ℕ}, entry.accountIndex = position → position < removed := by
      intro position same
      rw [same] at ahead other
      have atMost : position ≤ removed := Nat.cast_le.mp (not_lt.mp ahead)
      exact lt_of_le_of_ne atMost fun equal => other (congrArg Nat.cast equal)
    constructor
    · rintro ⟨position,same,found⟩
      rw [List.getElem?_eraseIdx_of_lt (before same)] at found
      exact ⟨position,same,found⟩
    · rintro ⟨position,same,found⟩
      refine ⟨position,same,?_⟩
      rw [List.getElem?_eraseIdx_of_lt (before same)]
      exact found

end

variable (store : SessionAffinityStore)

theorem find_keep (test : SessionKey × SessionAffinityEntry → Bool) (key : SessionKey) :
    (store.keep test).entries.find key = (store.entries.find key).filter (fun entry => test (key,entry)) := by
  show OrderedMap.find (store.entries.filter test) key = _
  have distinct : OrderedMap.keys (store.entries.filter test) |>.Nodup := (List.filter_sublist.map Prod.fst).nodup store.distinct
  cases found : store.entries.find key with
  | none =>
    rw [filter_none]
    refine find_eq_none.mpr fun member => ?_
    exact find_eq_none.mp found ((List.filter_sublist.map Prod.fst).subset member)
  | some entry =>
    rw [filter_some]
    split
    case isTrue passes => exact find_of_mem distinct (List.mem_filter.mpr ⟨mem_of_find found,passes⟩)
    case isFalse fails =>
      cases kept : OrderedMap.find (store.entries.filter test) key with
      | none => rfl
      | some other =>
        obtain ⟨member,passes⟩ := List.mem_filter.mp (mem_of_find kept)
        have same : other = entry := Option.some.inj ((find_of_mem store.distinct member).symm.trans found)
        exact absurd (same ▸ passes) fails

theorem find_removed (removed : ℕ) (key : SessionKey) :
    ((store.forgetAccount removed).reindexAfterRemoval removed).entries.find key =
      ((store.entries.find key).filter (fun entry => !decide (entry.accountIndex = (removed : ℚ)))).map (moveUp removed) := by
  have some_ : ¬(removed : ℚ) < 0 := not_lt.mpr (Nat.cast_nonneg removed)
  unfold forgetAccount reindexAfterRemoval
  rw [if_neg some_,if_neg some_]
  show OrderedMap.find ((store.keep _).entries.map _) key = _
  rw [SessionAffinityStore.find_map,find_keep]

/-- A write of an older version than that of an entry that is still kept. -/
def Refused (store : SessionAffinityStore) (key : SessionKey) (now : ℚ) (writeVersion : Option ℚ) : Prop :=
  ∃ entry, store.entries.find key = some entry ∧ live entry now = true ∧
    (normalizeWriteVersion store.writeVersionCounter writeVersion).1 < entry.writeVersion

variable {session : Option Text} {writeVersion : Option ℚ}

theorem rememberWithVersion_ignored {store : SessionAffinityStore} {index now : ℚ}
    (ignored : normalizeSessionKey session = none ∨ index < 0) : store.rememberWithVersion session index now writeVersion = store := by
  unfold rememberWithVersion
  rcases ignored with blank | negative
  · rw [blank]
  · cases normalizeSessionKey session with
    | none => rfl
    | some key => exact if_pos negative

theorem rememberWithVersion_cases (named : normalizeSessionKey session = some key) {index : ℚ} (nonneg : 0 ≤ index) (now : ℚ)
    (writeVersion : Option ℚ) :
    Refused store key now writeVersion ∧ (store.rememberWithVersion session index now writeVersion).entries = store.entries ∨
      ¬Refused store key now writeVersion ∧ (store.rememberWithVersion session index now writeVersion).entries =
        (makeRoom store.maxEntries store.entries key).put key
          { accountIndex := index
            expiresAt := now + store.ttlMs
            lastResponseId := (store.entries.find key).bind (·.lastResponseId)
            updatedAt := now
            writeVersion := (normalizeWriteVersion store.writeVersionCounter writeVersion).1 } := by
  have refused_iff : (store.entries.find key).any (fun existing =>
      live existing now && decide ((normalizeWriteVersion store.writeVersionCounter writeVersion).1 < existing.writeVersion)) = true ↔
      Refused store key now writeVersion := by
    unfold Refused
    cases store.entries.find key with
    | none => simp
    | some entry => simp
  unfold rememberWithVersion
  rw [named]
  dsimp only
  rw [if_neg (not_lt.mpr nonneg)]
  by_cases refused : Refused store key now writeVersion
  · rw [if_pos (refused_iff.mpr refused)]
    exact Or.inl ⟨refused,rfl⟩
  · rw [if_neg (mt refused_iff.mp refused)]
    exact Or.inr ⟨refused,rfl⟩

def normalizeResponseId (responseId : Option Text) : Option Text := (responseId.map trim).filter (fun id => decide (id ≠ []))

variable {session responseId : Option Text}

theorem updateLastResponseId_ignored {store : SessionAffinityStore} {now : ℚ}
    (ignored : normalizeSessionKey session = none ∨ normalizeResponseId responseId = none) :
    store.updateLastResponseId session responseId now writeVersion = store := by
  unfold normalizeResponseId at ignored
  unfold updateLastResponseId
  split
  case h_1 key id named recorded =>
    rcases ignored with blank | blank
    · cases named.symm.trans blank
    · cases recorded.symm.trans blank
  case h_2 => rfl

variable {id : Text}

theorem updateLastResponseId_cases
    (named : normalizeSessionKey session = some key) (given : normalizeResponseId responseId = some id) (now : ℚ) (writeVersion : Option ℚ) :
    (store.entries.find key = none ∨ Refused store key now writeVersion) ∧
        (store.updateLastResponseId session responseId now writeVersion).entries = store.entries ∨
      (∃ entry, store.entries.find key = some entry ∧ live entry now = false ∧
        (store.updateLastResponseId session responseId now writeVersion).entries = (store.drop key).entries) ∨
      ∃ entry, store.entries.find key = some entry ∧ live entry now = true ∧ ¬Refused store key now writeVersion ∧
        (store.updateLastResponseId session responseId now writeVersion).entries =
          (makeRoom store.maxEntries store.entries key).put key
            { entry with
              expiresAt := now + store.ttlMs
              lastResponseId := some id
              updatedAt := now
              writeVersion := (normalizeWriteVersion store.writeVersionCounter writeVersion).1 } := by
  unfold normalizeResponseId at given
  unfold updateLastResponseId
  rw [named,given]
  dsimp only
  split
  case h_1 absent => exact Or.inl ⟨Or.inl absent,rfl⟩
  case h_2 entry found =>
    cases kept : live entry now with
    | false => exact Or.inr (Or.inl ⟨entry,found,kept,rfl⟩)
    | true =>
      by_cases older : (normalizeWriteVersion store.writeVersionCounter writeVersion).1 < entry.writeVersion
      · refine Or.inl ⟨Or.inr ⟨entry,found,kept,older⟩,?_⟩
        simp only [Bool.not_true,Bool.false_eq_true,if_false,if_pos older]
        rfl
      · refine Or.inr (Or.inr ⟨entry,found,kept,fun refused => ?_,?_⟩)
        · obtain ⟨other,same,-,less⟩ := refused
          cases found.symm.trans same
          exact older less
        · simp only [Bool.not_true,Bool.false_eq_true,if_false,if_neg older]
          rfl

inductive AffinityCall where
  | rememberWithVersion (session : Option Text) (accountIndex now : ℚ) (writeVersion : Option ℚ)
  | updateLastResponseId (session responseId : Option Text) (now : ℚ) (writeVersion : Option ℚ)
  | getPreferredAccountIndex (session : Option Text) (now : ℚ)
  | getLastResponseId (session : Option Text) (now : ℚ)
  | prune (now : ℚ)
  | forgetSession (session : Option Text)
  | forgetAccount (accountIndex : ℚ)
  | reindexAfterRemoval (removedIndex : ℚ)
  | clearAll

/-- A store at a time. Every session counts the entries it has had, and has the last response id
    that was recorded for it with the number of the entry it was recorded for. -/
structure Sessions where
  store : SessionAffinityStore
  clock : ℚ
  life : SessionKey → ℕ
  recorded : SessionKey → Option (ℕ × Text)

namespace Sessions
variable (s : Sessions)

def kept (key : SessionKey) (now : ℚ) : Bool := (s.store.entries.find key).any (fun entry => live entry now)

/-- Remembering a session that has no entry, or none that is still kept, begins a new one. -/
def begin_ (session : Option Text) (accountIndex now : ℚ) : SessionKey → ℕ :=
  match normalizeSessionKey session with
  | none => s.life
  | some key => if 0 ≤ accountIndex ∧ s.kept key now = false then Function.update s.life key (s.life key + 1) else s.life

/-- An id is recorded for an entry that is still kept and has no later version. -/
def record (session responseId : Option Text) (now : ℚ) (writeVersion : Option ℚ) : SessionKey → Option (ℕ × Text) :=
  match normalizeSessionKey session,normalizeResponseId responseId with
  | some key,some id =>
    if (s.store.entries.find key).any (fun entry =>
        live entry now && !decide ((normalizeWriteVersion s.store.writeVersionCounter writeVersion).1 < entry.writeVersion)) then
      Function.update s.recorded key (some (s.life key,id))
    else s.recorded
  | _,_ => s.recorded

def step : AffinityCall → Sessions
  | .rememberWithVersion session accountIndex now writeVersion =>
    ⟨s.store.rememberWithVersion session accountIndex now writeVersion,now,s.begin_ session accountIndex now,s.recorded⟩
  | .updateLastResponseId session responseId now writeVersion =>
    ⟨s.store.updateLastResponseId session responseId now writeVersion,now,s.life,s.record session responseId now writeVersion⟩
  | .getPreferredAccountIndex session now => { s with store := (s.store.getPreferredAccountIndex session now).2,clock := now }
  | .getLastResponseId session now => { s with store := (s.store.getLastResponseId session now).2,clock := now }
  | .prune now => { s with store := s.store.prune now,clock := now }
  | .forgetSession session => { s with store := s.store.forgetSession session }
  | .forgetAccount accountIndex => { s with store := s.store.forgetAccount accountIndex }
  | .reindexAfterRemoval removedIndex => { s with store := s.store.reindexAfterRemoval removedIndex }
  | .clearAll => { s with store := s.store.clearAll }

end Sessions

def AffinityCall.now : AffinityCall → Option ℚ
  | .rememberWithVersion _ _ now _ => some now
  | .updateLastResponseId _ _ now _ => some now
  | .getPreferredAccountIndex _ now => some now
  | .getLastResponseId _ now => some now
  | .prune now => some now
  | _ => none

/-- The session, time and version of a write. -/
def AffinityCall.write : AffinityCall → Option (Option Text × ℚ × Option ℚ)
  | .rememberWithVersion session _ now writeVersion => some (session,now,writeVersion)
  | .updateLastResponseId session _ now writeVersion => some (session,now,writeVersion)
  | _ => none

/-- The clock does not go back. -/
def Sessions.enabled (s : Sessions) (call : AffinityCall) : Prop := ∀ now ∈ call.now, s.clock ≤ now

instance Sessions.enabled.decidable (s : Sessions) (call : AffinityCall) : Decidable (s.enabled call) :=
  inferInstanceAs (Decidable (∀ now ∈ call.now, s.clock ≤ now))

def Sessions.start (options : SessionAffinityOptions) (now : ℚ) : Sessions := ⟨SessionAffinityStore.new options,now,fun _ => 0,fun _ => none⟩

/-- A response id that a session returns from now on was recorded for its entry. -/
def Current (s : Sessions) : Prop :=
  ∀ (session : Option Text) (key : SessionKey) (later : ℚ) (id : Text), normalizeSessionKey session = some key → s.clock ≤ later →
    (s.store.getLastResponseId session later).1 = some id → s.recorded key = some (s.life key,id)

/-- Every entry that is left once an account is removed stays on its own account, and only those
    of the removed account go. -/
def Reindexed (store : SessionAffinityStore) : Prop :=
  ∀ (removed : ℕ) (key : SessionKey),
    (((store.forgetAccount removed).reindexAfterRemoval removed).entries.find key = none ↔
      ∀ entry, store.entries.find key = some entry → entry.accountIndex = removed) ∧
    ∀ entry, ((store.forgetAccount removed).reindexAfterRemoval removed).entries.find key = some entry →
      ∃ before, store.entries.find key = some before ∧ before.accountIndex ≠ removed ∧
        ∀ {Account : Type} (accounts : List Account) (account : Account),
          Denotes (accounts.eraseIdx removed) entry.accountIndex account ↔ Denotes accounts before.accountIndex account

/-- What a call does to a store stays within its size, evicts what was updated the longest ago
    from a full store, overwrites no later version, and leaves no outdated response id. -/
structure Stays (s : Sessions) (call : AffinityCall) : Prop where
  within : (s.step call).store.entries.length ≤ s.store.maxEntries ∧ (s.step call).store.maxEntries = s.store.maxEntries
  evicts : ∀ session now writeVersion key, call.write = some (session,now,writeVersion) → normalizeSessionKey session = some key →
    ∀ other entry, other ≠ key → s.store.entries.find other = some entry → (s.step call).store.entries.find other = none →
      s.store.maxEntries ≤ s.store.entries.length ∧ s.store.entries.find key = none ∧
        ∀ third stored, s.store.entries.find third = some stored → entry.updatedAt ≤ stored.updatedAt
  versions : ∀ session now writeVersion key, call.write = some (session,now,writeVersion) → normalizeSessionKey session = some key →
    Refused s.store key now writeVersion → (s.step call).store.entries = s.store.entries
  current : Current (s.step call)
  reindexed : Reindexed (s.step call).store

/-- No session is remembered while it has an entry that is no longer kept but has a response id. -/
def Careful (s : Sessions) : AffinityCall → Prop
  | .rememberWithVersion session accountIndex now _ => ∀ key entry, normalizeSessionKey session = some key → 0 ≤ accountIndex →
      s.store.entries.find key = some entry → live entry now = false → entry.lastResponseId = none
  | _ => True

theorem reindexed : Reindexed store := by
  intro removed key
  rw [find_removed]
  cases found : store.entries.find key with
  | none => exact ⟨iff_of_true rfl fun entry same => (nomatch same),fun entry same => nomatch same⟩
  | some before =>
    rw [filter_some]
    by_cases same : before.accountIndex = removed
    · rw [if_neg (by simp [same])]
      refine ⟨iff_of_true rfl fun entry itself => ?_,fun entry gone => nomatch gone⟩
      cases itself
      exact same
    · rw [if_pos (by simp [same])]
      refine ⟨iff_of_false (fun gone => nomatch gone) fun all => same (all before rfl),fun entry moved => ?_⟩
      cases moved
      exact ⟨before,rfl,same,fun accounts account => denotes_moveUp accounts removed same account⟩

theorem normalizeResponseId_some {responseId : Option Text} (given : normalizeResponseId responseId = some id) :
    trim id = id ∧ id ≠ [] := by
  unfold normalizeResponseId at given
  obtain ⟨mapped,some_⟩ := filter_eq_some_iff.mp given
  obtain ⟨raw,-,rfl⟩ := map_eq_some_iff.mp mapped
  exact ⟨trim_trim raw,of_decide_eq_true some_⟩

/-- The size and the time to live of a store do not change. -/
structure SameConfig (store other : SessionAffinityStore) : Prop where
  maxEntries : other.maxEntries = store.maxEntries
  ttlMs : other.ttlMs = store.ttlMs

theorem SameConfig.refl : SameConfig store store := ⟨rfl,rfl⟩

theorem step_config (s : Sessions) (call : AffinityCall) : SameConfig s.store (s.step call).store := by
  cases call with
  | rememberWithVersion session accountIndex now writeVersion =>
    show SameConfig s.store (s.store.rememberWithVersion session accountIndex now writeVersion)
    unfold rememberWithVersion
    split
    · exact SameConfig.refl _
    · split
      · exact SameConfig.refl _
      · dsimp only
        split <;> exact ⟨rfl,rfl⟩
  | updateLastResponseId session responseId now writeVersion =>
    show SameConfig s.store (s.store.updateLastResponseId session responseId now writeVersion)
    unfold updateLastResponseId
    split
    · dsimp only
      split
      · exact ⟨rfl,rfl⟩
      · split
        · exact ⟨rfl,rfl⟩
        · split <;> exact ⟨rfl,rfl⟩
    · exact SameConfig.refl _
  | getPreferredAccountIndex session now =>
    show SameConfig s.store (s.store.getPreferredAccountIndex session now).2
    unfold getPreferredAccountIndex
    split
    · exact SameConfig.refl _
    · split
      · exact SameConfig.refl _
      · split <;> exact ⟨rfl,rfl⟩
  | getLastResponseId session now =>
    show SameConfig s.store (s.store.getLastResponseId session now).2
    unfold getLastResponseId
    split
    · exact SameConfig.refl _
    · split
      · exact SameConfig.refl _
      · split <;> exact ⟨rfl,rfl⟩
  | prune now => exact ⟨rfl,rfl⟩
  | forgetSession session =>
    show SameConfig s.store (s.store.forgetSession session)
    unfold forgetSession
    split <;> exact ⟨rfl,rfl⟩
  | forgetAccount accountIndex =>
    show SameConfig s.store (s.store.forgetAccount accountIndex)
    unfold forgetAccount
    split <;> exact ⟨rfl,rfl⟩
  | reindexAfterRemoval removedIndex =>
    show SameConfig s.store (s.store.reindexAfterRemoval removedIndex)
    unfold reindexAfterRemoval
    split <;> exact ⟨rfl,rfl⟩
  | clearAll => exact ⟨rfl,rfl⟩

theorem write_evicts {maxEntries : ℕ} (distinct : entries.keys.Nodup) {entry written : SessionAffinityEntry}
    (differs : other ≠ key) (found : entries.find other = some entry) (gone : ((makeRoom maxEntries entries key).put key written).find other = none) :
    maxEntries ≤ entries.length ∧ entries.find key = none ∧ ∀ third stored, entries.find third = some stored → entry.updatedAt ≤ stored.updatedAt := by
  rw [find_put,if_neg (Ne.symm differs)] at gone
  exact find_makeRoom_none distinct found gone

variable {call : AffinityCall}

section
variable (s : Sessions) {now : ℚ} (write : call.write = some (session,now,writeVersion)) (named : normalizeSessionKey session = some key)
include write named

/-- What a write can do to the entries. -/
theorem step_write : (s.step call).store.entries = s.store.entries ∨
    (∃ entry, s.store.entries.find key = some entry ∧ live entry now = false ∧ (s.step call).store.entries = (s.store.drop key).entries) ∨
      ¬Refused s.store key now writeVersion ∧
        ∃ written, (s.step call).store.entries = (makeRoom s.store.maxEntries s.store.entries key).put key written := by
  cases call with
  | rememberWithVersion _ accountIndex _ _ =>
    cases write
    rcases lt_or_ge accountIndex 0 with negative | nonneg
    · exact .inl (congrArg SessionAffinityStore.entries (rememberWithVersion_ignored (Or.inr negative)))
    · rcases rememberWithVersion_cases s.store named nonneg now writeVersion with ⟨-,same⟩ | ⟨accepted,same⟩
      · exact .inl same
      · exact .inr (.inr ⟨accepted,_,same⟩)
  | updateLastResponseId _ responseId _ _ =>
    cases write
    cases given : normalizeResponseId responseId with
    | none => exact .inl (congrArg SessionAffinityStore.entries (updateLastResponseId_ignored (Or.inr given)))
    | some id =>
      rcases updateLastResponseId_cases s.store named given now writeVersion with ⟨-,same⟩ | expired | ⟨old,-,-,accepted,same⟩
      · exact .inl same
      · exact .inr (.inl expired)
      · exact .inr (.inr ⟨accepted,_,same⟩)
  | _ => cases write

theorem step_evicts {other : SessionKey} (differs : other ≠ key) (found : s.store.entries.find other = some entry)
    (gone : (s.step call).store.entries.find other = none) :
    s.store.maxEntries ≤ s.store.entries.length ∧ s.store.entries.find key = none ∧
      ∀ third stored, s.store.entries.find third = some stored → entry.updatedAt ≤ stored.updatedAt := by
  rcases step_write s write named with same | ⟨_,-,-,same⟩ | ⟨-,_,same⟩ <;> rw [same] at gone
  · cases found.symm.trans gone
  · have dropped := find_keep s.store (fun entry => !decide (entry.1 = key)) other
    rw [found,filter_some,if_pos (by simp [differs])] at dropped
    cases dropped.symm.trans gone
  · exact write_evicts s.store.distinct differs found gone

theorem step_versions (refused : Refused s.store key now writeVersion) : (s.step call).store.entries = s.store.entries := by
  rcases step_write s write named with same | ⟨old,there,expired,-⟩ | ⟨accepted,-⟩
  · exact same
  · obtain ⟨entry,found,kept,-⟩ := refused
    cases found.symm.trans there
    exact absurd (kept.symm.trans expired) (by decide)
  · exact absurd refused accepted

end

/-! ### Response ids of entries -/

/-- Every response id in the store is trimmed and was recorded for the entry that has it. -/
structure Fresh (s : Sessions) : Prop where
  ttl : 0 < s.store.ttlMs
  trimmed : ∀ key entry id, s.store.entries.find key = some entry → entry.lastResponseId = some id → trim id = id ∧ id ≠ []
  recorded : ∀ key entry id, s.store.entries.find key = some entry → entry.lastResponseId = some id → s.recorded key = some (s.life key,id)

theorem fresh_start (options : SessionAffinityOptions) (now : ℚ) : Fresh (Sessions.start options now) := by
  refine ⟨?_,fun key entry id found => (nomatch found),fun key entry id found => nomatch found⟩
  exact lt_of_lt_of_le (by norm_num) (le_max_left (1000 : ℚ) _)

theorem getLastResponseId_some {store : SessionAffinityStore} {later : ℚ}
    (named : normalizeSessionKey session = some key) (returned : (store.getLastResponseId session later).1 = some id) :
    ∃ entry raw, store.entries.find key = some entry ∧ entry.lastResponseId = some raw ∧ trim raw = id := by
  unfold getLastResponseId at returned
  rw [named] at returned
  dsimp only at returned
  split at returned
  case h_1 => cases returned
  case h_2 entry found =>
    split at returned
    · obtain ⟨mapped,-⟩ := filter_eq_some_iff.mp returned
      obtain ⟨raw,there,same⟩ := map_eq_some_iff.mp mapped
      exact ⟨entry,raw,found,there,same⟩
    · cases returned

theorem getLastResponseId_live {store : SessionAffinityStore} {later : ℚ}
    (named : normalizeSessionKey session = some key) (found : store.entries.find key = some entry)
    (kept : live entry later = true) (there : entry.lastResponseId = some id) (trimmed : trim id = id) (some_ : id ≠ []) :
    (store.getLastResponseId session later).1 = some id := by
  unfold getLastResponseId
  rw [named]
  dsimp only
  rw [found]
  dsimp only
  rw [if_pos kept,there,map_some,trimmed,filter_some,if_pos (decide_eq_true some_)]

variable {s : Sessions}

theorem Fresh.current (fresh : Fresh s) : Current s := by
  intro session key later id named _ returned
  obtain ⟨entry,raw,found,there,rfl⟩ := getLastResponseId_some named returned
  rw [(fresh.trimmed key entry raw found there).1]
  exact fresh.recorded key entry raw found there

theorem Fresh.keep (fresh : Fresh s) {store : SessionAffinityStore} (config : SameConfig s.store store) (now : ℚ)
    (left_ : ∀ key entry, store.entries.find key = some entry →
      ∃ before, s.store.entries.find key = some before ∧ before.lastResponseId = entry.lastResponseId) :
    Fresh ⟨store,now,s.life,s.recorded⟩ := by
  refine ⟨config.ttlMs ▸ fresh.ttl,fun key entry id found there => ?_,fun key entry id found there => ?_⟩
  · obtain ⟨before,had,same⟩ := left_ key entry found
    exact fresh.trimmed key before id had (same.trans there)
  · obtain ⟨before,had,same⟩ := left_ key entry found
    exact fresh.recorded key before id had (same.trans there)

theorem left_of_same {store other : SessionAffinityStore} (same : other.entries = store.entries) (key : SessionKey) (entry : SessionAffinityEntry)
    (found : other.entries.find key = some entry) :
    ∃ before, store.entries.find key = some before ∧ before.lastResponseId = entry.lastResponseId :=
  ⟨entry,same ▸ found,rfl⟩

theorem left_of_keep (test : SessionKey × SessionAffinityEntry → Bool) (key : SessionKey)
    (entry : SessionAffinityEntry) (found : (store.keep test).entries.find key = some entry) :
    ∃ before, store.entries.find key = some before ∧ before.lastResponseId = entry.lastResponseId := by
  rw [find_keep] at found
  exact ⟨entry,(filter_eq_some_iff.mp found).1,rfl⟩

theorem find_written {maxEntries : ℕ} {written entry : SessionAffinityEntry}
    (found : ((makeRoom maxEntries entries key).put key written).find other = some entry) :
    key = other ∧ written = entry ∨ other ≠ key ∧ entries.find other = some entry := by
  rw [find_put] at found
  split at found
  case isTrue same => exact Or.inl ⟨same,Option.some.inj found⟩
  case isFalse differs => exact Or.inr ⟨Ne.symm differs,find_makeRoom found⟩

theorem begin_eq (named : normalizeSessionKey session = some key) {accountIndex : ℚ}
    (nonneg : 0 ≤ accountIndex) (now : ℚ) :
    s.begin_ session accountIndex now = if s.kept key now then s.life else Function.update s.life key (s.life key + 1) := by
  unfold Sessions.begin_
  rw [named]
  dsimp only
  cases s.kept key now with
  | true => exact if_neg fun both => nomatch both.2
  | false => exact if_pos ⟨nonneg,rfl⟩

theorem begin_ignored {accountIndex now : ℚ} (ignored : normalizeSessionKey session = none ∨ accountIndex < 0) :
    s.begin_ session accountIndex now = s.life := by
  unfold Sessions.begin_
  rcases ignored with blank | negative
  · rw [blank]
  · cases normalizeSessionKey session with
    | none => rfl
    | some key => exact if_neg fun both => absurd both.1 (not_le.mpr negative)

theorem Fresh.remember (fresh : Fresh s) {accountIndex now : ℚ}
    (careful : Careful s (.rememberWithVersion session accountIndex now writeVersion)) :
    Fresh (s.step (.rememberWithVersion session accountIndex now writeVersion)) := by
  have config := step_config s (.rememberWithVersion session accountIndex now writeVersion)
  show Fresh ⟨s.store.rememberWithVersion session accountIndex now writeVersion,now,s.begin_ session accountIndex now,s.recorded⟩
  by_cases ignored : normalizeSessionKey session = none ∨ accountIndex < 0
  · rw [rememberWithVersion_ignored ignored,begin_ignored ignored]
    exact fresh.keep (SameConfig.refl _) now (left_of_same rfl)
  · obtain ⟨some_,nonneg⟩ := not_or.mp ignored
    obtain ⟨key,named⟩ := ne_none_iff_exists'.mp some_
    rw [begin_eq named (not_lt.mp nonneg)]
    rcases rememberWithVersion_cases s.store named (not_lt.mp nonneg) now writeVersion with ⟨refused,same⟩ | ⟨-,written⟩
    · have kept : s.kept key now = true := by
        obtain ⟨entry,found,alive,-⟩ := refused
        unfold Sessions.kept
        rw [found]
        exact alive
      rw [if_pos kept]
      exact fresh.keep config now (left_of_same same)
    · -- what the written entry has of an id is that of an entry that is still kept
      have inherited : ∀ id, (s.store.entries.find key).bind (·.lastResponseId) = some id →
          s.kept key now = true ∧ ∃ entry, s.store.entries.find key = some entry ∧ entry.lastResponseId = some id := by
        intro id bound
        obtain ⟨entry,found,there⟩ := bind_eq_some_iff.mp bound
        refine ⟨?_,entry,found,there⟩
        unfold Sessions.kept
        rw [found]
        cases alive : live entry now with
        | true => exact alive
        | false => exact absurd (there.symm.trans (careful key entry named (not_lt.mp nonneg) found alive)) (by simp)
      refine ⟨config.ttlMs ▸ fresh.ttl,fun other entry id found there => ?_,fun other entry id found there => ?_⟩
      · change (s.store.rememberWithVersion session accountIndex now writeVersion).entries.find other = some entry at found
        rw [written] at found
        rcases find_written found with ⟨rfl,rfl⟩ | ⟨-,before⟩
        · obtain ⟨-,old,had,same⟩ := inherited id there
          exact fresh.trimmed key old id had same
        · exact fresh.trimmed other entry id before there
      · change (s.store.rememberWithVersion session accountIndex now writeVersion).entries.find other = some entry at found
        rw [written] at found
        rcases find_written found with ⟨rfl,rfl⟩ | ⟨differs,before⟩
        · obtain ⟨kept,old,had,same⟩ := inherited id there
          rw [if_pos kept]
          exact fresh.recorded key old id had same
        · have life : (if s.kept key now then s.life else Function.update s.life key (s.life key + 1)) other = s.life other := by
            split
            · rfl
            · exact Function.update_of_ne differs _ _
          show s.recorded other = some ((if s.kept key now then s.life else Function.update s.life key (s.life key + 1)) other,id)
          rw [life]
          exact fresh.recorded other entry id before there

theorem record_ignored {now : ℚ}
    (ignored : normalizeSessionKey session = none ∨ normalizeResponseId responseId = none) : s.record session responseId now writeVersion = s.recorded := by
  unfold Sessions.record
  split
  case h_1 key id named given =>
    rcases ignored with blank | blank
    · cases named.symm.trans blank
    · cases given.symm.trans blank
  case h_2 => rfl

theorem record_eq (named : normalizeSessionKey session = some key)
    (given : normalizeResponseId responseId = some id) (now : ℚ) (writeVersion : Option ℚ) :
    s.record session responseId now writeVersion = if (s.store.entries.find key).any (fun entry =>
        live entry now && !decide ((normalizeWriteVersion s.store.writeVersionCounter writeVersion).1 < entry.writeVersion)) then
      Function.update s.recorded key (some (s.life key,id))
    else s.recorded := by
  unfold Sessions.record
  rw [named,given]

theorem Fresh.update (fresh : Fresh s) (session responseId : Option Text) (now : ℚ) (writeVersion : Option ℚ) :
    Fresh (s.step (.updateLastResponseId session responseId now writeVersion)) := by
  have config := step_config s (.updateLastResponseId session responseId now writeVersion)
  show Fresh ⟨s.store.updateLastResponseId session responseId now writeVersion,now,s.life,s.record session responseId now writeVersion⟩
  by_cases ignored : normalizeSessionKey session = none ∨ normalizeResponseId responseId = none
  · rw [updateLastResponseId_ignored ignored,record_ignored ignored]
    exact fresh.keep (SameConfig.refl _) now (left_of_same rfl)
  · obtain ⟨some_,given_⟩ := not_or.mp ignored
    obtain ⟨key,named⟩ := ne_none_iff_exists'.mp some_
    obtain ⟨id,given⟩ := ne_none_iff_exists'.mp given_
    rw [record_eq named given]
    rcases updateLastResponseId_cases s.store named given now writeVersion with ⟨idle,same⟩ | ⟨old,there,expired,same⟩ | ⟨old,there,alive,accepted,written⟩
    · rw [if_neg ?_]
      · exact fresh.keep config now (left_of_same same)
      · rcases idle with absent | ⟨entry,found,alive,older⟩
        · rw [absent]
          exact fun any => nomatch any
        · rw [found]
          simp [older]
    · rw [if_neg (by simp [there,expired])]
      refine fresh.keep config now fun other entry found => ?_
      change (s.store.updateLastResponseId session responseId now writeVersion).entries.find other = some entry at found
      rw [same] at found
      exact left_of_keep s.store _ other entry found
    · have newer : ¬(normalizeWriteVersion s.store.writeVersionCounter writeVersion).1 < old.writeVersion :=
        fun older => accepted ⟨old,there,alive,older⟩
      rw [if_pos (by simpa [there,alive] using newer)]
      refine ⟨config.ttlMs ▸ fresh.ttl,fun other entry known found has => ?_,fun other entry known found has => ?_⟩
      · change (s.store.updateLastResponseId session responseId now writeVersion).entries.find other = some entry at found
        rw [written] at found
        rcases find_written found with ⟨rfl,rfl⟩ | ⟨-,before⟩
        · cases has
          exact normalizeResponseId_some given
        · exact fresh.trimmed other entry known before has
      · change (s.store.updateLastResponseId session responseId now writeVersion).entries.find other = some entry at found
        rw [written] at found
        rcases find_written found with ⟨rfl,rfl⟩ | ⟨differs,before⟩
        · cases has
          exact Function.update_self _ _ _
        · show Function.update s.recorded key _ other = _
          rw [Function.update_of_ne differs]
          exact fresh.recorded other entry known before has

theorem Fresh.step (fresh : Fresh s) (careful : Careful s call) : Fresh (s.step call) := by
  have config := step_config s call
  cases call with
  | rememberWithVersion session accountIndex now writeVersion => exact fresh.remember careful
  | updateLastResponseId session responseId now writeVersion => exact fresh.update session responseId now writeVersion
  | getPreferredAccountIndex session now =>
    refine fresh.keep config now fun key entry found => ?_
    change (s.store.getPreferredAccountIndex session now).2.entries.find key = some entry at found
    unfold getPreferredAccountIndex at found
    split at found
    · exact ⟨entry,found,rfl⟩
    · split at found
      · exact ⟨entry,found,rfl⟩
      · split at found
        · exact ⟨entry,found,rfl⟩
        · exact left_of_keep s.store _ key entry found
  | getLastResponseId session now =>
    refine fresh.keep config now fun key entry found => ?_
    change (s.store.getLastResponseId session now).2.entries.find key = some entry at found
    unfold getLastResponseId at found
    split at found
    · exact ⟨entry,found,rfl⟩
    · split at found
      · exact ⟨entry,found,rfl⟩
      · split at found
        · exact ⟨entry,found,rfl⟩
        · exact left_of_keep s.store _ key entry found
  | prune now => exact fresh.keep config now (left_of_keep s.store _)
  | forgetSession session =>
    refine fresh.keep config s.clock fun key entry found => ?_
    change (s.store.forgetSession session).entries.find key = some entry at found
    unfold forgetSession at found
    split at found
    · exact ⟨entry,found,rfl⟩
    · exact left_of_keep s.store _ key entry found
  | forgetAccount accountIndex =>
    refine fresh.keep config s.clock fun key entry found => ?_
    change (s.store.forgetAccount accountIndex).entries.find key = some entry at found
    unfold forgetAccount at found
    split at found
    · exact ⟨entry,found,rfl⟩
    · exact left_of_keep s.store _ key entry found
  | reindexAfterRemoval removedIndex =>
    refine fresh.keep config s.clock fun key entry found => ?_
    change (s.store.reindexAfterRemoval removedIndex).entries.find key = some entry at found
    unfold reindexAfterRemoval at found
    split at found
    · exact ⟨entry,found,rfl⟩
    · change OrderedMap.find (s.store.entries.map (fun entry => (entry.1,moveUp removedIndex entry.2))) key = some entry at found
      rw [SessionAffinityStore.find_map] at found
      obtain ⟨before,had,rfl⟩ := map_eq_some_iff.mp found
      refine ⟨before,had,?_⟩
      unfold moveUp
      split <;> rfl
  | clearAll => exact fresh.keep config s.clock (left_of_keep s.store _)

theorem Fresh.careful (fresh : Fresh s) (current : Current (s.step call)) : Careful s call := by
  cases call with
  | rememberWithVersion session accountIndex now writeVersion =>
    intro key entry named nonneg found expired
    cases there : entry.lastResponseId with
    | none => rfl
    | some id =>
      obtain ⟨trimmed,some_⟩ := fresh.trimmed key entry id found there
      have before := fresh.recorded key entry id found there
      rcases rememberWithVersion_cases s.store named nonneg now writeVersion with ⟨⟨other,same,alive,-⟩,-⟩ | ⟨-,written⟩
      · cases found.symm.trans same
        exact absurd (alive.symm.trans expired) (by decide)
      · have stored : OrderedMap.find (s.store.rememberWithVersion session accountIndex now writeVersion).entries key = _ :=
          congrArg (fun entries => OrderedMap.find entries key) written
        rw [find_put,if_pos rfl,found,bind_some,there] at stored
        have returned := getLastResponseId_live named stored (decide_eq_true (lt_add_of_pos_right now fresh.ttl)) rfl trimmed some_
        have after := current session key now id named (le_refl _) returned
        have begun : s.kept key now = false := by
          unfold Sessions.kept
          rw [found]
          exact expired
        change s.recorded key = some (s.begin_ session accountIndex now key,id) at after
        rw [begin_eq named nonneg,begun,if_neg (by decide),Function.update_self,before] at after
        have same : s.life key = s.life key + 1 := congrArg Prod.fst (Option.some.inj after)
        omega
  | _ => trivial

/-- In any run the calls keep to what is expected of them just when no session is remembered
    while its entry is over but still there with a response id. -/
theorem affinity_stays_iff (options : SessionAffinityOptions) (began : ℚ) (calls : List AffinityCall)
    (legal : Runs.Legal Sessions.step Sessions.enabled (Sessions.start options began) calls) :
    Runs.Legal Sessions.step Stays (Sessions.start options began) calls ↔ Runs.Legal Sessions.step Careful (Sessions.start options began) calls := by
  refine Runs.legal_iff_legal (fun s call _ (fresh : Fresh s) careful => fresh.step careful) (fun s call _ fresh careful => ?_)
    (fun s call _ fresh stays => fresh.careful stays.current) (fresh_start options began) legal
  have config := step_config s call
  refine ⟨⟨config.maxEntries ▸ (s.step call).store.within,config.maxEntries⟩,?_,?_,(fresh.step careful).current,reindexed _⟩
  · exact fun session now writeVersion key write named other entry differs found gone => step_evicts s write named differs found gone
  · exact fun session now writeVersion key write named refused => step_versions s write named refused

/-- A session is remembered, has a response, is over after a second, and is remembered again. -/
def revived : List AffinityCall :=
  [.rememberWithVersion (some [97]) 1 0 none,.updateLastResponseId (some [97]) (some [114]) 500 none,.rememberWithVersion (some [97]) 1 2000 none]

/-- The response id of the entry that was over is returned again. -/
theorem revived_returns :
    Runs.Legal Sessions.step Sessions.enabled (Sessions.start { ttlMs := some 1000 } 0) revived ∧
      ((revived.foldl Sessions.step (Sessions.start { ttlMs := some 1000 } 0)).store.getLastResponseId (some [97]) 2000).1 = some [114] ∧
      ¬Runs.Legal Sessions.step Stays (Sessions.start { ttlMs := some 1000 } 0) revived := by
  have legal : Runs.Legal Sessions.step Sessions.enabled (Sessions.start { ttlMs := some 1000 } 0) revived := by decide +kernel
  have returned :
      ((revived.foldl Sessions.step (Sessions.start { ttlMs := some 1000 } 0)).store.getLastResponseId (some [97]) 2000).1 = some [114] := by
    decide +kernel
  refine ⟨legal,returned,fun stays => ?_⟩
  have named : normalizeSessionKey (some [97]) = some ⟨[97],by decide⟩ := by decide +kernel
  have current : Current (revived.foldl Sessions.step (Sessions.start { ttlMs := some 1000 } 0)) := stays.2.2.1.current
  have recorded := current (some [97]) ⟨[97],by decide⟩ 2000 [114] named (le_refl _) returned
  revert recorded
  decide +kernel

/-- A run in which the session is looked up, so that its entry is dropped, before it is remembered again. -/
def reaped : List AffinityCall :=
  [.rememberWithVersion (some [97]) 1 0 none,.updateLastResponseId (some [97]) (some [114]) 500 none,.getLastResponseId (some [97]) 2000]

theorem reaped_iff : Runs.Legal Sessions.step Stays (Sessions.start { ttlMs := some 1000 } 0) reaped ↔
    Runs.Legal Sessions.step Careful (Sessions.start { ttlMs := some 1000 } 0) reaped :=
  affinity_stays_iff { ttlMs := some 1000 } 0 reaped (by decide +kernel)

end CodexMultiAuth.SessionAffinity
