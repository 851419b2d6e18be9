import CodexMultiAuth.StoredCredentials

/-!
Rate limits that one process saved and others merge. A stored deadline gives way
only to a process that has it in its baseline and not in its pool, as long as
each lookup finds the account's own row.
-/
namespace CodexMultiAuth

open List

def deadline (row : AccountMetadataV3) (key : String) : ℚ := numberOrZero (limit row key)

theorem limit_of_find {row after : AccountMetadataV3} (same : after.find "rateLimitResetTimes" = row.find "rateLimitResetTimes") (key : String) :
    limit after key = limit row key := by
  simp only [limit,AccountMetadataV3.rateLimitResetTimes,Record.record,same]

section
variable {base disk loc : Option Json}

theorem mergeRateLimit_observed (fresh : loc ≠ base) (counts : 0 < numberOrZero loc) :
    numberOrZero loc ≤ numberOrZero (mergeRateLimit base disk loc) := by
  by_cases onDisk : disk = base
  · rw [(mergeRateLimit_threeWay base disk loc).diskKept onDisk]
  · have present : loc ≠ none := by
      rintro rfl
      exact absurd counts (lt_irrefl _)
    rw [mergeRateLimit_later onDisk fresh (.inr present)]
    exact le_max_right _ _

theorem mergeRateLimit_kept {d : ℚ} (counts : 0 < d) (stored : d ≤ numberOrZero disk)
    (held : ¬ (d ≤ numberOrZero base ∧ numberOrZero loc < d)) : d ≤ numberOrZero (mergeRateLimit base disk loc) := by
  by_cases onDisk : disk = base
  · rw [(mergeRateLimit_threeWay base disk loc).diskKept onDisk]
    by_contra lower
    exact held ⟨onDisk ▸ stored,not_le.mp lower⟩
  · by_cases onLocal : loc = base
    · rw [(mergeRateLimit_threeWay base disk loc).locKept onLocal]
      exact stored
    · have present : disk ≠ none := by
        rintro rfl
        exact absurd counts (not_lt.mpr stored)
      rw [mergeRateLimit_later onDisk onLocal (.inl present)]
      exact le_trans stored (le_max_left _ _)

theorem mergeRateLimit_unseen (unseen : base = none) (stored : disk ≠ none) :
    mergeRateLimit base disk loc ≠ none ∧ numberOrZero disk ≤ numberOrZero (mergeRateLimit base disk loc) := by
  subst unseen
  by_cases onLocal : loc = none
  · rw [(mergeRateLimit_threeWay none disk loc).locKept onLocal]
    exact ⟨stored,le_refl _⟩
  · rw [mergeRateLimit_later stored onLocal (.inl stored)]
    exact ⟨by simp,le_max_left _ _⟩
end

/-! ### The rows that a save merges -/

section
variable [Host]

/-- A row of the file whose limits are merged with those of the account's rows in a baseline and a pool. -/
def LimitsMerged (base live : List AccountMetadataV3) (disk merged : AccountMetadataV3) : Prop :=
  ∃ b ∈ base, ∃ l ∈ live, resolveAccountRecordId b = resolveAccountRecordId disk ∧ resolveAccountRecordId l = resolveAccountRecordId disk ∧
    ∀ key, limit merged key = mergeRateLimit (limit b key) (limit disk key) (limit l key)

theorem limit_reconciled (current : AccountStorageV3) (account : AccountMetadataV3) (key : String) :
    limit (reconciled current account) key = limit account key :=
  limit_of_find (reconciled_sameBut current account "rateLimitResetTimes" (by simp [reconciledKeys])) key

/-- The fallback of a conflict finds each account's own rows. -/
def FallbackOwn (base current loc : AccountStorageV3) : Prop :=
  Identified base current (observedBase base loc) ∧
    ∀ prior ∈ base.accounts, (loc.accounts.find? (observationMatches prior)).map resolveAccountRecordId = some (resolveAccountRecordId prior)

theorem observed_limit {loc : AccountStorageV3} {prior next : AccountMetadataV3} (found : loc.accounts.find? (observationMatches prior) = some next)
    (key : String) : limit (observed loc prior) key = limit next key := by
  rw [observed,found]
  exact observeAccount_limit prior next key

theorem fallback_limits {base current loc result : AccountStorageV3} (done : mergeDocuments base current (observedBase base loc) = .ok result)
    (inBase : base.accounts.map resolveAccountRecordId = current.accounts.map resolveAccountRecordId) (own : FallbackOwn base current loc) :
    List.Forall₂ (LimitsMerged base.accounts loc.accounts) current.accounts result.accounts := by
  obtain ⟨identified,matched⟩ := own
  have rows := observations_rows (mergeDocuments_merged done)
  refine forall₂_iff_get.mpr ⟨rows.length_eq,?_⟩
  intro i inside inside'
  have row := (forall₂_iff_get.mp rows).2 i inside inside'
  have onDisk := get_mem current.accounts ⟨i,inside⟩
  generalize current.accounts.get ⟨i,inside⟩ = disk at row onDisk ⊢
  have alike : ∀ other ∈ base.accounts, rowIdentity (base.accounts ++ current.accounts) other =
      rowIdentity (base.accounts ++ current.accounts) disk ↔ resolveAccountRecordId other = resolveAccountRecordId disk := by
    intro other member
    rw [← mergeIdentity_observed base current loc]
    exact identified other (by simp [member]) disk (by simp [onDisk])
  obtain ⟨b,in_base,found,base_id⟩ := rowOf_alike alike (mem_ids inBase onDisk)
  rcases observations_account row with ⟨-,missing⟩ | ⟨prior,known,merge⟩
  · rw [missing] at found
    cases found
  · rw [known,Option.some.injEq] at found
    subst found
    obtain ⟨next,hit,same⟩ := Option.map_eq_some_iff.mp (matched prior in_base)
    refine ⟨prior,in_base,next,mem_of_find?_eq_some hit,base_id,same.trans base_id,fun key => ?_⟩
    rw [merge.rateLimit,observed_limit hit]

variable {m after : Manager} {runtimeOnConflict : Bool}

theorem saved_limits {base synced current result : AccountStorageV3}
    (known : m.persistenceBaseline = some base) (fits : Fits current.accounts base.accounts synced.accounts)
    (identified : Identified base current (reconcileTokensFromDisk synced (some current)))
    (fallback : runtimeOnConflict = true → ∀ e, mergeDocuments base current (reconcileTokensFromDisk synced (some current)) = .error e →
      FallbackOwn base current (reconcileTokensFromDisk synced (some current)))
    (done : saveToDisk m synced (some current) runtimeOnConflict = .ok (result,after)) :
    List.Forall₂ (LimitsMerged base.accounts synced.accounts) current.accounts result.accounts := by
  have pool : ∀ disk merged, LimitsMerged base.accounts (reconcileTokensFromDisk synced (some current)).accounts disk merged →
      LimitsMerged base.accounts synced.accounts disk merged := by
    rintro disk merged ⟨b,in_base,l,proposed,base_id,local_id,limits⟩
    obtain ⟨live,member,rfl⟩ := mem_map.mp proposed
    refine ⟨b,in_base,live,member,base_id,(reconciled_named current (fits.named live member)).1.symm.trans local_id,fun key => ?_⟩
    rw [limits key]
    exact congrArg (mergeRateLimit _ _) (limit_reconciled current live key)
  cases saveToDisk_ok known done with
  | merged merge =>
    refine (merged_rows merge identified fits.baseIds fits.reconciled_ids).imp (fun disk merged row => pool disk merged ?_)
    obtain ⟨b,in_base,l,in_local,base_id,local_id,account⟩ := row
    exact ⟨b,in_base,l,in_local,base_id,local_id,account.rateLimit⟩
  | observed merge conflict_fallback conflicts =>
    exact (fallback_limits merge fits.baseIds (fallback conflict_fallback _ conflicts)).imp pool
  | rescued here => cases here

theorem committed_limits {base synced current result : AccountStorageV3} {account : String} {source : AccountLike}
    {auth : OAuthAuthDetails} {now : ℚ} (known : m.persistenceBaseline = some base)
    (fits : Fits current.accounts base.accounts synced.accounts) (distinct : (current.accounts.map resolveAccountRecordId).Nodup)
    (identified : ∀ next stored live, refreshSnapshot now synced (some current) source auth = some (next,stored,live) →
      Identified base current next)
    (commits : CommitsOwn synced current account source auth)
    (done : commitRefreshedAuth now m synced (some current) source auth = .ok (some (result,after))) :
    List.Forall₂ (fun disk merged => (∀ key, limit merged key = limit disk key) ∨ LimitsMerged base.accounts synced.accounts disk merged)
      current.accounts result.accounts := by
  have inPool : (synced.accounts.map resolveAccountRecordId).Nodup := fits.liveIds ▸ distinct
  obtain ⟨next,stored,live,refreshes,persists⟩ := commitRefreshedAuth_ok known done
  obtain ⟨row,refreshLive,commit⟩ := refreshSnapshot_rows inPool fits.named commits refreshes
  cases persists with
  | merged merge =>
    have ids := (commit.proposal_ids inPool fits.named).trans fits.liveIds
    refine (merged_rows merge (identified next stored live refreshes) fits.baseIds ids).imp (fun disk merged pair => .inr ?_)
    obtain ⟨b,in_base,p,proposed,base_id,proposed_id,account⟩ := pair
    obtain ⟨before,member,same,rfl⟩ := commit.proposed_row inPool fits.named proposed
    refine ⟨b,in_base,before,member,base_id,same.symm.trans proposed_id,fun key => ?_⟩
    rw [account.rateLimit]
    refine congrArg (mergeRateLimit _ _) ?_
    split
    · next own =>
      rw [commit.only inPool member own]
      exact limit_of_find commit.limits key
    · exact limit_reconciled current before key
  | observed _ fallback _ => cases fallback
  | rescued here rescue =>
    obtain rfl := Option.some.inj here
    obtain ⟨stored_id,named_stored⟩ := commit.named_stored (fits.named row commit.member)
    obtain ⟨cooldown,onDisk,-⟩ := rescueAuth_rows named_stored stored_id (fits.baseIds ▸ distinct) distinct rescue
    rw [onDisk]
    refine forall₂_map_right_iff.mpr (forall₂_same.mpr (fun disk _ => .inl (fun key => limit_of_find ?_ key)))
    split
    · rw [withCooldown_sameBut _ cooldown "rateLimitResetTimes" (by simp [cooldownKeys]),find_withAuthFields]
      simp [authFields]
    · rfl

/-! ### Steps and runs -/

def Action.writer : Action → Option (Nat × AccountStorageV3)
  | .save process synced _ => some (process,synced)
  | .commit process synced _ _ _ _ => some (process,synced)
  | _ => none

/-- The account's rows in the baseline and in the pool of the process that writes. -/
def WriterRows (s : System) (action : Action) (account : String) (b l : AccountMetadataV3) : Prop :=
  ∃ process synced m base, action.writer = some (process,synced) ∧ s.managers[process]? = some m ∧ m.persistenceBaseline = some base ∧
    b ∈ base.accounts ∧ l ∈ synced.accounts ∧ resolveAccountRecordId b = account ∧ resolveAccountRecordId l = account

/-- The fallback of a conflicting save finds each account's own rows. -/
def FallsOwn (s : System) : Action → Prop
  | .save process synced true =>
    ∀ m base e, s.managers[process]? = some m → m.persistenceBaseline = some base →
      mergeDocuments base s.disk (reconcileTokensFromDisk synced (some s.disk)) = .error e →
        FallbackOwn base s.disk (reconcileTokensFromDisk synced (some s.disk))
  | _ => True

/-- An action whose lookups find each account's own rows. -/
def FindsRows (s : System) (action : Action) : Prop := Enabled s action ∧ FindsOwn s action ∧ FallsOwn s action

def Saves (s : System) (action : Action) (account key : String) (d : ℚ) : Prop :=
  (∃ process synced runtimeOnConflict m written, action = .save process synced runtimeOnConflict ∧ s.managers[process]? = some m ∧
      saveToDisk m synced (some s.disk) runtimeOnConflict = .ok written) ∧
    ∃ b l, WriterRows s action account b l ∧ limit l key ≠ limit b key ∧ deadline l key = d

/-- A write by a process whose own baseline has the key at the deadline or later and whose pool does not. -/
def Lowers (s : System) (action : Action) (account key : String) (d : ℚ) : Prop :=
  ∃ b l, WriterRows s action account b l ∧ d ≤ deadline b key ∧ deadline l key < d

/-- The file has the account, limited for the key until the deadline at least. -/
def Stored (s : System) (account key : String) (d : ℚ) : Prop :=
  ∃ row ∈ s.disk.accounts, resolveAccountRecordId row = account ∧ d ≤ deadline row key

variable {ids : List String} {s : System} {action : Action} {account key : String} {d : ℚ}

theorem saves_write {process : Nat} {synced : AccountStorageV3} {disk : AccountStorageV3}
    (here : s.managers[process]? = some m) (done : saveToDisk m synced (some s.disk) runtimeOnConflict = .ok (disk,after)) :
    (s.step (.save process synced runtimeOnConflict)).disk = disk := by
  simp only [System.step,here,done]

theorem save_others (s : System) {process other : Nat} (synced : AccountStorageV3) (runtimeOnConflict : Bool) (apart : process ≠ other) :
    (s.step (.save process synced runtimeOnConflict)).managers[other]? = s.managers[other]? := by
  cases here : s.managers[process]? with
  | none => simp only [System.step,here]
  | some m =>
    cases done : saveToDisk m synced (some s.disk) runtimeOnConflict with
    | error e => simp only [System.step,here,done,List.getElem?_set_ne apart]
    | ok written => simp only [System.step,here,done,List.getElem?_set_ne apart]

theorem Keeps.save_limits (keeps : Keeps ids s) {process : Nat} {synced : AccountStorageV3} {m : Manager}
    {written : AccountStorageV3 × Manager} (finds : FindsRows s (.save process synced runtimeOnConflict)) (here : s.managers[process]? = some m)
    (done : saveToDisk m synced (some s.disk) runtimeOnConflict = .ok written) :
    ∃ base, m.persistenceBaseline = some base ∧ Fits s.disk.accounts base.accounts synced.accounts ∧
      List.Forall₂ (LimitsMerged base.accounts synced.accounts) s.disk.accounts
        (s.step (.save process synced runtimeOnConflict)).disk.accounts := by
  obtain ⟨⟨other,there,touched⟩,own,fallback⟩ := finds
  obtain rfl : m = other := Option.some.inj (here.symm.trans there)
  obtain ⟨base,known,fits⟩ := keeps.managers m (mem_of_getElem? here)
  refine ⟨base,known,fits.touch touched,?_⟩
  rw [saves_write here done]
  refine saved_limits known (fits.touch touched) (own m base here known).1 ?_ done
  rintro rfl e conflicts
  exact fallback m base e here known conflicts

/-- What an action makes of the limits of a row. -/
def RowLimits (s : System) (action : Action) (disk merged : AccountMetadataV3) : Prop :=
  (∀ key, limit merged key = limit disk key) ∨
    ∃ b l, WriterRows s action (resolveAccountRecordId disk) b l ∧
      ∀ key, limit merged key = mergeRateLimit (limit b key) (limit disk key) (limit l key)

section
variable (keeps : Keeps ids s)
include keeps

section
variable (distinct : ids.Nodup)
include distinct

section
variable (finds : FindsRows s action)
include finds

theorem Keeps.step_limits :
    List.Forall₂ (RowLimits s action) s.disk.accounts (s.step action).disk.accounts := by
  have unchanged : List.Forall₂ (RowLimits s action) s.disk.accounts s.disk.accounts :=
    forall₂_same.mpr (fun _ _ => .inl (fun _ => rfl))
  have inDisk : (s.disk.accounts.map resolveAccountRecordId).Nodup := keeps.ids ▸ distinct
  cases action with
  | load synced => exact unchanged
  | touch process synced => exact unchanged
  | save process synced runtimeOnConflict =>
    obtain ⟨m,here,touched⟩ := finds.1
    cases done : saveToDisk m synced (some s.disk) runtimeOnConflict with
    | error e =>
      simp only [System.step,here,done]
      exact unchanged
    | ok written =>
      obtain ⟨base,known,-,rows⟩ := keeps.save_limits finds here done
      refine rows.imp (fun disk merged row => .inr ?_)
      obtain ⟨b,in_base,l,in_pool,base_id,live_id,limits⟩ := row
      exact ⟨b,l,⟨process,synced,m,base,rfl,here,known,in_base,in_pool,base_id,live_id⟩,limits⟩
  | commit process synced account source auth now =>
    obtain ⟨⟨m,here,touched,-⟩,own,-⟩ := finds
    obtain ⟨base,known,fits⟩ := keeps.managers m (mem_of_getElem? here)
    obtain ⟨identified,-,commits⟩ := own m base here known
    simp only [System.step,here]
    split
    · exact unchanged
    · exact unchanged
    · next disk after done =>
      refine (committed_limits known (fits.touch touched) inDisk identified commits done).imp (fun row merged limits => ?_)
      rcases limits with same | ⟨b,in_base,l,in_pool,base_id,live_id,limits⟩
      · exact .inl same
      · exact .inr ⟨b,l,⟨process,synced,m,base,rfl,here,known,in_base,in_pool,base_id,live_id⟩,limits⟩

theorem Keeps.step_row
    {R : AccountMetadataV3 → AccountMetadataV3 → Prop} (rows : List.Forall₂ R s.disk.accounts (s.step action).disk.accounts)
    {row : AccountMetadataV3} (member : row ∈ s.disk.accounts) :
    ∃ merged ∈ (s.step action).disk.accounts, resolveAccountRecordId merged = resolveAccountRecordId row ∧ R row merged := by
  have same := (keeps.step distinct action finds.1 finds.2.1).ids.trans keeps.ids.symm
  obtain ⟨i,inside,rfl⟩ := getElem_of_mem member
  have inside' : i < (s.step action).disk.accounts.length := rows.length_eq ▸ inside
  refine ⟨_,getElem_mem inside',?_,(forall₂_iff_get.mp rows).2 i inside inside'⟩
  have at_i := congrArg (fun list : List String => list[i]?) same
  simpa [inside,inside'] using at_i

theorem Keeps.step_stored (counts : 0 < d)
    (held : ¬ Lowers s action account key d) (stored : Stored s account key d) : Stored (s.step action) account key d := by
  obtain ⟨row,member,own,until_d⟩ := stored
  obtain ⟨merged,there,same,limits⟩ := keeps.step_row distinct finds (keeps.step_limits distinct finds) member
  refine ⟨merged,there,same.trans own,?_⟩
  rcases limits with kept | ⟨b,l,writer,limits⟩
  · rw [deadline,kept key]
    exact until_d
  · rw [deadline,limits key]
    refine mergeRateLimit_kept counts until_d (fun lowered => held ⟨b,l,?_,lowered⟩)
    rw [← own]
    exact writer

theorem Keeps.save_stored (counts : 0 < d)
    (saves : Saves s action account key d) : Stored (s.step action) account key d := by
  obtain ⟨⟨process,synced,runtimeOnConflict,m,written,rfl,here,done⟩,b,l,writer,fresh,until_d⟩ := saves
  obtain ⟨base,known,fits,rows⟩ := keeps.save_limits finds here done
  obtain ⟨process',synced',m',base',same,there,known',in_base,in_pool,base_id,live_id⟩ := writer
  obtain ⟨rfl,rfl⟩ := Prod.mk.inj (Option.some.inj same)
  obtain rfl : m = m' := Option.some.inj (here.symm.trans there)
  obtain rfl : base = base' := Option.some.inj (known.symm.trans known')
  have inDisk : (s.disk.accounts.map resolveAccountRecordId).Nodup := keeps.ids ▸ distinct
  obtain ⟨row,member,own⟩ := mem_ids fits.baseIds.symm in_base
  obtain ⟨merged,stored,same,b',in_base',l',in_pool',base_id',live_id',limits⟩ := keeps.step_row distinct finds rows member
  obtain rfl : b' = b := inj_on_of_nodup_map (fits.baseIds ▸ inDisk) in_base' in_base (base_id'.trans own)
  obtain rfl : l' = l :=
    inj_on_of_nodup_map (fits.liveIds ▸ inDisk) in_pool' in_pool ((live_id'.trans own).trans (base_id.trans live_id.symm))
  refine ⟨merged,stored,(same.trans own).trans base_id,?_⟩
  rw [deadline] at until_d
  rw [deadline,limits key]
  refine le_trans (le_of_eq until_d.symm) (mergeRateLimit_observed fresh ?_)
  rw [until_d]
  exact counts

theorem Keeps.step_unseen {row : AccountMetadataV3}
    (member : row ∈ s.disk.accounts) (unseen : ∀ b l, WriterRows s action (resolveAccountRecordId row) b l → limit b key = none)
    (stored : limit row key ≠ none) :
    ∃ merged ∈ (s.step action).disk.accounts, resolveAccountRecordId merged = resolveAccountRecordId row ∧ limit merged key ≠ none ∧
      deadline row key ≤ deadline merged key := by
  obtain ⟨merged,there,same,limits⟩ := keeps.step_row distinct finds (keeps.step_limits distinct finds) member
  refine ⟨merged,there,same,?_⟩
  rcases limits with kept | ⟨b,l,writer,limits⟩
  · rw [deadline,deadline,kept key]
    exact ⟨stored,le_refl _⟩
  · rw [deadline,deadline,limits key]
    exact mergeRateLimit_unseen (unseen b l writer) stored

end

end

end

/-- From any state that a run reaches whose lookups find each account's own rows:
    a deadline that a process is the first to save is stored, a stored deadline
    stays until a process that has it in its baseline clears or lowers it, and a
    process that never saw the key neither removes nor lowers it. -/
theorem deadlines_kept (disk : AccountStorageV3) (distinct : (disk.accounts.map resolveAccountRecordId).Nodup) {s : System}
    (run : Runs.Run System.step FindsRows (start disk) s) (account key : String) :
    (∀ d, 0 < d → ∀ action, FindsRows s action → Saves s action account key d → Stored (s.step action) account key d) ∧
    (∀ d, 0 < d → Stored s account key d → ∀ t,
      Runs.Run System.step (fun s action => FindsRows s action ∧ ¬ Lowers s action account key d) s t → Stored t account key d) ∧
    ∀ action, FindsRows s action → ∀ row ∈ s.disk.accounts, resolveAccountRecordId row = account →
      (∀ b l, WriterRows s action account b l → limit b key = none) → limit row key ≠ none →
        ∃ merged ∈ (s.step action).disk.accounts, resolveAccountRecordId merged = account ∧ limit merged key ≠ none ∧
          deadline row key ≤ deadline merged key := by
  have keeps : Keeps (disk.accounts.map resolveAccountRecordId) s :=
    run.invariant (fun _ action finds keeps => keeps.step distinct action finds.1 finds.2.1) (keeps_start disk distinct)
  refine ⟨fun d counts action finds saves => keeps.save_stored distinct finds counts saves,?_,?_⟩
  · intro d counts stored t onward
    have both := Runs.Run.invariant (P := fun u => Keeps (disk.accounts.map resolveAccountRecordId) u ∧ Stored u account key d)
      (fun u action may held => ⟨held.1.step distinct action may.1.1 may.1.2.1,held.1.step_stored distinct may.1 counts may.2 held.2⟩)
      onward ⟨keeps,stored⟩
    exact both.2
  · rintro action finds row member rfl unseen stored
    exact keeps.step_unseen distinct finds member unseen stored

end
section
attribute [local instance] asciiHost

private def limitedUntil (resetAt : ℚ) (row : AccountMetadataV3) : AccountMetadataV3 :=
  row.put "rateLimitResetTimes" (.obj [("codex",.num resetAt)])

private def nameless : AccountMetadataV3 := [("accountId",.str "a"),("refreshToken",.str "tx"),("lastUsed",.num 0)]

/-- A legacy row without a record id, behind one with the same account id. -/
private def legacyPair : AccountStorageV3 where
  accounts := [[("recordId",.str "z"),("accountId",.str "a"),("refreshToken",.str "tz"),("lastUsed",.num 0)],nameless]
  activeIndex := 0

/-- The pool of a process that saw a limit of the legacy row. -/
private def observing (resetAt : ℚ) : AccountStorageV3 :=
  { (loadManager legacyPair).live with accounts := (loadManager legacyPair).live.accounts.modify 1 (limitedUntil resetAt) }

private def loadedTwice : System :=
  [.load (loadManager legacyPair).live,.load (loadManager legacyPair).live,.save 1 (observing 500) true].foldl System.step (start legacyPair)

private theorem limitedUntil_settled (resetAt : ℚ) (k : String) (member : k ∈ settledKeys) (row : AccountMetadataV3) :
    (limitedUntil resetAt row).find k = row.find k := by
  simp only [settledKeys,mem_cons,not_mem_nil,or_false] at member
  rcases member with rfl | rfl | rfl | rfl | rfl | rfl | rfl <;> simp [limitedUntil]

private theorem observing_touched (resetAt : ℚ) : Touched (loadManager legacyPair).live (observing resetAt) :=
  .cons (fun _ _ => rfl) (.cons (fun k member => limitedUntil_settled resetAt k member _) .nil)

/-- A save that conflicts falls back, succeeds and loses the later deadline that it saw. -/
theorem fallback_loses_deadline : Runs.Run System.step Enabled (start legacyPair) loadedTwice ∧
    Enabled loadedTwice (.save 0 (observing 900) true) ∧
    Saves loadedTwice (.save 0 (observing 900) true) (resolveAccountRecordId nameless) "codex" 900 ∧
    ¬ Stored (loadedTwice.step (.save 0 (observing 900) true)) (resolveAccountRecordId nameless) "codex" 900 := by
  have first : loadedTwice.managers[0]? = some (loadManager legacyPair) :=
    save_others (([.load (loadManager legacyPair).live,.load (loadManager legacyPair).live] : List Action).foldl System.step (start legacyPair))
      (observing 500) true Nat.one_ne_zero
  have gone : ((loadedTwice.step (.save 0 (observing 900) true)).disk.accounts.all (fun row =>
      decide (resolveAccountRecordId row = resolveAccountRecordId nameless → deadline row "codex" < 900))) = true := by
    decide
  have succeeds : (saveToDisk (loadManager legacyPair) (observing 900) (some loadedTwice.disk) true).isOk = true := by decide
  refine ⟨?_,⟨_,first,observing_touched 900⟩,?_,?_⟩
  · exact Runs.Run.ofList (Runs.Run.nil _) _ ⟨Touched.refl _,Touched.refl _,⟨loadManager legacyPair,rfl,observing_touched 500⟩,trivial⟩
  · cases done : saveToDisk (loadManager legacyPair) (observing 900) (some loadedTwice.disk) true with
    | error e =>
      rw [done] at succeeds
      cases succeeds
    | ok written =>
      refine ⟨⟨0,observing 900,true,_,written,rfl,first,done⟩,nameless,limitedUntil 900 (loadAccount nameless),?_,?_,?_⟩
      · exact ⟨0,observing 900,_,legacyPair,rfl,first,rfl,by simp [legacyPair],.tail _ (.head _),rfl,by decide⟩
      · decide
      · decide
  · rintro ⟨row,member,own,until_d⟩
    have lower := of_decide_eq_true (all_eq_true.mp gone row member) own
    exact absurd until_d (not_le.mpr lower)

/-- One row, loaded by a process that then sees a limit. -/
private def lone : AccountStorageV3 where
  accounts := [[("recordId",.str "x"),("accountId",.str "a"),("refreshToken",.str "t"),("lastUsed",.num 0)]]
  activeIndex := 0

private def loneObserving : AccountStorageV3 :=
  { (loadManager lone).live with accounts := (loadManager lone).live.accounts.map (limitedUntil 500) }

private def loneLoaded : System := (start lone).step (.load (loadManager lone).live)

theorem deadlines_kept_first : Stored (loneLoaded.step (.save 0 loneObserving false)) "x" "codex" 500 := by
  have run : Runs.Run System.step FindsRows (start lone) loneLoaded := by
    refine Runs.Run.snoc (Runs.Run.nil _) ⟨Touched.refl _,?_,trivial⟩
    intro row member
    rw [mem_singleton.mp member]
    exact ⟨by decide,by decide,by decide⟩
  have touched : Touched (loadManager lone).live loneObserving :=
    .cons (fun k member => limitedUntil_settled 500 k member _) .nil
  have finds : FindsRows loneLoaded (.save 0 loneObserving false) := by
    refine ⟨⟨loadManager lone,rfl,touched⟩,?_,trivial⟩
    intro m base here known
    obtain rfl := Option.some.inj here
    obtain rfl := Option.some.inj known
    refine ⟨?_,?_⟩
    · have pairs : Identified lone lone (reconcileTokensFromDisk loneObserving (some lone)) := by decide
      exact pairs
    · intro row member disk found
      obtain ⟨key,-,there⟩ := Option.bind_eq_some_iff.mp found
      rw [mem_singleton.mp member,mem_singleton.mp (diskByIdentity_sound there).1]
      decide
  have succeeds : (saveToDisk (loadManager lone) loneObserving (some lone) false).isOk = true := by decide
  refine (deadlines_kept lone (by decide) run "x" "codex").1 500 (by decide) _ finds ?_
  cases done : saveToDisk (loadManager lone) loneObserving (some lone) false with
  | error e =>
    rw [done] at succeeds
    cases succeeds
  | ok written =>
    refine ⟨⟨0,loneObserving,false,_,written,rfl,rfl,done⟩,_,_,⟨0,loneObserving,_,lone,rfl,rfl,rfl,.head _,.head _,?_,?_⟩,?_,?_⟩ <;>
      decide

end
end CodexMultiAuth
