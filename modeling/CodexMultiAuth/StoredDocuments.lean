import CodexMultiAuth.StoredRows

/-!
The documents of a manager and the file. The baseline and the pool of every
manager have the file's accounts, and a load and a save leave them so: a save
that finds each account's own row keeps every credential of the file.
-/
namespace CodexMultiAuth
open List AccountMetadataV3
set_option linter.unusedSectionVars false

section
variable [Host]

/-- A manager's baseline and pool have the disk's accounts, each held as it should be. -/
structure Fits (disk base live : List AccountMetadataV3) : Prop where
  baseIds : base.map resolveAccountRecordId = disk.map resolveAccountRecordId
  liveIds : live.map resolveAccountRecordId = disk.map resolveAccountRecordId
  named : ∀ row ∈ live, Named row
  held : ∀ d ∈ disk, ∀ b ∈ base, ∀ l ∈ live, resolveAccountRecordId b = resolveAccountRecordId d →
    resolveAccountRecordId l = resolveAccountRecordId d → Held d b l

theorem Fits.advance {disk after base live : List AccountMetadataV3} (fits : Fits disk base live) (advanced : List.Forall₂ Advanced disk after) :
    Fits after base live := by
  have ids := forall₂_map_eq (advanced.imp (fun _ _ row => row.resolves))
  refine ⟨fits.baseIds.trans ids.symm,fits.liveIds.trans ids.symm,fits.named,?_⟩
  intro d' onDisk b inBase l inLive same_base same_live
  obtain ⟨d,among,row⟩ := forall₂_member advanced onDisk
  exact (fits.held d among b inBase l inLive (same_base.trans row.resolves) (same_live.trans row.resolves)).advance row

/-- A row with the settled fields of another. -/
def Settled (row after : AccountMetadataV3) : Prop := ∀ k ∈ settledKeys, after.find k = row.find k

theorem Settled.refl (row : AccountMetadataV3) : Settled row row := fun _ _ => rfl

theorem Settled.trans {row after last : AccountMetadataV3} (first : Settled row after) (second : Settled after last) : Settled row last :=
  fun k member => (second k member).trans (first k member)

variable {row after : AccountMetadataV3}

section
variable (settled : Settled row after)
include settled

theorem Settled.credential : credential after = credential row :=
  credential_ext (fun k member => settled k (credentialKeys_settled k member))

theorem Settled.parts : identityParts after = identityParts row :=
  identityParts_congr (settled "accountId" (by simp [settledKeys])) (settled "email" (by simp [settledKeys]))

theorem Settled.recordId : after.find "recordId" = row.find "recordId" :=
  settled "recordId" (by simp [settledKeys])

theorem Settled.identityKey :
    getAccountIdentityKey after = getAccountIdentityKey row :=
  identityKey_congr settled.parts (settled "refreshToken" (by simp [settledKeys]))

end

theorem Held.settled {disk base live base' live' : AccountMetadataV3} (held : Held disk base live) (based : Settled base base')
    (lived : Settled live live') : Held disk base' live' := by
  have same_base := based.credential
  have same_live := lived.credential
  refine ⟨?_,?_,?_,?_,?_,?_,?_⟩
  · exact held.named.imp_right (fun same => same.trans based.recordId.symm)
  · rw [based.parts,lived.parts]
    exact held.parts
  · rw [expiry_congr same_base,expiry_congr same_live]
    exact held.behind
  · rw [expiry_congr same_base]
    exact held.stored
  · rw [expiry_congr same_base,expiry_congr same_live,same_base,same_live]
    exact held.ownCredential
  · rw [expiry_congr same_base,same_base]
    exact held.diskCredential
  · rw [expiry_congr same_base,expiry_congr same_live]
    intro equal behind
    obtain ⟨key,token⟩ := held.adopts equal behind
    exact ⟨by rw [lived.identityKey]; exact key,token⟩

theorem Fits.touch {disk base live after : List AccountMetadataV3} (fits : Fits disk base live) (touched : List.Forall₂ Settled live after) :
    Fits disk base after := by
  have each : List.Forall₂ (fun row later => resolveAccountRecordId later = resolveAccountRecordId row) live after := by
    refine forall₂_iff_get.mpr ⟨touched.length_eq,?_⟩
    intro i inside inside'
    exact ((fits.named _ (get_mem _ _)).of_find ((forall₂_iff_get.mp touched).2 i inside inside').recordId).1
  refine ⟨fits.baseIds,(forall₂_map_eq each).trans fits.liveIds,?_,?_⟩
  · intro row member
    obtain ⟨before,among,settled⟩ := forall₂_member touched member
    exact ((fits.named before among).of_find settled.recordId).2
  · intro d onDisk b inBase l inLive same_base same_live
    obtain ⟨before,among,settled⟩ := forall₂_member touched inLive
    have same := ((fits.named before among).of_find settled.recordId).1
    exact (fits.held d onDisk b inBase before among same_base (same.symm.trans same_live)).settled (Settled.refl b) settled

theorem settled_of_sameBut (same : SameBut cooldownKeys row after) : Settled row after := by
  intro k member
  refine same k ?_
  simp only [settledKeys,mem_cons,not_mem_nil,or_false] at member
  rcases member with rfl | rfl | rfl | rfl | rfl | rfl | rfl <;> simp [cooldownKeys]

theorem resolve_of_sameBut (same : SameBut cooldownKeys row after) :
    resolveAccountRecordId after = resolveAccountRecordId row := by
  have text : ∀ k, k ∉ cooldownKeys → after.text k = row.text k := fun k other => by rw [Record.text,Record.text,same k other]
  have number : ∀ k, k ∉ cooldownKeys → after.number k = row.number k := fun k other => by rw [Record.number,Record.number,same k other]
  simp only [resolveAccountRecordId,deriveAccountRecordId,recordId,addedAt,accountId,
    email,refreshToken,text "recordId" (by simp [cooldownKeys]),text "accountId" (by simp [cooldownKeys]),
    text "email" (by simp [cooldownKeys]),text "refreshToken" (by simp [cooldownKeys]),number "addedAt" (by simp [cooldownKeys])]

theorem Fits.rebase {disk base live after : List AccountMetadataV3} (fits : Fits disk base live)
    (based : List.Forall₂ (SameBut cooldownKeys) base after) : Fits disk after live := by
  refine ⟨(forall₂_map_eq (based.imp (fun _ _ same => resolve_of_sameBut same))).trans fits.baseIds,fits.liveIds,fits.named,?_⟩
  intro d onDisk b inBase l inLive same_base same_live
  obtain ⟨before,among,same⟩ := forall₂_member based inBase
  exact (fits.held d onDisk before among l inLive ((resolve_of_sameBut same).symm.trans same_base) same_live).settled
    (settled_of_sameBut same) (Settled.refl l)

theorem find_loadAccount (row : AccountMetadataV3) (k : String) :
    (loadAccount row).find k =
      if k = "email" then (sanitizeEmail row.email).map Json.str
      else if k = "recordId" then some (.str (resolveAccountRecordId row)) else row.find k := by
  unfold loadAccount
  rw [OrderedMap.find_assign,OrderedMap.find_put]
  by_cases email : k = "email"
  · subst email
    simp
  · by_cases record : k = "recordId"
    · subst record
      simp
    · simp [email,record,Ne.symm email,Ne.symm record]

theorem loadAccount_named (trimmed : trim (resolveAccountRecordId row) = resolveAccountRecordId row) :
    resolveAccountRecordId (loadAccount row) = resolveAccountRecordId row ∧ Named (loadAccount row) := by
  have carries : (loadAccount row).find "recordId" = some (.str (resolveAccountRecordId row)) := by
    rw [find_loadAccount]
    simp
  have resolves := resolve_of_find carries trimmed (resolveAccountRecordId_ne row)
  refine ⟨resolves,?_,?_⟩
  · rw [Carries,resolves]
    exact carries
  · rw [resolves]
    exact trimmed

theorem Fits.load {disk : List AccountMetadataV3} (distinct : (disk.map resolveAccountRecordId).Nodup) (reads : ∀ row ∈ disk, Reads row) :
    Fits disk disk ((disk.filter hasRefreshToken).map loadAccount) := by
  have all : disk.filter hasRefreshToken = disk := filter_eq_self.mpr (fun row member => (reads row member).1)
  rw [all]
  refine ⟨rfl,?_,?_,?_⟩
  · rw [map_map]
    exact map_congr_left (fun row member => (loadAccount_named (reads row member).2.1).1)
  · intro row member
    obtain ⟨stored,among,rfl⟩ := mem_map.mp member
    exact (loadAccount_named (reads stored among).2.1).2
  · intro d onDisk b inBase l inLive same_base same_live
    obtain ⟨stored,among,rfl⟩ := mem_map.mp inLive
    obtain ⟨-,trimmed,parts⟩ := reads stored among
    have own : stored = d := inj_on_of_nodup_map distinct among onDisk ((loadAccount_named trimmed).1.symm.trans same_live)
    have base : b = d := inj_on_of_nodup_map distinct inBase onDisk same_base
    subst own
    subst base
    refine Held.of_same (.inr rfl) parts.symm rfl ?_
    refine credential_ext (fun k member => ?_)
    rw [find_loadAccount]
    simp only [mem_cons,not_mem_nil,or_false] at member
    rcases member with rfl | rfl | rfl <;> simp

/-! ### Rows that are merged together -/

/-- The reconciled row of a pool. -/
def reconciled (current : AccountStorageV3) (account : AccountMetadataV3) : AccountMetadataV3 :=
  match (getAccountIdentityKey account).bind (fun key => (diskByIdentity current.accounts).find key) with
  | none => account
  | some disk => reconcileAccount disk account

theorem reconcileTokensFromDisk_accounts (synced current : AccountStorageV3) :
    (reconcileTokensFromDisk synced (some current)).accounts = synced.accounts.map (reconciled current) := rfl

theorem reconciled_sameBut (current : AccountStorageV3) (account : AccountMetadataV3) :
    SameBut reconciledKeys account (reconciled current account) := by
  unfold reconciled
  split
  · exact SameBut.refl _ _
  · exact reconcileAccount_sameBut _ _

theorem reconciled_named (current : AccountStorageV3) {account : AccountMetadataV3} (named : Named account) :
    resolveAccountRecordId (reconciled current account) = resolveAccountRecordId account ∧ Named (reconciled current account) :=
  named.of_find (reconciled_sameBut current account "recordId" (by simp [reconciledKeys]))

theorem reconciled_proposes {synced current : AccountStorageV3} (own : OwnKeys synced current)
    (distinct : (current.accounts.map resolveAccountRecordId).Nodup) {disk live : AccountMetadataV3} (onDisk : disk ∈ current.accounts)
    (inLive : live ∈ synced.accounts) (same : resolveAccountRecordId live = resolveAccountRecordId disk) :
    Proposes disk live (reconciled current live) := by
  unfold reconciled
  split
  · next missing =>
    refine proposes_self ?_
    rintro ⟨⟨key,here,there⟩,-⟩
    rw [here,Option.bind_some] at missing
    have known := diskByIdentity_isSome onDisk there
    rw [missing] at known
    cases known
  · next found hit =>
    obtain ⟨key,here,there⟩ := Option.bind_eq_some_iff.mp hit
    obtain ⟨among,keyed⟩ := diskByIdentity_sound there
    have row : found = disk := inj_on_of_nodup_map distinct among onDisk ((own live inLive found hit).trans same)
    rw [row] at keyed ⊢
    exact proposes_reconciled ⟨key,here,keyed⟩

theorem mem_ids {rows others : List AccountMetadataV3} (same : others.map resolveAccountRecordId = rows.map resolveAccountRecordId)
    (member : row ∈ rows) : ∃ other ∈ others, resolveAccountRecordId other = resolveAccountRecordId row := by
  have there : resolveAccountRecordId row ∈ others.map resolveAccountRecordId := by
    rw [same]
    exact mem_map.mpr ⟨row,member,rfl⟩
  exact mem_map.mp there

theorem rowOf_alike {identity : AccountMetadataV3 → Option String} {rows : List AccountMetadataV3}
    (alike : ∀ other ∈ rows, identity other = identity row ↔ resolveAccountRecordId other = resolveAccountRecordId row)
    (there : ∃ other ∈ rows, resolveAccountRecordId other = resolveAccountRecordId row) :
    ∃ other ∈ rows, rowOf identity rows (identity row) = some other ∧ resolveAccountRecordId other = resolveAccountRecordId row := by
  obtain ⟨own,member,same⟩ := there
  have present := rowOf_isSome.mpr (mem_map.mpr ⟨own,member,(alike own member).mpr same⟩)
  obtain ⟨other,found⟩ := Option.isSome_iff_exists.mp present
  obtain ⟨inside,identical⟩ := rowOf_sound found
  exact ⟨other,inside,found,(alike other inside).mp identical⟩

variable {base current loc result : AccountStorageV3}

/-- What a merge of documents with the same accounts does: each row of the disk is merged with its own rows. -/
theorem merged_rows (done : mergeDocuments base current loc = .ok result)
    (identified : Identified base current loc)
    (inBase : base.accounts.map resolveAccountRecordId = current.accounts.map resolveAccountRecordId)
    (inLocal : loc.accounts.map resolveAccountRecordId = current.accounts.map resolveAccountRecordId) :
    List.Forall₂ (fun disk merged => ∃ b ∈ base.accounts, ∃ l ∈ loc.accounts,
        resolveAccountRecordId b = resolveAccountRecordId disk ∧ resolveAccountRecordId l = resolveAccountRecordId disk ∧
          AccountMerged b disk l merged) current.accounts result.accounts := by
  obtain ⟨kept,accounts,rows⟩ := (mergeDocuments_merged done).accounts
  have known : ∀ row, row ∈ base.accounts ∨ row ∈ current.accounts ∨ row ∈ loc.accounts →
      row ∈ base.accounts ++ current.accounts ++ loc.accounts := by
    intro row member
    simp only [mem_append]
    tauto
  have same : loc.accounts.map (mergeIdentity base current loc) = base.accounts.map (mergeIdentity base current loc) :=
    map_eq_of_keys (inLocal.trans inBase.symm) (fun b in_base l in_local ids =>
      (identified l (known l (.inr (.inr in_local))) b (known b (.inl in_base))).mpr ids)
  rw [additions_same same,append_nil] at accounts
  rw [remaining_same same] at rows
  rw [accounts]
  refine forall₂_iff_get.mpr ⟨rows.length_eq,?_⟩
  intro i inside inside'
  have merge := (forall₂_iff_get.mp rows).2 i inside inside'
  have onDisk := get_mem current.accounts ⟨i,inside⟩
  generalize current.accounts.get ⟨i,inside⟩ = disk at merge onDisk ⊢
  have alike : ∀ others : List AccountMetadataV3, (∀ row ∈ others, row ∈ base.accounts ∨ row ∈ current.accounts ∨ row ∈ loc.accounts) →
      ∀ row ∈ others, mergeIdentity base current loc row = mergeIdentity base current loc disk ↔
        resolveAccountRecordId row = resolveAccountRecordId disk :=
    fun others among row inside => identified row (known row (among row inside)) disk (known disk (.inr (.inl onDisk)))
  obtain ⟨b,in_base,base_found,base_id⟩ := rowOf_alike (alike base.accounts (fun _ member => .inl member)) (mem_ids inBase onDisk)
  obtain ⟨l,in_local,local_found,local_id⟩ := rowOf_alike (alike loc.accounts (fun _ member => .inr (.inr member))) (mem_ids inLocal onDisk)
  simp only [MergedRow,base_found,local_found] at merge
  exact ⟨b,in_base,l,in_local,base_id,local_id,merge⟩

theorem Fits.merged {live after : List AccountMetadataV3}
    (fits : Fits current.accounts base.accounts live) (done : mergeDocuments base current loc = .ok result)
    (identified : Identified base current loc) (inLocal : loc.accounts.map resolveAccountRecordId = current.accounts.map resolveAccountRecordId)
    (inAfter : after.map resolveAccountRecordId = current.accounts.map resolveAccountRecordId) (named : ∀ row ∈ after, Named row)
    (distinct : (current.accounts.map resolveAccountRecordId).Nodup) (stored : AccountMetadataV3 → Credential)
    (each : ∀ disk ∈ current.accounts, ∀ b ∈ base.accounts, ∀ p ∈ loc.accounts, ∀ l ∈ after, resolveAccountRecordId b = resolveAccountRecordId disk →
      resolveAccountRecordId p = resolveAccountRecordId disk → resolveAccountRecordId l = resolveAccountRecordId disk →
      ∀ merged, AccountMerged b disk p merged → Advanced disk merged ∧ credential merged = stored disk ∧ Held merged p l) :
    List.Forall₂ (fun disk merged => Advanced disk merged ∧ credential merged = stored disk) current.accounts result.accounts ∧
      Fits result.accounts loc.accounts after := by
  have rows := merged_rows done identified fits.baseIds inLocal
  have settled : List.Forall₂ (fun disk merged => disk ∈ current.accounts ∧ Advanced disk merged ∧ credential merged = stored disk ∧
      ∀ p ∈ loc.accounts, ∀ l ∈ after, resolveAccountRecordId p = resolveAccountRecordId disk →
        resolveAccountRecordId l = resolveAccountRecordId disk → Held merged p l) current.accounts result.accounts := by
    refine forall₂_iff_get.mpr ⟨rows.length_eq,?_⟩
    intro i inside inside'
    obtain ⟨b,in_base,p,in_local,base_id,local_id,merge⟩ := (forall₂_iff_get.mp rows).2 i inside inside'
    have onDisk := get_mem current.accounts ⟨i,inside⟩
    generalize current.accounts.get ⟨i,inside⟩ = disk at *
    generalize result.accounts.get ⟨i,inside'⟩ = merged at *
    obtain ⟨l,in_after,after_id⟩ := mem_ids inAfter onDisk
    obtain ⟨advanced,taken,-⟩ := each disk onDisk b in_base p in_local l in_after base_id local_id after_id merged merge
    refine ⟨onDisk,advanced,taken,?_⟩
    intro p' in_local' l' in_after' local_id' after_id'
    have same : p' = p := inj_on_of_nodup_map (inLocal ▸ distinct) in_local' in_local (local_id'.trans local_id.symm)
    subst same
    exact (each disk onDisk b in_base p' in_local l' in_after' base_id local_id after_id' merged merge).2.2
  have ids := forall₂_map_eq (settled.imp (fun _ _ row => row.2.1.resolves))
  refine ⟨settled.imp (fun _ _ row => ⟨row.2.1,row.2.2.1⟩),inLocal.trans ids.symm,inAfter.trans ids.symm,named,?_⟩
  intro d' inResult p in_local l in_after local_id after_id
  obtain ⟨disk,-,-,advanced,-,held⟩ := forall₂_member settled inResult
  exact held p in_local l in_after (local_id.trans advanced.resolves) (after_id.trans advanced.resolves)

/-- How a snapshot reaches the file: it is merged, its observations are, or only a refreshed credential is written. -/
inductive Persists (m : Manager) (base current proposed : AccountStorageV3) (refreshed : Option AccountMetadataV3)
    (runtimeOnConflict : Bool) : AccountStorageV3 → Manager → Prop where
  | merged {result : AccountStorageV3} (done : mergeDocuments base current proposed = .ok result) :
      Persists m base current proposed refreshed runtimeOnConflict result (persisted m proposed result refreshed)
  | observed {result : AccountStorageV3} {e : StorageError} (done : mergeDocuments base current (observedBase base proposed) = .ok result)
      (fallback : runtimeOnConflict = true) (conflicts : mergeDocuments base current proposed = .error e) :
      Persists m base current proposed refreshed runtimeOnConflict result { m with hadPersistedStorage := true }
  | rescued {row : AccountMetadataV3} {result rescuedBaseline : AccountStorageV3} (credential : refreshed = some row)
      (done : rescueAuth base current row = some (result,rescuedBaseline)) :
      Persists m base current proposed refreshed runtimeOnConflict result (persisted m rescuedBaseline result refreshed)

variable {m after : Manager} {runtimeOnConflict : Bool}

theorem persistSnapshot_ok {base current proposed result : AccountStorageV3} {refreshed : Option AccountMetadataV3} (known : m.persistenceBaseline = some base)
    (done : persistSnapshot m (some current) proposed refreshed runtimeOnConflict = .ok (result,after)) :
    Persists m base current proposed refreshed runtimeOnConflict result after := by
  simp only [persistSnapshot,known,mergeAccountSnapshot,Option.getD_some] at done
  split at done
  · next merged merge =>
    obtain ⟨rfl,rfl⟩ := Prod.mk.inj (Except.ok.inj done)
    exact .merged merge
  · next e conflicts =>
    split at done
    · next fallback =>
      simp only [mergeAccountRuntimeObservations,mergeAccountSnapshot,Option.getD_some] at done
      split at done
      · cases done
      · next merged merge =>
        obtain ⟨rfl,rfl⟩ := Prod.mk.inj (Except.ok.inj done)
        have kept : Persists m base current proposed refreshed runtimeOnConflict merged { m with hadPersistedStorage := true } :=
          .observed merge fallback conflicts
        rw [known] at kept
        exact kept
    · split at done
      · cases done
      · next merged rescuedBaseline rescue =>
        obtain ⟨rfl,rfl⟩ := Prod.mk.inj (Except.ok.inj done)
        obtain ⟨row,here,rescue⟩ := Option.bind_eq_some_iff.mp rescue
        obtain ⟨-,-,rescue⟩ := Option.bind_eq_some_iff.mp rescue
        exact .rescued here rescue

variable {base synced current result : AccountStorageV3}

theorem saveToDisk_ok
    (known : m.persistenceBaseline = some base) (done : saveToDisk m synced (some current) runtimeOnConflict = .ok (result,after)) :
    Persists { m with live := synced } base current (reconcileTokensFromDisk synced (some current)) none runtimeOnConflict result after := by
  simp only [saveToDisk,Option.isNone_some,Bool.false_eq_true,false_and,if_false] at done
  have kept : ({ m with live := synced } : Manager).persistenceBaseline = some base := known
  exact persistSnapshot_ok kept done

theorem commitRefreshedAuth_ok {source : AccountLike}
    {auth : OAuthAuthDetails} {now : ℚ} (known : m.persistenceBaseline = some base)
    (done : commitRefreshedAuth now m synced (some current) source auth = .ok (some (result,after))) :
    ∃ next stored live, refreshSnapshot now synced (some current) source auth = some (next,stored,live) ∧
      Persists { m with live := live } base current next (some stored) false result after := by
  simp only [commitRefreshedAuth,Option.isNone_some,Bool.false_eq_true,false_and,if_false] at done
  split at done
  · cases done
  · next next stored live refreshes =>
    split at done
    · cases done
    · next written persists =>
      obtain rfl := Option.some.inj (Except.ok.inj done)
      have kept : ({ m with live := live } : Manager).persistenceBaseline = some base := known
      exact ⟨next,stored,live,refreshes,persistSnapshot_ok kept persists⟩

theorem updateFirst_each {R : AccountMetadataV3 → AccountMetadataV3 → Prop} {matching : AccountMetadataV3 → Bool}
    {update : AccountMetadataV3 → AccountMetadataV3} (same : ∀ row, R row row) (changed : ∀ row, R row (update row))
    (rows : List AccountMetadataV3) : List.Forall₂ R rows (updateFirst matching update rows) := by
  induction rows with
  | nil => exact .nil
  | cons row rest ih =>
    unfold updateFirst
    split
    · exact .cons (changed row) (forall₂_same.mpr (fun row _ => same row))
    · exact .cons (same row) ih

/-- What a manager keeps of a snapshot: the proposal as its baseline, apart from cooldowns. -/
theorem persisted_rows (m : Manager) (baseline merged : AccountStorageV3) (refreshed : Option AccountMetadataV3) :
    ∃ kept, (persisted m baseline merged refreshed).persistenceBaseline = some kept ∧
      List.Forall₂ (SameBut cooldownKeys) baseline.accounts kept.accounts ∧
      List.Forall₂ (SameBut cooldownKeys) m.live.accounts (persisted m baseline merged refreshed).live.accounts := by
  have unchanged : ∀ rows : List AccountMetadataV3, List.Forall₂ (SameBut cooldownKeys) rows rows :=
    fun rows => forall₂_same.mpr (fun row _ => SameBut.refl cooldownKeys row)
  unfold persisted
  split
  · exact ⟨baseline,rfl,unchanged _,unchanged _⟩
  · split
    · exact ⟨baseline,rfl,unchanged _,unchanged _⟩
    · refine ⟨_,rfl,?_,?_⟩
      · exact updateFirst_each (SameBut.refl cooldownKeys) (fun row => withCooldown_sameBut row _) _
      · exact updateFirst_each (SameBut.refl cooldownKeys) (fun row => withCooldown_sameBut row _) _

/-- A manager whose baseline and pool fit the file. -/
def FitsManager (disk : List AccountMetadataV3) (m : Manager) : Prop :=
  ∃ base, m.persistenceBaseline = some base ∧ Fits disk base.accounts m.live.accounts

theorem Fits.persisted {disk : List AccountMetadataV3} {m : Manager} {baseline : AccountStorageV3}
    (fits : Fits disk baseline.accounts m.live.accounts) (merged : AccountStorageV3) (refreshed : Option AccountMetadataV3) :
    FitsManager disk (persisted m baseline merged refreshed) := by
  obtain ⟨kept,known,based,lived⟩ := persisted_rows m baseline merged refreshed
  exact ⟨kept,known,(fits.rebase based).touch (lived.imp (fun _ _ same => settled_of_sameBut same))⟩

theorem Advanced.of_settled {disk after : AccountMetadataV3} (settled : Settled disk after)
    (resolves : resolveAccountRecordId after = resolveAccountRecordId disk) : Advanced disk after :=
  ⟨resolves,.inr settled.recordId,le_of_eq (expiry_congr settled.credential).symm,fun _ => ⟨settled.credential,settled.parts⟩⟩

theorem UserFieldsKept.advanced {disk after : AccountMetadataV3} (kept : UserFieldsKept disk after) :
    Advanced disk after ∧ credential after = credential disk := by
  have same : ∀ k, k ∉ observationKeys ++ workspaceKeys → after.find k = disk.find k := by
    intro k other
    rw [mem_append,not_or] at other
    exact kept.field k other.1 other.2
  have settled : Settled disk after := by
    intro k member
    refine same k ?_
    simp only [settledKeys,mem_cons,not_mem_nil,or_false] at member
    rcases member with rfl | rfl | rfl | rfl | rfl | rfl | rfl <;> simp [observationKeys,workspaceKeys]
  have resolves : resolveAccountRecordId after = resolveAccountRecordId disk := by
    simp only [resolveAccountRecordId,deriveAccountRecordId,recordId,addedAt,accountId,
      email,refreshToken,Record.text,Record.number,same "recordId" (by simp [observationKeys,workspaceKeys]),
      same "accountId" (by simp [observationKeys,workspaceKeys]),same "email" (by simp [observationKeys,workspaceKeys]),
      same "refreshToken" (by simp [observationKeys,workspaceKeys]),same "addedAt" (by simp [observationKeys,workspaceKeys])]
  exact ⟨Advanced.of_settled settled resolves,settled.credential⟩

theorem observedBase_advanced
    (done : mergeDocuments base current (observedBase base loc) = .ok result) :
    List.Forall₂ (fun disk merged => Advanced disk merged ∧ credential merged = credential disk) current.accounts result.accounts := by
  refine (observations_rows (mergeDocuments_merged done)).imp (fun disk merged row => ?_)
  rcases observations_account row with ⟨rfl,-⟩ | ⟨prior,-,account⟩
  · exact ⟨Advanced.refl _,rfl⟩
  · exact (account.userFieldsKept (observed_observes loc prior disk)).advanced

theorem Fits.reconciled_ids {disk base : List AccountMetadataV3} {synced current : AccountStorageV3} (fits : Fits disk base synced.accounts) :
    (reconcileTokensFromDisk synced (some current)).accounts.map resolveAccountRecordId = disk.map resolveAccountRecordId := by
  rw [reconcileTokensFromDisk_accounts,map_map,← fits.liveIds]
  exact map_congr_left (fun row member => (reconciled_named current (fits.named row member)).1)

theorem Fits.saved
    (known : m.persistenceBaseline = some base) (fits : Fits current.accounts base.accounts synced.accounts)
    (distinct : (current.accounts.map resolveAccountRecordId).Nodup)
    (identified : Identified base current (reconcileTokensFromDisk synced (some current))) (own : OwnKeys synced current)
    (done : saveToDisk m synced (some current) runtimeOnConflict = .ok (result,after)) :
    List.Forall₂ (fun disk merged => Advanced disk merged ∧ credential merged = credential disk) current.accounts result.accounts ∧
      FitsManager result.accounts after := by
  cases saveToDisk_ok known done with
  | merged merge =>
    obtain ⟨rows,next⟩ := fits.merged merge identified fits.reconciled_ids fits.liveIds fits.named distinct credential (by
      intro disk onDisk b in_base p proposed live in_live base_id proposed_id live_id merged account
      obtain ⟨row,member,rfl⟩ := mem_map.mp proposed
      have same_id := (reconciled_named current (fits.named row member)).1
      have same : row = live :=
        inj_on_of_nodup_map (fits.liveIds ▸ distinct) member in_live ((same_id.symm.trans proposed_id).trans live_id.symm)
      subst same
      exact (fits.held disk onDisk b in_base row member base_id live_id).save (fits.named row member) live_id
        (reconciled_proposes own distinct onDisk member live_id) account)
    exact ⟨rows,next.persisted result none⟩
  | observed merge _ _ =>
    have rows := observedBase_advanced merge
    exact ⟨rows,base,known,fits.advance (rows.imp (fun _ _ row => row.1))⟩
  | rescued here => cases here

end
end CodexMultiAuth
