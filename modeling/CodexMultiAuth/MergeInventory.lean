import CodexMultiAuth.Lists
import CodexMultiAuth.MergeAccount

/-!
The inventory of a merge. Accounts are matched by identity: an account that is
in all three documents is merged, one that either side removed is gone, and one
that either side added is there.
-/
namespace CodexMultiAuth

open List

section
variable {identity : AccountMetadataV3 → Option String}

/-- Every row has an identity of its own. -/
structure DistinctIdentities (identity : AccountMetadataV3 → Option String) (rows : List AccountMetadataV3) : Prop where
  known : ∀ row ∈ rows, (identity row).isSome
  distinct : (rows.map identity).Nodup

def rowOf (identity : AccountMetadataV3 → Option String) (rows : List AccountMetadataV3) (id : Option String) : Option AccountMetadataV3 :=
  rows.find? (fun row => decide (identity row = id))

variable {rows : List AccountMetadataV3}
variable {id : Option String}

theorem rowOf_sound {row : AccountMetadataV3}
    (found : rowOf identity rows id = some row) : row ∈ rows ∧ identity row = id :=
  ⟨mem_of_find?_eq_some found,by simpa using List.find?_some found⟩

theorem rowOf_isSome :
    (rowOf identity rows id).isSome ↔ id ∈ rows.map identity := by
  simp [rowOf,List.find?_isSome]

theorem rowOf_eq_none :
    rowOf identity rows id = none ↔ id ∉ rows.map identity := by
  rw [← rowOf_isSome]; cases rowOf identity rows id <;> simp

theorem rowOf_member (distinct : (rows.map identity).Nodup) {row : AccountMetadataV3}
    (member : row ∈ rows) : rowOf identity rows (identity row) = some row := by
  cases found : rowOf identity rows (identity row) with
  | none => exact absurd (mem_map.mpr ⟨row,member,rfl⟩) (rowOf_eq_none.mp found)
  | some other =>
    obtain ⟨there,same⟩ := rowOf_sound found
    rw [inj_on_of_nodup_map distinct there member same]

structure Indexed (identity : AccountMetadataV3 → Option String) (rows : List AccountMetadataV3)
    (map : OrderedMap String AccountMetadataV3) : Prop where
  rows : map.map Prod.snd = rows
  keyed : ∀ entry ∈ map, identity entry.2 = some entry.1
  distinct : map.keys.Nodup

variable {map : OrderedMap String AccountMetadataV3}

theorem Indexed.find (indexed : Indexed identity rows map) (key : String) : map.find key = rowOf identity rows (some key) := by
  obtain ⟨rfl,keyed,-⟩ := indexed
  induction map with
  | nil => rfl
  | cons entry map ih =>
    have here := keyed entry (by simp)
    have tail := ih (fun entry member => keyed entry (mem_cons_of_mem _ member))
    simp only [rowOf] at tail
    rw [OrderedMap.find_cons,rowOf,map_cons,List.find?_cons,here,tail]
    by_cases same : entry.1 = key <;> simp [same]

theorem Indexed.contains (indexed : Indexed identity rows map) (key : String)
    : map.keys.contains key = (rowOf identity rows (some key)).isSome := by
  rw [← indexed.find,contains_eq_mem,Bool.eq_iff_iff,decide_eq_true_iff,OrderedMap.find_isSome]

private theorem indexRows_indexed {map indexed : OrderedMap String AccountMetadataV3}
    {before : List AccountMetadataV3} (started : Indexed identity before map) (done : indexRows identity rows map = .ok indexed) :
    Indexed identity (before ++ rows) indexed := by
  induction rows generalizing before map with
  | nil => simp only [indexRows,Except.ok.injEq] at done; subst done; simpa using started
  | cons row rows ih =>
    simp only [indexRows] at done
    split at done
    · cases done
    · rename_i key here
      split at done
      · cases done
      · rename_i fresh
        have step : Indexed identity (before ++ [row]) (map ++ [(key,row)]) := by
          refine ⟨by simp [started.rows],?_,?_⟩
          · intro entry member
            rcases mem_append.mp member with old | new
            · exact started.keyed entry old
            · rw [mem_singleton.mp new]; exact here
          · simp only [OrderedMap.keys,map_append,map_cons,map_nil]
            refine nodup_append.mpr ⟨started.distinct,by simp,?_⟩
            rintro key' member key'' last rfl
            rw [mem_singleton.mp last] at member
            exact fresh (by simpa [OrderedMap.keys] using member)
        simpa using ih step done

theorem indexRows_ok (done : indexRows identity rows [] = .ok map) : Indexed identity rows map := by
  simpa using @indexRows_indexed identity rows [] map [] ⟨rfl,by simp,by simp [OrderedMap.keys]⟩ done

theorem Indexed.distinctIdentities (indexed : Indexed identity rows map) : DistinctIdentities identity rows := by
  obtain ⟨rfl,keyed,distinct⟩ := indexed
  have keys : (map.map Prod.snd).map identity = map.keys.map some := by
    rw [OrderedMap.keys,map_map,map_map]
    exact map_congr_left (fun entry member => keyed entry member)
  constructor
  · intro row member
    obtain ⟨entry,there,rfl⟩ := mem_map.mp member
    rw [keyed entry there]; rfl
  · rw [keys]
    exact distinct.map (Option.some_injective _)

theorem indexRows_succeeds (distinct : DistinctIdentities identity rows) :
    ∃ map, indexRows identity rows [] = .ok map := by
  have general : ∀ map : OrderedMap String AccountMetadataV3, (∀ key ∈ map.keys, some key ∉ rows.map identity) →
      ∃ indexed, indexRows identity rows map = .ok indexed := by
    induction rows with
    | nil => intro map _; exact ⟨map,rfl⟩
    | cons row rows ih =>
      intro map apart
      obtain ⟨key,here⟩ := Option.isSome_iff_exists.mp (distinct.known row (by simp))
      have own := distinct.distinct
      rw [map_cons,nodup_cons,here] at own
      have fresh : ¬ map.keys.contains key := by
        intro known
        exact apart key (by simpa using known) (by simp [here])
      simp only [indexRows,here,if_neg fresh]
      refine ih ⟨fun row member => distinct.known row (mem_cons_of_mem _ member),own.2⟩ _ ?_
      intro key' member
      simp only [OrderedMap.keys,map_append,map_cons,map_nil,mem_append,mem_singleton] at member
      rcases member with old | rfl
      · have := apart key' old
        rw [map_cons,mem_cons,not_or] at this
        exact this.2
      · exact own.1
  exact general [] (by simp [OrderedMap.keys])

/-! ### The merged rows -/

section
variable (identity : AccountMetadataV3 → Option String) (base current loc : List AccountMetadataV3)

/-- An account of the disk survives unless it was known and the writer dropped it. -/
def survives (row : AccountMetadataV3) : Bool :=
  (rowOf identity base (identity row)).isNone || (rowOf identity loc (identity row)).isSome

def remaining : List AccountMetadataV3 := current.filter (survives identity base loc)

def additions : List AccountMetadataV3 :=
  loc.filter (fun row => (rowOf identity base (identity row)).isNone && (rowOf identity current (identity row)).isNone)

/-- What became of a row of the disk. -/
def MergedRow (row merged : AccountMetadataV3) : Prop :=
  match rowOf identity base (identity row), rowOf identity loc (identity row) with
  | some b, some l => AccountMerged b row l merged
  | _, _ => merged = row

/-- How a row of the disk was made what it became. -/
def RowMade (row merged : AccountMetadataV3) : Prop :=
  match rowOf identity base (identity row), rowOf identity loc (identity row) with
  | some b, some l => mergeRuntimeAccount b (row.put "lastUsed" (lastUse row l)) (l.put "lastUsed" (lastUse row l)) = .ok merged
  | none, some l => merged = row ∧ row = l
  | _, none => merged = row

/-- What makes the inventory conflict. -/
def AccountsDiverged : Prop :=
  ∃ row ∈ current,
    (∃ b l, rowOf identity base (identity row) = some b ∧ rowOf identity loc (identity row) = some l ∧ AccountDiverged b row l) ∨
      (rowOf identity base (identity row) = none ∧ ∃ l, rowOf identity loc (identity row) = some l ∧ row ≠ l)

end

variable {base loc : List AccountMetadataV3}

theorem RowMade.merged {identity : AccountMetadataV3 → Option String} {row merged : AccountMetadataV3}
    (made : RowMade identity base loc row merged) : MergedRow identity base loc row merged := by
  unfold RowMade at made
  unfold MergedRow
  cases inBase : rowOf identity base (identity row) with
  | none => cases inLocal : rowOf identity loc (identity row) <;> simp_all
  | some b =>
    cases inLocal : rowOf identity loc (identity row) with
    | none => simp_all
    | some l =>
      simp only [inBase,inLocal] at made
      exact mergeAccount_merged made

variable {old proposed : OrderedMap String AccountMetadataV3}

private theorem mergeDiskAccount_ok
    (before : Indexed identity base old) (next : Indexed identity loc proposed) {entry : String × AccountMetadataV3}
    (keyed : identity entry.2 = some entry.1) {merged : Option AccountMetadataV3}
    (done : mergeDiskAccount old proposed entry = .ok merged) :
    (survives identity base loc entry.2 = false ∧ merged = none) ∨
      ∃ row, survives identity base loc entry.2 = true ∧ merged = some row ∧ RowMade identity base loc entry.2 row := by
  have known : old.find entry.1 = rowOf identity base (identity entry.2) := by rw [keyed]; exact before.find _
  have proposes : proposed.find entry.1 = rowOf identity loc (identity entry.2) := by rw [keyed]; exact next.find _
  simp only [mergeDiskAccount,known,proposes] at done
  unfold survives RowMade
  cases inBase : rowOf identity base (identity entry.2) with
  | none =>
    right
    cases inLocal : rowOf identity loc (identity entry.2) with
    | none =>
      simp only [inBase,inLocal,Except.ok.injEq] at done
      exact ⟨entry.2,rfl,done.symm,rfl⟩
    | some l =>
      simp only [inBase,inLocal] at done
      split at done
      · cases done
      · rename_i same
        cases done; exact ⟨entry.2,rfl,rfl,rfl,not_not.mp same⟩
  | some b =>
    cases inLocal : rowOf identity loc (identity entry.2) with
    | none =>
      simp only [inBase,inLocal,Except.ok.injEq] at done
      exact .inl ⟨rfl,done.symm⟩
    | some l =>
      simp only [inBase,inLocal] at done
      split at done
      · cases done
      · rename_i merged finished
        cases done
        exact .inr ⟨merged,rfl,rfl,finished⟩

private theorem mergeDiskAccount_error
    (before : Indexed identity base old) (next : Indexed identity loc proposed) {entry : String × AccountMetadataV3}
    (keyed : identity entry.2 = some entry.1) {e : StorageError} (failed : mergeDiskAccount old proposed entry = .error e) :
    (∃ b l, rowOf identity base (identity entry.2) = some b ∧ rowOf identity loc (identity entry.2) = some l ∧
        AccountDiverged b entry.2 l) ∨
      (rowOf identity base (identity entry.2) = none ∧ ∃ l, rowOf identity loc (identity entry.2) = some l ∧ entry.2 ≠ l) := by
  have known : old.find entry.1 = rowOf identity base (identity entry.2) := by rw [keyed]; exact before.find _
  have proposes : proposed.find entry.1 = rowOf identity loc (identity entry.2) := by rw [keyed]; exact next.find _
  simp only [mergeDiskAccount,known,proposes] at failed
  split at failed
  · cases failed
  · cases failed
  · rename_i next inBase inLocal
    split at failed
    · rename_i different
      exact .inr ⟨inBase,next,inLocal,different⟩
    · cases failed
  · rename_i prior next inBase inLocal
    split at failed
    · rename_i conflicted
      exact .inl ⟨prior,next,inBase,inLocal,mergeAccount_error conflicted⟩
    · cases failed

variable {base current loc : List AccountMetadataV3} {old disk proposed : OrderedMap String AccountMetadataV3}

section
variable (before : Indexed identity base old)
include before

section
variable (onDisk : Indexed identity current disk)
include onDisk

section
variable (next : Indexed identity loc proposed)
include next

private theorem additions_indexed :
    (proposed.filter (fun entry => !old.keys.contains entry.1 && !disk.keys.contains entry.1)).map Prod.snd =
      additions identity base current loc := by
  rw [additions,← next.rows,filter_map]
  congr 1
  refine filter_congr (fun entry member => ?_)
  rw [before.contains,onDisk.contains,Function.comp_apply,next.keyed entry member,Option.not_isSome,Option.not_isSome]

/-- The merged inventory: the surviving accounts of the disk in its order, each
    merged, and then the writer's additions. -/
theorem mergeAccounts_ok
    {accounts : List AccountMetadataV3} (done : mergeAccounts old disk proposed = .ok accounts) :
    ∃ kept, accounts = kept ++ additions identity base current loc ∧
      List.Forall₂ (RowMade identity base loc) (remaining identity base current loc) kept := by
  simp only [mergeAccounts] at done
  split at done
  · cases done
  · rename_i kept collected
    cases done
    refine ⟨kept,?_,?_⟩
    · rw [additions_indexed before onDisk next]
    · rw [remaining,← onDisk.rows]
      have keyed := onDisk.keyed
      clear onDisk
      induction disk generalizing kept with
      | nil => simp only [OrderedMap.collect,Except.ok.injEq] at collected; subst collected; simp
      | cons entry disk ih =>
        simp only [OrderedMap.collect] at collected
        split at collected
        · cases collected
        · rename_i merged first
          split at collected
          · cases collected
          · rename_i rest later
            cases collected
            have tail := ih rest later (fun entry member => keyed entry (mem_cons_of_mem _ member))
            rcases mergeDiskAccount_ok before next (keyed entry (by simp)) first with ⟨dropped,rfl⟩ | ⟨row,stays,rfl,merge⟩
            · simpa [filter_cons,dropped] using tail
            · simpa [filter_cons,stays] using ⟨merge,tail⟩

theorem mergeAccounts_error
    {e : StorageError} (failed : mergeAccounts old disk proposed = .error e) : AccountsDiverged identity base current loc := by
  simp only [mergeAccounts] at failed
  split at failed
  · rename_i conflicted
    obtain ⟨entry,member,bad⟩ := OrderedMap.collect_error conflicted
    refine ⟨entry.2,?_,mergeDiskAccount_error before next (onDisk.keyed entry member) bad⟩
    rw [← onDisk.rows]
    exact mem_map.mpr ⟨entry,member,rfl⟩
  · cases failed

end

end

end

end

section
variable [Host]

/-- The rows of each of the three documents have identities of their own. -/
structure DistinctDocuments (base current loc : AccountStorageV3) : Prop where
  inBase : DistinctIdentities (mergeIdentity base current loc) base.accounts
  inCurrent : DistinctIdentities (mergeIdentity base current loc) current.accounts
  inLocal : DistinctIdentities (mergeIdentity base current loc) loc.accounts

/-- What a finished merge of three documents is. -/
structure DocumentsMerged (base current loc result : AccountStorageV3) : Prop where
  distinct : DistinctDocuments base current loc
  accounts : ∃ kept, result.accounts =
      kept ++ additions (mergeIdentity base current loc) base.accounts current.accounts loc.accounts ∧
    List.Forall₂ (MergedRow (mergeIdentity base current loc) base.accounts loc.accounts)
      (remaining (mergeIdentity base current loc) base.accounts current.accounts loc.accounts) kept
  fields : mergeRecord base.fields current.fields loc.fields = .ok result.fields
  activeIndex : result.activeIndex = pickedIndex (pick (mergeIdentity base current loc) result.accounts base current loc
    (some base.activeIndex) (some current.activeIndex) (some loc.activeIndex))
  activeIndexByFamily : result.activeIndexByFamily =
    some ((OrderedMap.unionKeys [familyKeys base,familyKeys current,familyKeys loc]).map (fun family =>
      (family,pickedIndex (pick (mergeIdentity base current loc) result.accounts base current loc
        (familyIndex base family) (familyIndex current family) (familyIndex loc family)))))
  pinnedAccountIndex : result.pinnedAccountIndex = pickedPin (pick (mergeIdentity base current loc) result.accounts base current loc
    base.pinnedAccountIndex current.pinnedAccountIndex loc.pinnedAccountIndex)

theorem mergeDocuments_made {base current loc result : AccountStorageV3} (done : mergeDocuments base current loc = .ok result) :
    ∃ kept, result.accounts = kept ++ additions (mergeIdentity base current loc) base.accounts current.accounts loc.accounts ∧
      List.Forall₂ (RowMade (mergeIdentity base current loc) base.accounts loc.accounts)
        (remaining (mergeIdentity base current loc) base.accounts current.accounts loc.accounts) kept := by
  simp only [mergeDocuments] at done
  split at done
  · rename_i old disk proposed inBase inCurrent inLocal
    split at done
    · rename_i accounts fields merged kept
      cases done
      exact mergeAccounts_ok (indexRows_ok inBase) (indexRows_ok inCurrent) (indexRows_ok inLocal) merged
    · cases done
  · cases done

theorem mergeDocuments_merged {base current loc result : AccountStorageV3} (done : mergeDocuments base current loc = .ok result) :
    DocumentsMerged base current loc result := by
  obtain ⟨rows,accounts,made⟩ := mergeDocuments_made done
  simp only [mergeDocuments] at done
  split at done
  · rename_i old disk proposed inBase inCurrent inLocal
    have before := indexRows_ok inBase
    have onDisk := indexRows_ok inCurrent
    have next := indexRows_ok inLocal
    split at done
    · rename_i merged kept
      cases done
      exact ⟨⟨before.distinctIdentities,onDisk.distinctIdentities,next.distinctIdentities⟩,
        ⟨rows,accounts,made.imp (fun _ _ made => made.merged)⟩,kept,rfl,rfl,rfl⟩
    · cases done
  · cases done

/-- Documents of distinct identities conflict only where an account or a field diverged. -/
theorem mergeDocuments_error {base current loc : AccountStorageV3} {e : StorageError}
    (failed : mergeDocuments base current loc = .error e) (distinct : DistinctDocuments base current loc) :
    AccountsDiverged (mergeIdentity base current loc) base.accounts current.accounts loc.accounts ∨
      ∃ k, Diverged (base.fields.find k) (current.fields.find k) (loc.fields.find k) := by
  obtain ⟨old,inBase⟩ := indexRows_succeeds distinct.inBase
  obtain ⟨disk,inCurrent⟩ := indexRows_succeeds distinct.inCurrent
  obtain ⟨proposed,inLocal⟩ := indexRows_succeeds distinct.inLocal
  simp only [mergeDocuments,inBase,inCurrent,inLocal] at failed
  cases merged : mergeAccounts old disk proposed with
  | error e' => exact .inl (mergeAccounts_error (indexRows_ok inBase) (indexRows_ok inCurrent) (indexRows_ok inLocal) merged)
  | ok accounts =>
    cases kept : mergeRecord base.fields current.fields loc.fields with
    | error e' =>
      obtain ⟨k,bad⟩ := mergeRecord_error kept
      exact .inr ⟨k,mergeValue_error bad⟩
    | ok fields => simp [merged,kept] at failed

theorem mergeDocuments_succeeds {base current loc : AccountStorageV3} (distinct : DistinctDocuments base current loc)
    (accounts : ¬ AccountsDiverged (mergeIdentity base current loc) base.accounts current.accounts loc.accounts)
    (fields : ∀ k, ¬ Diverged (base.fields.find k) (current.fields.find k) (loc.fields.find k)) :
    ∃ result, mergeDocuments base current loc = .ok result := by
  cases done : mergeDocuments base current loc with
  | ok result => exact ⟨result,rfl⟩
  | error e =>
    rcases mergeDocuments_error done distinct with bad | ⟨k,bad⟩
    · exact absurd bad accounts
    · exact absurd bad (fields k)

theorem mergeAccountSnapshot_ok {base current : Option AccountStorageV3} {loc result : AccountStorageV3}
    (done : mergeAccountSnapshot base current loc = .ok result) :
    (base = none ∧ current = none ∧ result = loc) ∨
      mergeDocuments (base.getD emptyStorage) (current.getD emptyStorage) loc = .ok result := by
  cases current with
  | some current => exact .inr (by cases base <;> simpa [mergeAccountSnapshot] using done)
  | none =>
    cases base with
    | none => simp only [mergeAccountSnapshot,Except.ok.injEq] at done; exact .inl ⟨rfl,rfl,done.symm⟩
    | some base =>
      simp only [mergeAccountSnapshot,Option.getD_some] at done
      split at done
      · exact .inr done
      · cases done

end
end CodexMultiAuth
