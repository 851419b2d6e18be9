import Mathlib.Algebra.BigOperators.Ring.Finset
import CodexMultiAuth.Normalize

/-!
Importing accounts into the stored ones. The two lists are joined and deduplicated; the
pin is looked up again by identity, while the active positions are kept as they are and
the counts are those of the lengths.
-/
namespace CodexMultiAuth
open Option
set_option linter.unusedSectionVars false

/-- No smaller argument has the same value. -/
def First (f : Nat → Nat) (k : Nat) : Prop := ∀ j < k, f j ≠ f k

instance (f : Nat → Nat) (k : Nat) : Decidable (First f k) := inferInstanceAs (Decidable (∀ j < k, _))

/-- How many of the first arguments satisfy a property. -/
def countUpTo (n : Nat) (p : Nat → Prop) [DecidablePred p] : Nat := ((Finset.range n).filter p).card

theorem countUpTo_first {f : Nat → Nat} {n m : Nat} (inside : ∀ k < n, f k < m) (reaches : ∀ s < m, ∃ k < n, f k = s) :
    countUpTo n (First f) = m := by
  rw [countUpTo,← Finset.card_range m]
  apply Finset.card_bij (fun k _ => f k)
  · intro k member
    exact Finset.mem_range.mpr (inside k (Finset.mem_range.mp (Finset.mem_filter.mp member).1))
  · intro j first k second same
    have first := (Finset.mem_filter.mp first).2
    have second := (Finset.mem_filter.mp second).2
    obtain less | equal | more := lt_trichotomy j k
    · exact absurd same (second j less)
    · exact equal
    · exact absurd same.symm (first k more)
  · intro s member
    have found := reaches s (Finset.mem_range.mp member)
    refine ⟨Nat.find found,Finset.mem_filter.mpr ⟨Finset.mem_range.mpr (Nat.find_spec found).1,?_⟩,(Nat.find_spec found).2⟩
    intro j less same
    exact Nat.find_min found less ⟨less.trans (Nat.find_spec found).1,same.trans (Nat.find_spec found).2⟩

/-- What satisfies the first property and what is added by the second are together what satisfies either. -/
theorem countUpTo_exchange (n : Nat) (p q : Nat → Prop) [DecidablePred p] [DecidablePred q] :
    countUpTo n p + countUpTo n (fun k => q k ∧ ¬ p k) = countUpTo n q + countUpTo n (fun k => p k ∧ ¬ q k) := by
  simp only [countUpTo,Finset.card_filter,← Finset.sum_add_distrib]
  refine Finset.sum_congr rfl (fun k _ => ?_)
  by_cases first : p k <;> by_cases second : q k <;> simp [first,second]

theorem countUpTo_split {n m : Nat} (below : n ≤ m) (p : Nat → Prop) [DecidablePred p] :
    countUpTo m p = countUpTo n p + countUpTo m (fun k => n ≤ k ∧ p k) := by
  have cover : (Finset.range m).filter p = (Finset.range n).filter p ∪ (Finset.range m).filter (fun k => n ≤ k ∧ p k) := by
    ext k
    simp only [Finset.mem_filter,Finset.mem_range,Finset.mem_union]
    constructor
    · rintro ⟨inside,holds⟩
      by_cases early : k < n
      · exact Or.inl ⟨early,holds⟩
      · exact Or.inr ⟨inside,Nat.not_lt.mp early,holds⟩
    · rintro (⟨early,holds⟩ | ⟨inside,-,holds⟩)
      · exact ⟨early.trans_le below,holds⟩
      · exact ⟨inside,holds⟩
  rw [countUpTo,cover,Finset.card_union_of_disjoint]
  · rfl
  · rw [Finset.disjoint_left]
    intro k early late
    have early := Finset.mem_range.mp (Finset.mem_filter.mp early).1
    have late := (Finset.mem_filter.mp late).2.1
    omega

section
variable [Host]

theorem length_slotsFrom (survivors rows : List AccountMetadataV3) : (slotsFrom survivors rows).length = rows.length := by
  induction rows generalizing survivors with
  | nil => rfl
  | cons account rows ih => simp [slotsFrom,ih]

theorem slotsFrom_reaches {rows survivors : List AccountMetadataV3} {s : Nat} (here : s < (rows.foldl linearStep survivors).length) :
    (s < survivors.length ∧ (rows.foldl linearStep survivors)[s]? = survivors[s]?) ∨
      ∃ i : Nat, (slotsFrom survivors rows)[i]? = some s ∧ (rows.foldl linearStep survivors)[s]? = rows[i]? := by
  induction rows generalizing survivors with
  | nil => exact Or.inl ⟨here,rfl⟩
  | cons account rows ih =>
    rw [List.foldl_cons] at here ⊢
    obtain ⟨inside,same⟩ | ⟨i,slot,same⟩ := ih here
    · rcases linearStep_cases survivors account with ⟨unmatched,step⟩ | ⟨k,current,matched,place,-,step⟩
      · rw [step] at inside same
        rw [step]
        obtain early | last := Nat.lt_or_eq_of_le (Nat.le_of_lt_succ (by simpa using inside : s < survivors.length + 1))
        · exact Or.inl ⟨early,same.trans (List.getElem?_append_left early)⟩
        · refine Or.inr ⟨0,by simp [slotsFrom,unmatched,last],same.trans ?_⟩
          rw [last]
          simp
      · rw [step] at inside same
        rw [step]
        rw [List.length_set] at inside
        by_cases own : k = s
        · subst own
          rw [List.getElem?_set_self inside] at same
          by_cases kept : selectsCandidate current account = true
          · refine Or.inr ⟨0,by simp [slotsFrom,matched],?_⟩
            rw [same,if_pos kept]
            rfl
          · refine Or.inl ⟨inside,?_⟩
            rw [same,if_neg kept,place]
        · exact Or.inl ⟨inside,same.trans (List.getElem?_set_ne own)⟩
    · exact Or.inr ⟨i + 1,by simpa [slotsFrom] using slot,by simpa using same⟩

theorem slotsFrom_lt {rows survivors : List AccountMetadataV3} {i s : Nat} (slot : (slotsFrom survivors rows)[i]? = some s) :
    s < (rows.foldl linearStep survivors).length := by
  have grows : ∀ (rows survivors : List AccountMetadataV3), survivors.length ≤ (rows.foldl linearStep survivors).length := by
    intro rows
    induction rows with
    | nil => exact fun _ => Nat.le_refl _
    | cons account rows ih => exact fun survivors => (length_linearStep survivors account).1.trans (ih _)
  induction rows generalizing survivors i with
  | nil => simp [slotsFrom] at slot
  | cons account rows ih =>
    cases i with
    | succ i => exact ih (by simpa [slotsFrom] using slot)
    | zero =>
      refine lt_of_lt_of_le ?_ (grows rows (linearStep survivors account))
      rcases linearStep_cases survivors account with ⟨unmatched,step⟩ | ⟨k,current,matched,place,-,step⟩
      · simp only [slotsFrom,unmatched,getD_none,List.getElem?_cons_zero,Option.some.injEq] at slot
        rw [step,← slot]
        simp
      · simp only [slotsFrom,matched,getD_some,List.getElem?_cons_zero,Option.some.injEq] at slot
        rw [step,List.length_set,← slot]
        exact (List.getElem?_eq_some_iff.mp place).1

variable (rows : List AccountMetadataV3)

theorem slotOf_lt (i : Nat) (inside : i < rows.length) : slotOf rows i < (linearPass rows).length := by
  have known : i < (slotsFrom [] rows).length := by rw [length_slotsFrom]; exact inside
  have slot : (slotsFrom [] rows)[i]? = some (slotsFrom [] rows)[i] := List.getElem?_eq_getElem known
  have same : slotOf rows i = (slotsFrom [] rows)[i] := by rw [slotOf,slot,getD_some]
  rw [same]
  exact slotsFrom_lt slot

theorem slotOf_reaches (s : Nat) (here : s < (linearPass rows).length) :
    ∃ i, i < rows.length ∧ slotOf rows i = s ∧ (linearPass rows)[s]? = rows[i]? := by
  obtain ⟨inside,-⟩ | ⟨i,slot,same⟩ := slotsFrom_reaches here
  · exact absurd inside (Nat.not_lt_zero s)
  · have known := (List.getElem?_eq_some_iff.mp slot).1
    rw [length_slotsFrom] at known
    exact ⟨i,known,by rw [slotOf,slot,getD_some],same⟩

/-- The row of the result that a row is deduplicated into: the place of its group. -/
def groupOf (rows : List AccountMetadataV3) (i : Nat) : Nat :=
  ((dedupInputs rows).map slotOf).foldl (fun j move => move j) i

theorem groupOf_eq (i : Nat) :
    groupOf rows i = Passes.follow linearPass slotOf (rows.length + 1) (linearPass rows) (slotOf rows i) := rfl

variable {rows : List AccountMetadataV3}

theorem groupOf_lt {i : Nat} (inside : i < rows.length) : groupOf rows i < (deduplicateAccounts rows).length := by
  rw [groupOf_eq,deduplicateAccounts_eq]
  exact Passes.follow_lt slotOf_lt (slotOf_lt rows i inside)

theorem groupOf_reaches {s : Nat} (here : s < (deduplicateAccounts rows).length) :
    ∃ i, i < rows.length ∧ groupOf rows i = s ∧ (deduplicateAccounts rows)[s]? = rows[i]? := by
  rw [deduplicateAccounts_eq] at here ⊢
  obtain ⟨j,inside,moved,same⟩ := Passes.follow_reaches slotOf_reaches here
  obtain ⟨i,begins,first,taken⟩ := slotOf_reaches rows j inside
  exact ⟨i,begins,by rw [groupOf_eq,first,moved],same.trans taken⟩

theorem length_deduplicateAccounts :
    (deduplicateAccounts rows).length = countUpTo rows.length (First (groupOf rows)) :=
  (countUpTo_first (fun _ inside => groupOf_lt inside) (fun _ here => by
    obtain ⟨i,inside,same,-⟩ := groupOf_reaches here
    exact ⟨i,inside,same⟩)).symm

/-- No row up to a position merges into an earlier one, in any pass. -/
def Unmoved (rows : List AccountMetadataV3) (p : Nat) : Prop :=
  ∀ l ∈ dedupInputs rows, ∀ j ≤ p, ∀ row, l[j]? = some row → findMatchingAccountIndex (l.take j) (AccountRow.toAccountLike row) = none

theorem groupOf_eq_self {p : Nat} (inside : p < rows.length) : groupOf rows p = p ↔ Unmoved rows p := by
  have early : ∀ move ∈ (dedupInputs rows).map slotOf, ∀ i, move i ≤ i := by
    intro move member
    obtain ⟨l,-,rfl⟩ := List.mem_map.mp member
    exact slotOf_le l
  have fixed : groupOf rows p = p ↔ ∀ move ∈ (dedupInputs rows).map slotOf, move p = p := Passes.follow_eq_self early
  constructor
  · intro stays l member
    have long : p < l.length := by
      have within := groupOf_lt inside
      rw [stays] at within
      exact within.trans_le (length_dedupInputs member)
    exact (slotOf_eq_self long).mp (fixed.mp stays (slotOf l) (List.mem_map_of_mem member))
  · intro unmoved
    rw [fixed]
    intro move member
    obtain ⟨l,given,rfl⟩ := List.mem_map.mp member
    by_cases long : p < l.length
    · exact (slotOf_eq_self long).mpr (unmoved l given)
    · have nowhere : (slotsFrom [] l)[p]? = none := List.getElem?_eq_none (by rw [length_slotsFrom]; exact Nat.not_lt.mp long)
      rw [slotOf,nowhere,getD_none]

structure ImportResult where
  newStorage : AccountStorageV3
  imported : ℤ
  total : Nat
  skipped : ℤ

def existingAccounts (existing : Option AccountStorageV3) : List AccountMetadataV3 := (existing.map AccountStorageV3.accounts).getD []

def joinedAccounts (existing : Option AccountStorageV3) (imported : AccountStorageV3) : List AccountMetadataV3 :=
  existingAccounts existing ++ imported.accounts

def importResult (existing : Option AccountStorageV3) (imported : AccountStorageV3) : ImportResult :=
  let pinnedAccount := (existing.bind AccountStorageV3.pinnedAccountIndex).bind (item (existingAccounts existing))
  let deduplicatedAccounts := deduplicateAccounts (joinedAccounts existing imported)
  let deduplicatedExistingAccounts := deduplicateAccounts (existingAccounts existing)
  let importedCount : ℤ := deduplicatedAccounts.length - deduplicatedExistingAccounts.length
  { newStorage :=
      { accounts := deduplicatedAccounts
        activeIndex := (existing.map AccountStorageV3.activeIndex).getD 0
        activeIndexByFamily := existing.bind AccountStorageV3.activeIndexByFamily
        pinnedAccountIndex := pinnedAccount.bind (fun account =>
          (findMatchingAccountIndex deduplicatedAccounts (AccountRow.toAccountLike account)).map (fun index : Nat => (index : ℚ)))
        fields := OrderedMap.assign [("version",.num 3)] "affinityGeneration"
          ((existing.bind (fun existing => existing.fields.number "affinityGeneration")).map Json.num) }
    imported := importedCount
    total := deduplicatedAccounts.length
    skipped := imported.accounts.length - importedCount }

def mergeImportedAccounts (existing : Option AccountStorageV3) (imported : AccountStorageV3) (maxAccounts : Nat) : Except String ImportResult :=
  let merged := joinedAccounts existing imported
  if maxAccounts < merged.length ∧ maxAccounts < (deduplicateAccounts merged).length then
    .error ("Import would exceed maximum of " ++ toString maxAccounts ++ " accounts (would have " ++
      toString (deduplicateAccounts merged).length ++ ")")
  else .ok (importResult existing imported)

theorem mergeImportedAccounts_small {existing : Option AccountStorageV3} {imported : AccountStorageV3} {maxAccounts : Nat}
    (small : (joinedAccounts existing imported).length ≤ maxAccounts) :
    mergeImportedAccounts existing imported maxAccounts = .ok (importResult existing imported) :=
  if_neg (fun full => absurd full.1 (Nat.not_lt.mpr small))

/-! ### What an import keeps -/

variable (existing : Option AccountStorageV3) (imported : AccountStorageV3)

/-- Each selection is on the row that its account was deduplicated into, every row is in a
    group of the result, and the counts are those of the imported rows. -/
structure ImportKeeps (result : ImportResult) : Prop where
  active : ∀ stored ∈ existing, ∀ i < stored.accounts.length, stored.activeIndex = i →
    result.newStorage.activeIndex = groupOf (joinedAccounts existing imported) i
  families : ∀ stored ∈ existing, ∀ families ∈ stored.activeIndexByFamily, ∀ family, ∀ i < stored.accounts.length,
    OrderedMap.find families family = some (i : ℚ) → ∃ kept ∈ result.newStorage.activeIndexByFamily,
      OrderedMap.find kept family = some (groupOf (joinedAccounts existing imported) i : ℚ)
  pin : ∀ index ∈ result.newStorage.pinnedAccountIndex, ∃ stored ∈ existing, ∃ i < stored.accounts.length,
    stored.pinnedAccountIndex = some (i : ℚ) ∧ index = groupOf (joinedAccounts existing imported) i
  represented : ∀ k < (joinedAccounts existing imported).length, ∃ j < (joinedAccounts existing imported).length,
    groupOf (joinedAccounts existing imported) j = groupOf (joinedAccounts existing imported) k ∧
      ∃ row, result.newStorage.accounts[groupOf (joinedAccounts existing imported) k]? = some row ∧ (joinedAccounts existing imported)[j]? = some row
  counted : result.imported + result.skipped = imported.accounts.length
  nonnegative : 0 ≤ result.imported ∧ 0 ≤ result.skipped

/-- The existing rows that fall in with an earlier one only because of the import. -/
def lostRows : Nat := countUpTo (existingAccounts existing).length (fun k =>
  First (groupOf (existingAccounts existing)) k ∧ ¬ First (groupOf (joinedAccounts existing imported)) k)

def freedRows : Nat := countUpTo (existingAccounts existing).length (fun k =>
  First (groupOf (joinedAccounts existing imported)) k ∧ ¬ First (groupOf (existingAccounts existing)) k)

def newRows : Nat := countUpTo (joinedAccounts existing imported).length (fun k =>
  (existingAccounts existing).length ≤ k ∧ First (groupOf (joinedAccounts existing imported)) k)

/-- When an import keeps all of it: nothing at or before an active position moves, the pinned
    record matches no row but that of its group, and no more rows are lost than are gained. -/
structure ImportFits : Prop where
  active : ∀ stored ∈ existing, ∀ i < stored.accounts.length, stored.activeIndex = i → Unmoved (joinedAccounts existing imported) i
  families : ∀ stored ∈ existing, ∀ families ∈ stored.activeIndexByFamily, ∀ family, ∀ i < stored.accounts.length,
    OrderedMap.find families family = some (i : ℚ) → Unmoved (joinedAccounts existing imported) i
  pin : ∀ stored ∈ existing, ∀ (i : Nat) account, stored.accounts[i]? = some account → stored.pinnedAccountIndex = some (i : ℚ) →
    ∀ j, findMatchingAccountIndex (deduplicateAccounts (joinedAccounts existing imported)) (AccountRow.toAccountLike account) = some j →
      j = groupOf (joinedAccounts existing imported) i
  lost : lostRows existing imported ≤ freedRows existing imported + newRows existing imported
  gained : freedRows existing imported + newRows existing imported ≤ lostRows existing imported + imported.accounts.length

theorem length_merged_add : (deduplicateAccounts (joinedAccounts existing imported)).length + lostRows existing imported =
    (deduplicateAccounts (existingAccounts existing)).length + freedRows existing imported + newRows existing imported := by
  have below : (existingAccounts existing).length ≤ (joinedAccounts existing imported).length := by
    rw [joinedAccounts,List.length_append]
    exact Nat.le_add_right _ _
  have exchange := countUpTo_exchange (existingAccounts existing).length (First (groupOf (existingAccounts existing)))
    (First (groupOf (joinedAccounts existing imported)))
  rw [length_deduplicateAccounts,length_deduplicateAccounts,countUpTo_split below]
  unfold lostRows freedRows newRows
  omega

variable {existing imported}

theorem inside_merged {stored : AccountStorageV3} (present : existing = some stored) {i : Nat} (inside : i < stored.accounts.length) :
    i < (joinedAccounts existing imported).length := by
  rw [joinedAccounts,List.length_append,existingAccounts,present]
  exact Nat.lt_of_lt_of_le inside (Nat.le_add_right _ _)

theorem selected_iff {stored : AccountStorageV3} (present : existing = some stored) {i : Nat} (inside : i < stored.accounts.length) :
    (i : ℚ) = groupOf (joinedAccounts existing imported) i ↔ Unmoved (joinedAccounts existing imported) i := by
  rw [← groupOf_eq_self (inside_merged present inside),Nat.cast_inj,eq_comm]

theorem mergeImportedAccounts_keeps_iff {maxAccounts : Nat} {result : ImportResult}
    (merged : mergeImportedAccounts existing imported maxAccounts = .ok result) :
    ImportKeeps existing imported result ↔ ImportFits existing imported := by
  have lengths := length_merged_add existing imported
  unfold mergeImportedAccounts at merged
  dsimp only at merged
  split_ifs at merged with full
  obtain rfl := Except.ok.inj merged
  unfold importResult
  constructor
  · intro keeps
    obtain ⟨imports,skips⟩ := keeps.nonnegative
    dsimp only at imports skips
    refine ⟨?_,?_,?_,by omega,by omega⟩
    · intro stored present i inside active
      have kept := keeps.active stored present i inside active
      obtain rfl : existing = some stored := present
      apply (selected_iff rfl inside).mp
      rw [← kept]
      exact active.symm
    · intro stored present families known family i inside found
      obtain ⟨kept,still,moved⟩ := keeps.families stored present families known family i inside found
      obtain rfl : existing = some stored := present
      obtain rfl : families = kept := Option.some.inj (known.symm.trans still)
      exact (selected_iff rfl inside).mp (Option.some.inj (found.symm.trans moved))
    · intro stored present i account here pinned j matched
      obtain rfl : existing = some stored := present
      obtain ⟨other,same,k,inside,pin,moved⟩ := keeps.pin j (by
        simp only [bind_some,map_some,pinned,existingAccounts,getD_some,item_natCast,here,matched,mem_def])
      obtain rfl : stored = other := Option.some.inj same
      obtain rfl : i = k := by exact_mod_cast Option.some.inj (pinned.symm.trans pin)
      exact_mod_cast moved
  · intro fits
    refine ⟨?_,?_,?_,?_,?_,?_⟩
    · intro stored present i inside active
      have unmoved := fits.active stored present i inside active
      obtain rfl : existing = some stored := present
      exact active.trans ((selected_iff rfl inside).mpr unmoved)
    · intro stored present families known family i inside found
      have unmoved := fits.families stored present families known family i inside found
      obtain rfl : existing = some stored := present
      exact ⟨families,known,found.trans (congrArg some ((selected_iff rfl inside).mpr unmoved))⟩
    · intro index pinned
      cases existing with
      | none => cases pinned
      | some stored =>
        simp only [bind_some,mem_def,bind_eq_some_iff,map_eq_some_iff] at pinned
        obtain ⟨account,⟨position,pin,here⟩,j,matched,rfl⟩ := pinned
        obtain ⟨i,rfl,here⟩ := item_some here
        have inside := (List.getElem?_eq_some_iff.mp here).1
        exact ⟨stored,rfl,i,inside,pin,by rw [fits.pin stored rfl i account here pin j matched]⟩
    · intro k inside
      have placed := groupOf_lt inside
      obtain ⟨j,known,same,row⟩ := groupOf_reaches placed
      refine ⟨j,known,same,(deduplicateAccounts (joinedAccounts existing imported))[groupOf (joinedAccounts existing imported) k],
        List.getElem?_eq_getElem placed,?_⟩
      rw [← row]
      exact List.getElem?_eq_getElem placed
    · dsimp only
      omega
    · have lost := fits.lost
      have gained := fits.gained
      dsimp only
      omega

end

section
attribute [local instance] asciiHost

/-- Two rows with nothing in common but a row that is imported, and two more. -/
def bridged : AccountStorageV3 where
  accounts :=
    [[("email",.str "e"),("refreshToken",.str "x")],[("refreshToken",.str "y")],[("accountId",.str "C"),("refreshToken",.str "c")],
      [("accountId",.str "D"),("refreshToken",.str "d")]]
  activeIndex := 2

/-- The row that has the email of one and the refresh token of the other, and is newer. -/
def bridge : AccountStorageV3 where
  accounts := [[("email",.str "e"),("refreshToken",.str "y"),("lastUsed",.num 1)]]
  activeIndex := 0

theorem bridged_merged : deduplicateAccounts (joinedAccounts (some bridged) bridge) =
    bridge.accounts ++ bridged.accounts.drop 2 := by
  rw [deduplicateAccounts_eq]
  decide

theorem bridged_alone : deduplicateAccounts (existingAccounts (some bridged)) = bridged.accounts := by
  rw [deduplicateAccounts_eq]
  decide

/-- The selection of `C` becomes one of `D`, and one row fewer than none is imported. -/
theorem bridge_moves_selection : ∃ result, mergeImportedAccounts (some bridged) bridge 20 = .ok result ∧
    (item bridged.accounts bridged.activeIndex).bind AccountMetadataV3.accountId = some "C" ∧
    (item result.newStorage.accounts result.newStorage.activeIndex).bind AccountMetadataV3.accountId = some "D" ∧
    ¬ ImportKeeps (some bridged) bridge result := by
  refine ⟨_,mergeImportedAccounts_small (by decide),by decide,?_,fun keeps => ?_⟩
  · rw [importResult,bridged_merged]
    decide
  · have imported := keeps.nonnegative.1
    rw [importResult,bridged_merged,bridged_alone] at imported
    exact absurd imported (by decide)

/-- Two accounts, of which one is selected and the other pinned. -/
def pair : AccountStorageV3 where
  accounts := [[("refreshToken",.str "a")],[("refreshToken",.str "b")]]
  activeIndex := 1
  pinnedAccountIndex := some 0

def arrivals : AccountStorageV3 where
  accounts := [[("refreshToken",.str "b"),("lastUsed",.num 1)],[("refreshToken",.str "c")]]
  activeIndex := 0

theorem fresh_import_keeps : ImportKeeps (some pair) arrivals (importResult (some pair) arrivals) := by
  have merged : deduplicateAccounts (joinedAccounts (some pair) arrivals) = pair.accounts.take 1 ++ arrivals.accounts := by
    rw [deduplicateAccounts_eq]
    decide
  refine (mergeImportedAccounts_keeps_iff (mergeImportedAccounts_small (show _ ≤ 20 by decide))).mpr ⟨?_,?_,?_,by decide +kernel,by decide +kernel⟩
  · rintro stored ⟨rfl⟩ i inside active
    obtain rfl : i = 1 := by exact_mod_cast (show (1 : ℚ) = i from active).symm
    exact (groupOf_eq_self (by decide)).mp (by decide +kernel)
  · rintro stored ⟨rfl⟩ families ⟨⟩
  · rintro stored ⟨rfl⟩ i account here pinned j matched
    obtain rfl : i = 0 := by exact_mod_cast (Option.some.inj pinned).symm
    obtain rfl := Option.some.inj here
    rw [merged] at matched
    exact (Option.some.inj matched).symm.trans (by decide +kernel)

end
end CodexMultiAuth
