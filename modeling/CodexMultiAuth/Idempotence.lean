import CodexMultiAuth.Normalize

/-!
Normalizing twice. Deduplication ends where every row is apart from the rows
before it, and among such rows each one is found at its own place, so every
selection stays where the first run resolved it.
-/
namespace CodexMultiAuth
open List
set_option linter.unusedSectionVars false

theorem clampIndex_natCast {i length : Nat} (inside : i < length) : clampIndex i length = i := by
  have whole : truncate (i : ℚ) = i := by simp [truncate]
  unfold clampIndex
  rw [if_neg (by omega),whole]
  omega

theorem clampIndex_lt {length : Nat} (present : 0 < length) (index : ℚ) : clampIndex index length < length := by
  unfold clampIndex
  rw [if_neg (by omega)]
  omega

section
variable {T : Type} [AccountRow T] [Host]

/-- No row matches an earlier one. -/
def Apart (rows : List T) : Prop :=
  ∀ j row, rows[j]? = some row → findMatchingRefIndex (rows.take j) (identityRef row) false = none

theorem linearPass_stable {rows : List T} (stable : (linearPass rows).length = rows.length) : linearPass rows = rows ∧ Apart rows := by
  have general : ∀ (rows survivors : List T), (rows.foldl linearStep survivors).length = survivors.length + rows.length →
      rows.foldl linearStep survivors = survivors ++ rows ∧
        ∀ j row, rows[j]? = some row → findMatchingRefIndex (survivors ++ rows.take j) (identityRef row) false = none := by
    intro rows
    induction rows with
    | nil => intro survivors _; simp
    | cons account rows ih =>
      intro survivors whole
      simp only [foldl_cons,length_cons] at whole ⊢
      have bound := length_foldl_linearStep rows (linearStep survivors account)
      rcases linearStep_cases survivors account with ⟨unmatched,step⟩ | ⟨i,current,-,-,-,step⟩
      · rw [step] at whole ⊢
        obtain ⟨same,apart⟩ := ih (survivors ++ [account]) (by rw [whole]; simp; omega)
        refine ⟨by rw [same]; simp,fun j row found => ?_⟩
        cases j with
        | zero =>
          simp only [List.getElem?_cons_zero,Option.some.injEq] at found
          subst found
          simpa [findMatchingAccountIndex,identityRef] using unmatched
        | succ j => simpa using apart j row (by simpa using found)
      · -- A merge would leave the result shorter.
        rw [step,length_set] at bound
        rw [step] at whole
        omega
  obtain ⟨same,apart⟩ := general rows [] (by simpa [linearPass] using stable)
  exact ⟨by simpa [linearPass] using same,fun j row found => by simpa using apart j row found⟩

theorem deduplicateAccounts_apart (accounts : List T) :
    Apart (deduplicateAccounts accounts) ∧ linearPass (deduplicateAccounts accounts) = deduplicateAccounts accounts := by
  obtain ⟨last,result,stable⟩ := deduplicateAccounts_stable accounts
  obtain ⟨same,apart⟩ := linearPass_stable stable
  rw [result,same]
  exact ⟨apart,same⟩

theorem deduplicateAccounts_idem (accounts : List T) : deduplicateAccounts (deduplicateAccounts accounts) = deduplicateAccounts accounts := by
  have fixed := (deduplicateAccounts_apart accounts).2
  rw [deduplicateAccounts_eq (deduplicateAccounts accounts),fixed,Passes.untilStable,fixed,if_pos rfl]

private theorem countP_le_one {α : Type} {p : α → Bool} {l : List α} {i : Nat} (sole : ∀ j x, l[j]? = some x → p x = true → j = i) :
    l.countP p ≤ 1 := by
  induction l generalizing i with
  | nil => simp
  | cons x l ih =>
    rw [countP_cons]
    by_cases here : p x = true
    · have first : 0 = i := sole 0 x rfl here
      have rest : l.countP p = 0 := by
        rw [countP_eq_zero]
        intro y member holds
        obtain ⟨j,found⟩ := mem_iff_getElem?.mp member
        have := sole (j + 1) y (by simpa using found) holds
        omega
      rw [rest,if_pos here]
    · rw [if_neg here]
      refine @ih (i - 1) (fun j y found holds => ?_)
      have := sole (j + 1) y (by simpa using found) holds
      omega

/-! ### Each row is found at its own place -/

section
variable {rows : List T} (apart : Apart rows) {i : Nat} {row : T} (here : rows[i]? = some row)
include apart

private theorem Apart.tiers {j : Nat} {row : T} (found : rows[j]? = some row) :
    findCompositeAccountMatchIndex (rows.take j) (identityRef row) = none ∧
      findSafeEmailMatchIndex (rows.take j) (identityRef row) = none ∧
      findCompatibleRefreshTokenMatchIndex (rows.take j) (identityRef row) = none := by
  have unmatched := apart j row found
  simp only [findMatchingRefIndex,Option.or_eq_none_iff] at unmatched
  exact ⟨unmatched.1.1,unmatched.1.2.1,unmatched.1.2.2⟩

private theorem Apart.composite_earlier {a b : Nat} {first second : T} (foundA : rows[a]? = some first) (foundB : rows[b]? = some second)
    (order : a < b) (id : (identityRef first).accountId = (identityRef second).accountId)
    (email : (identityRef first).emailKey = (identityRef second).emailKey) (both : (identityRef second).accountId.isSome)
    (mail : (identityRef second).emailKey.isSome) : False := by
  have unmatched := (apart.tiers foundB).1
  rw [findCompositeAccountMatchIndex,if_neg (by simp [Option.isSome_iff_ne_none.mp both,Option.isSome_iff_ne_none.mp mail]),
    findNewest_eq_none] at unmatched
  have member : first ∈ rows.take b := mem_of_getElem? (i := a) (by rw [List.getElem?_take_of_lt order]; exact foundA)
  simpa [id,email] using unmatched first member

include here

variable {k : Nat}

private theorem Apart.composite (found : findCompositeAccountMatchIndex rows (identityRef row) = some k) : k = i := by
  unfold findCompositeAccountMatchIndex at found
  split at found
  · cases found
  · rename_i complete
    simp only [Bool.or_eq_true,Option.isNone_iff_eq_none,not_or,← Option.isSome_iff_ne_none] at complete
    obtain ⟨other,there,holds,-⟩ := findNewest_eq_some.mp found
    simp only [Bool.and_eq_true,decide_eq_true_eq] at holds
    rcases Nat.lt_trichotomy k i with before | same | after
    · exact absurd (apart.composite_earlier there here before holds.1 holds.2 complete.1 complete.2) id
    · exact same
    · exact absurd (apart.composite_earlier here there after holds.1.symm holds.2.symm (holds.1 ▸ complete.1) (holds.2 ▸ complete.2)) id

private theorem Apart.email (found : findSafeEmailMatchIndex rows (identityRef row) = some k) : k = i := by
  cases key : (identityRef row).emailKey with
  | none => simp [findSafeEmailMatchIndex,key] at found
  | some e =>
    obtain ⟨agreed,disagreed⟩ := safeEmail_eq rows key
    by_cases agree : Agreeing ((identityRef row).accountId ::
        ((rows.map identityRef).filter (fun ref => decide (ref.emailKey = some e))).map AccountIdentityRef.accountId)
    · rw [agreed agree] at found
      obtain ⟨other,there,holds,-⟩ := findNewest_eq_some.mp found
      simp only [decide_eq_true_eq] at holds
      have owner : ∀ {j : Nat} {one : T}, rows[j]? = some one → (identityRef one).emailKey = some e → ∀ {id : String},
          (identityRef one).accountId = some id →
          some id ∈ (identityRef row).accountId ::
            ((rows.map identityRef).filter (fun ref => decide (ref.emailKey = some e))).map AccountIdentityRef.accountId := by
        intro j one at_ owns id known
        refine mem_cons_of_mem _ (mem_map.mpr ⟨identityRef one,mem_filter.mpr ⟨?_,by simp [owns]⟩,known⟩)
        exact mem_map_of_mem (mem_of_getElem? at_)
      have clash : ∀ {a b : Nat} {first second : T}, rows[a]? = some first → rows[b]? = some second → a < b →
          (identityRef first).emailKey = some e → (identityRef second).emailKey = some e → False := by
        intro a b first second foundA foundB order ownsA ownsB
        have unmatched := (apart.tiers foundB).2.1
        have sub : Agreeing ((identityRef second).accountId ::
            (((rows.take b).map identityRef).filter (fun ref => decide (ref.emailKey = some e))).map AccountIdentityRef.accountId) := by
          have inside : ∀ {id}, some id ∈ (identityRef second).accountId ::
              (((rows.take b).map identityRef).filter (fun ref => decide (ref.emailKey = some e))).map AccountIdentityRef.accountId →
              some id ∈ (identityRef row).accountId ::
                ((rows.map identityRef).filter (fun ref => decide (ref.emailKey = some e))).map AccountIdentityRef.accountId := by
            intro id member
            rcases mem_cons.mp member with own | others
            · exact owner foundB ownsB own.symm
            · obtain ⟨ref,kept,known⟩ := mem_map.mp others
              obtain ⟨there,owns⟩ := mem_filter.mp kept
              obtain ⟨one,member,rfl⟩ := mem_map.mp there
              obtain ⟨j,at_⟩ := mem_iff_getElem?.mp (mem_of_mem_take member)
              exact owner at_ (by simpa using owns) known
          intro x y memberX memberY
          exact agree x y (inside memberX) (inside memberY)
        rw [(safeEmail_eq (rows.take b) ownsB).1 sub,findNewest_eq_none] at unmatched
        have member : first ∈ rows.take b := mem_of_getElem? (i := a) (by rw [List.getElem?_take_of_lt order]; exact foundA)
        simpa [ownsA] using unmatched first member
      rcases Nat.lt_trichotomy k i with before | same | after
      · exact absurd (clash there here before holds key) id
      · exact same
      · exact absurd (clash here there after key holds) id
    · rw [disagreed agree] at found; cases found

private theorem Apart.refresh (found : findCompatibleRefreshTokenMatchIndex rows (identityRef row) = some k) : k = i := by
  cases key : (identityRef row).refreshToken with
  | none => simp [findCompatibleRefreshTokenMatchIndex,key] at found
  | some token =>
    rw [compatibleRefresh_eq rows key] at found
    split at found
    · cases found
    · rename_i fine
      rw [not_or] at fine
      obtain ⟨other,there,holds,-⟩ := findNewest_eq_some.mp found
      simp only [decide_eq_true_eq] at holds
      have earlier : ∀ {a : Nat} {first : T}, rows[a]? = some first → (identityRef first).refreshToken = some token → ¬ a < i := by
        intro a first foundA owns order
        have unmatched := (apart.tiers here).2.2
        rw [compatibleRefresh_eq (rows.take i) key,if_neg,findNewest_eq_none] at unmatched
        · have member : first ∈ rows.take i := mem_of_getElem? (i := a) (by rw [List.getElem?_take_of_lt order]; exact foundA)
          simpa [owns] using unmatched first member
        · rintro (⟨account,member,owned,bad⟩ | ⟨bare,many⟩)
          · exact fine.1 ⟨account,mem_of_mem_take member,owned,bad⟩
          · exact fine.2 ⟨bare,Nat.lt_of_lt_of_le many (List.Sublist.countP_le (take_sublist i rows))⟩
      rcases Nat.lt_trichotomy k i with before | same | after
      · exact absurd before (earlier there holds)
      · exact same
      · exfalso
        classical
        have present : ∃ b, i < b ∧ ∃ one, rows[b]? = some one ∧ (identityRef one).refreshToken = some token := ⟨k,after,other,there,holds⟩
        obtain ⟨order,one,foundB,owns⟩ := Nat.find_spec present
        have least := fun {m} => @Nat.find_min _ _ present m
        generalize Nat.find present = b at order foundB least
        have only : ∀ j x, (rows.take b)[j]? = some x → (identityRef x).refreshToken = some token → j = i ∧ x = row := by
          intro j x foundJ owned
          have inside : j < b := by
            by_contra outside
            rw [List.getElem?_take_eq_none (not_lt.mp outside)] at foundJ
            cases foundJ
          rw [List.getElem?_take_of_lt inside] at foundJ
          have notBefore := earlier foundJ owned
          have notBetween : ¬ i < j := fun between => least inside ⟨between,x,foundJ,owned⟩
          have place : j = i := by omega
          subst place
          exact ⟨rfl,Option.some.inj (foundJ.symm.trans here)⟩
        have unmatched := (apart.tiers foundB).2.2
        rw [compatibleRefresh_eq (rows.take b) owns,if_neg,findNewest_eq_none] at unmatched
        · have member : row ∈ rows.take b := mem_of_getElem? (i := i) (by rw [List.getElem?_take_of_lt order]; exact here)
          simpa [key] using unmatched row member
        · rintro (⟨account,member,owned,bad⟩ | ⟨-,many⟩)
          · obtain ⟨j,foundJ⟩ := mem_iff_getElem?.mp member
            obtain ⟨-,rfl⟩ := only j account foundJ owned
            -- Two rows contradict each other in both directions.
            refine fine.1 ⟨one,mem_of_getElem? foundB,owns,?_⟩
            simp only [contradicts,conflicts,Bool.or_eq_true,Bool.and_eq_true,decide_eq_true_eq] at bad ⊢
            rcases bad with ⟨⟨x,y⟩,z⟩ | ⟨⟨x,y⟩,z⟩
            · exact .inl ⟨⟨y,x⟩,Ne.symm z⟩
            · exact .inr ⟨⟨y,x⟩,Ne.symm z⟩
          · have few : (rows.take b).countP (fun account => decide ((identityRef account).refreshToken = some token)) ≤ 1 := by
              refine countP_le_one (i := i) (fun j x foundJ owned => ?_)
              exact (only j x foundJ (by simpa using owned)).1
            exact absurd many (not_lt.mpr few)

omit apart in
private theorem unique_own {allow : Bool} (found : findUniqueAccountIdMatchIndex rows (identityRef row) allow = some k) : k = i := by
  cases key : (identityRef row).accountId with
  | none => simp [findUniqueAccountIdMatchIndex,key] at found
  | some id =>
    obtain ⟨-,account,-,-,-,sole⟩ := (uniqueAccountId_eq_some key).mp found
    exact (sole i row here key).symm

theorem Apart.findsOwn {allow : Bool} (found : findMatchingRefIndex rows (identityRef row) allow = some k) : k = i := by
  simp only [findMatchingRefIndex,Option.or_eq_some_iff] at found
  rcases found with (composite | ⟨-,email | ⟨-,refresh⟩⟩) | ⟨-,unique⟩
  · exact apart.composite here composite
  · exact apart.email here email
  · exact apart.refresh here refresh
  · exact unique_own here unique

end
theorem Apart.resolve {rows : List T} (apart : Apart rows) {i : Nat} {row : T} (here : rows[i]? = some row) {candidate : AccountLike}
    (same : toAccountIdentityRef candidate = identityRef row) : resolveAccountSelectionIndex rows candidate i = i := by
  have inside := (List.getElem?_eq_some_iff.mp here).1
  unfold resolveAccountSelectionIndex
  rw [if_neg (by omega),findMatchingAccountIndex,same]
  cases found : findMatchingRefIndex rows (identityRef row) true with
  | none => exact clampIndex_natCast inside
  | some k => exact apart.findsOwn here found

theorem resolve_lt {rows : List T} (present : 0 < rows.length) (candidate : AccountLike) (fallback : ℚ) :
    resolveAccountSelectionIndex rows candidate fallback < rows.length := by
  unfold resolveAccountSelectionIndex
  rw [if_neg (by omega)]
  cases found : findMatchingAccountIndex rows candidate true with
  | none => exact clampIndex_lt present fallback
  | some k =>
    obtain ⟨account,there,-⟩ := findMatchingRefIndex_compatible found
    exact (List.getElem?_eq_some_iff.mp there).1

end

/-! ### Reading a normalized document again -/

def AccountStorageV3.toJson (s : AccountStorageV3) : Json :=
  let pointers := (s.activeIndexByFamily.map (fun map => map.map (fun entry => (entry.1,Json.num entry.2))))
  .obj (((((OrderedMap.put s.fields "accounts" (.arr (s.accounts.map .obj))).put "activeIndex" (.num s.activeIndex)).assign
    "activeIndexByFamily" (pointers.map Json.obj)).assign "pinnedAccountIndex" (s.pinnedAccountIndex.map .num)).assign
      "restoreReason" (s.restoreReason.map .str))

theorem validAccount_valid {version now : ℚ} {raw : Json} {row : AccountMetadataV3} (valid : validAccount version now raw = some row)
    (later : ℚ) : validAccount 3 later (.obj row) = some row := by
  have settled : ∀ account : AccountMetadataV3, normalizeInvalidation (normalizeInvalidation account) = normalizeInvalidation account := by
    intro account
    unfold normalizeInvalidation
    split
    · rename_i marked
      simp only
    · have absent : Record.number ((OrderedMap.remove account "authInvalidatedAt").remove "authInvalidationErrorCode") "authInvalidatedAt" =
          none := by simp [Record.number]
      rw [if_neg (by rw [absent]; simp)]
      simp only [OrderedMap.remove,filter_filter]
      refine filter_congr (fun entry _ => ?_)
      cases decide (entry.1 = "authInvalidatedAt") <;> cases decide (entry.1 = "authInvalidationErrorCode") <;> rfl
  have token : ∀ account : AccountMetadataV3, (normalizeInvalidation account).refreshToken = account.refreshToken := by
    intro account
    unfold normalizeInvalidation
    split
    · rfl
    · simp [AccountMetadataV3.refreshToken,Record.text]
  cases raw with
  | obj fields =>
    simp only [validAccount] at valid
    generalize (if version = 1 then migrateV1ToV3 now fields else fields) = account at valid
    split at valid
    · cases valid
    · rename_i present
      rw [Option.some_inj] at valid
      subst valid
      simpa [validAccount,token,settled] using present
  | _ => cases valid

section
variable [Host]

theorem toAccountIdentityRef_refAsAccount [LawfulHost] (account : AccountLike) :
    toAccountIdentityRef (refAsAccount (toAccountIdentityRef account)) = toAccountIdentityRef account := by
  have trimmed : ∀ value : Option String, (value.bind (fun s => nonEmpty (trim s))).bind (fun s => nonEmpty (trim s)) =
      value.bind (fun s => nonEmpty (trim s)) := by
    intro value
    cases value with
    | none => rfl
    | some s =>
      simp only [Option.bind_some]
      by_cases blank : trim s = ""
      · simp [nonEmpty,blank]
      · simp [nonEmpty,blank,trim_trim]
  have mail : ∀ value : Option String, normalizeEmailKey (normalizeEmailKey value) = normalizeEmailKey value := by
    intro value
    cases value with
    | none => rfl
    | some s =>
      by_cases blank : trim s = ""
      · simp [normalizeEmailKey,nonEmpty,blank]
      · have solid := Host.toLowerCase_ne _ blank
        simp [normalizeEmailKey,nonEmpty,blank,LawfulHost.trim_toLowerCase,solid,LawfulHost.toLowerCase_idem]
  simp only [refAsAccount,toAccountIdentityRef,normalizeAccountIdKey,normalizeRefreshTokenKey,trimmed,mail]

/-- A document as normalization leaves it. -/
structure Normalized (s : AccountStorageV3) : Prop where
  valid : ∀ row ∈ s.accounts, ∀ now, validAccount 3 now (.obj row) = some row
  apart : Apart s.accounts
  deduplicated : deduplicateAccounts s.accounts = s.accounts
  /-- Every index is that of an account where there is one. -/
  active : ∃ i : Nat, s.activeIndex = i ∧ i < max 1 s.accounts.length
  family : ∃ index : String → Nat, s.activeIndexByFamily = some (modelFamilies.map (fun family => (family,(index family : ℚ)))) ∧
    ∀ family, index family < max 1 s.accounts.length
  pinned : ∀ value, s.pinnedAccountIndex = some value → ∃ p : Nat, value = p ∧ p < s.accounts.length
  restoreReason : s.restoreReason = none
  fields : ∃ generation : Option ℚ, s.fields = OrderedMap.assign [("version",.num 3)] "affinityGeneration" (generation.map .num) ∧
    ∀ value, generation = some value → value.den = 1 ∧ 0 ≤ value ∧ value ≤ 9007199254740991

theorem resolve_inRange {T : Type} [AccountRow T] (rows : List T) (candidate : AccountLike) (fallback : ℚ) :
    resolveAccountSelectionIndex rows candidate fallback < max 1 rows.length := by
  rcases Nat.eq_zero_or_pos rows.length with empty | present
  · rw [resolveAccountSelectionIndex,if_pos empty]; omega
  · have := resolve_lt present candidate fallback
    omega

private theorem normalizePinnedAccountIndex_inRange {doc : Record} {accountCount : Nat} {value : ℚ}
    (found : normalizePinnedAccountIndex doc accountCount = some value) : ∃ p : Nat, value = p ∧ p < accountCount := by
  simp only [normalizePinnedAccountIndex,Option.bind_eq_some_iff] at found
  obtain ⟨raw,-,kept⟩ := found
  split at kept
  · cases kept
  · rename_i inside
    rw [not_or,not_lt,not_le] at inside
    have whole := Int.toNat_of_nonneg inside.1
    refine ⟨(truncate raw).toNat,?_,by omega⟩
    rw [← Option.some_inj.mp kept]
    exact_mod_cast whole.symm

private theorem normalizeAffinityGeneration_safe (doc : Record) : ∃ generation : Option ℚ,
    normalizeAffinityGeneration doc = generation.map .num ∧
      ∀ value, generation = some value → value.den = 1 ∧ 0 ≤ value ∧ value ≤ 9007199254740991 := by
  unfold normalizeAffinityGeneration
  cases doc.number "affinityGeneration" with
  | none => exact ⟨none,rfl,fun value found => by cases found⟩
  | some value =>
    rw [Option.bind_some]
    split
    · rename_i safe
      exact ⟨some value,rfl,fun other found => by cases found; exact safe⟩
    · exact ⟨none,rfl,fun value found => by cases found⟩

private theorem normalizeActiveIndexByFamily_inRange (version : ℚ) (doc : Record) (raws : List Json) (rawActiveIndex : Nat)
    (deduplicated : List AccountMetadataV3) : ∃ index : String → Nat,
      normalizeActiveIndexByFamily version doc raws rawActiveIndex deduplicated =
        modelFamilies.map (fun family => (family,(index family : ℚ))) ∧
      ∀ family, index family < max 1 deduplicated.length := by
  unfold normalizeActiveIndexByFamily
  exact ⟨fun family => _,rfl,fun family => resolve_inRange _ _ _⟩

variable {s : AccountStorageV3}

theorem normalizeAccountStorage_normalized {data : Json} {now : ℚ}
    (done : normalizeAccountStorage now data = some s) : Normalized s := by
  unfold normalizeAccountStorage at done
  split at done
  · simp only at done
    split at done
    · rename_i version raws versioned listed
      split at done
      · rw [Option.some_inj] at done
        subst done
        obtain ⟨index,families,inRange⟩ := normalizeActiveIndexByFamily_inRange version _ raws _
          (deduplicateAccounts (raws.filterMap (validAccount version now)))
        refine ⟨fun row member later => ?_,(deduplicateAccounts_apart _).1,deduplicateAccounts_idem _,⟨_,rfl,resolve_inRange _ _ _⟩,
          ⟨index,congrArg some families,inRange⟩,?_,rfl,?_⟩
        · obtain ⟨raw,-,valid⟩ := mem_filterMap.mp (mem_deduplicateAccounts member)
          exact validAccount_valid valid later
        · intro value found
          exact normalizePinnedAccountIndex_inRange found
        · obtain ⟨generation,same,safe⟩ := normalizeAffinityGeneration_safe _
          exact ⟨generation,congrArg (OrderedMap.assign [("version",Json.num 3)] "affinityGeneration") same,safe⟩
      · cases done
    · cases done
  · cases done

private theorem find_toJson {doc : Record} (read : s.toJson = .obj doc) {generation : Option ℚ}
    (fields : s.fields = OrderedMap.assign [("version",.num 3)] "affinityGeneration" (generation.map .num)) :
    doc.find "version" = some (.num 3) ∧ doc.find "accounts" = some (.arr (s.accounts.map .obj)) ∧
      doc.number "activeIndex" = some s.activeIndex ∧
      doc.record "activeIndexByFamily" = s.activeIndexByFamily.map (fun map => map.map (fun entry => (entry.1,Json.num entry.2))) ∧
      doc.number "pinnedAccountIndex" = s.pinnedAccountIndex ∧ doc.number "affinityGeneration" = generation := by
  simp only [AccountStorageV3.toJson,Json.obj.injEq] at read
  subst read
  rw [fields]
  refine ⟨by simp [OrderedMap.find_cons],by simp,by simp [Record.number,Json.asNumber],?_,?_,?_⟩
  · cases s.activeIndexByFamily <;> simp [Record.record,Json.asRecord]
  · cases s.pinnedAccountIndex <;> simp [Record.number,Json.asNumber]
  · cases generation <;> simp [Record.number,Json.asNumber]

private theorem resolve_stored [LawfulHost] {rows : List AccountMetadataV3} (apart : Apart rows) {i : Nat} (inRange : i < max 1 rows.length) :
    clampIndex i rows.length = i ∧
      resolveAccountSelectionIndex rows (refAsAccount (extractActiveAccountRef (rows.map .obj) i)) i = i := by
  rcases Nat.eq_zero_or_pos rows.length with empty | present
  · obtain rfl : i = 0 := by omega
    exact ⟨by rw [clampIndex,if_pos empty],by rw [resolveAccountSelectionIndex,if_pos empty]⟩
  · have inside : i < rows.length := by omega
    refine ⟨clampIndex_natCast inside,apart.resolve (List.getElem?_eq_getElem inside) ?_⟩
    have read : extractActiveAccountRef (rows.map .obj) i = toAccountIdentityRef (rows[i].toAccountLike) := by
      simp [extractActiveAccountRef,List.getElem?_eq_getElem inside]
    rw [read]
    exact toAccountIdentityRef_refAsAccount _

theorem Normalized.stable [LawfulHost] (normal : Normalized s) (now : ℚ) :
    normalizeAccountStorage now s.toJson = some s := by
  obtain ⟨valid,apart,deduplicated,⟨active,activeIs,activeIn⟩,⟨index,familyIs,familyIn⟩,pinned,reason,generation,fieldsAre,safe⟩ := normal
  obtain ⟨doc,read⟩ : ∃ doc : Record, s.toJson = .obj doc := ⟨_,rfl⟩
  obtain ⟨version,listed,activeRead,familyRead,pinRead,generationRead⟩ := find_toJson read fieldsAre
  have rows : deduplicateAccounts ((s.accounts.map Json.obj).filterMap (validAccount 3 now)) = s.accounts := by
    have each : ∀ row ∈ s.accounts, (validAccount 3 now ∘ Json.obj) row = some row := fun row member => valid row member now
    rw [filterMap_map,filterMap_congr each,filterMap_some,deduplicated]
  have kept : (resolveAccountSelectionIndex s.accounts (refAsAccount (extractActiveAccountRef (s.accounts.map .obj)
      (clampIndex ((doc.number "activeIndex").getD 0) (s.accounts.map Json.obj).length)))
        (clampIndex ((doc.number "activeIndex").getD 0) (s.accounts.map Json.obj).length) : ℚ) = s.activeIndex := by
    obtain ⟨clamped,resolved⟩ := resolve_stored apart activeIn
    rw [activeRead,Option.getD_some,activeIs,length_map,clamped,resolved]
  have families : normalizeActiveIndexByFamily 3 doc (s.accounts.map .obj)
      (clampIndex ((doc.number "activeIndex").getD 0) (s.accounts.map Json.obj).length) s.accounts =
        modelFamilies.map (fun family => (family,(index family : ℚ))) := by
    unfold normalizeActiveIndexByFamily
    refine map_congr_left (fun family member => ?_)
    have stored : Record.number ((doc.record "activeIndexByFamily").getD []) family = some (index family : ℚ) := by
      rw [familyRead,familyIs,Option.map_some,Option.getD_some,map_map,Record.number]
      have found := OrderedMap.find_mapKeys (fun family => Json.num (index family : ℚ)) modelFamilies family
      rw [if_pos member] at found
      exact (congrArg (fun value => Option.bind value Json.asNumber) found).trans rfl
    obtain ⟨clamped,resolved⟩ := resolve_stored apart (familyIn family)
    have three : ¬ (3 : ℚ) = 1 := by decide
    simp only [if_neg three,stored,Option.getD_some,length_map,clamped,resolved]
  have pin : normalizePinnedAccountIndex doc s.accounts.length = s.pinnedAccountIndex := by
    rw [normalizePinnedAccountIndex,pinRead]
    cases found : s.pinnedAccountIndex with
    | none => rfl
    | some value =>
      obtain ⟨p,rfl,inside⟩ := pinned value found
      have whole : truncate (p : ℚ) = p := by simp [truncate]
      rw [Option.bind_some,whole,if_neg (by omega)]
      simp
  have counted : normalizeAffinityGeneration doc = generation.map .num := by
    rw [normalizeAffinityGeneration,generationRead]
    cases known : generation with
    | none => rfl
    | some value => rw [Option.bind_some,if_pos (safe value known),Option.map_some]
  rw [read]
  simp only [normalizeAccountStorage,version,listed,or_true,if_true,rows,kept,families,pin,counted,← familyIs,← fieldsAre,← reason]

end

section
variable [Host] [LawfulHost]

/-- Normalizing a normalized document changes nothing, and a further pass of the
    deduplication merges nothing. -/
theorem normalizeAccountStorage_idem (now later : ℚ) (data : Json) (s : AccountStorageV3) (done : normalizeAccountStorage now data = some s) :
    normalizeAccountStorage later s.toJson = some s ∧ deduplicateAccountsByIdentityPass s.accounts = s.accounts := by
  have normal := normalizeAccountStorage_normalized done
  refine ⟨normal.stable later,?_⟩
  rw [pass_eq_linear,← normal.deduplicated]
  exact (deduplicateAccounts_apart s.accounts).2

end

section
attribute [local instance] asciiHost

private def migrated : Json :=
  .obj [("version",.num 1),("activeIndex",.num 2),("pinnedAccountIndex",.num 1),
    ("accounts",.arr [.obj [("email",.str "E@x"),("refreshToken",.str "r1"),("lastUsed",.num 1)],
      .obj [("accountId",.str "A"),("email",.str "e@x"),("refreshToken",.str "r2"),("lastUsed",.num 2),("rateLimitResetTime",.num 9)],
      .obj [("accountId",.str "B"),("refreshToken",.str "r3")]])]

/-- A version 1 document whose first two rows are one account, normalized twice. -/
theorem normalizeAccountStorage_idem_migrated : ∃ s, normalizeAccountStorage 0 migrated = some s ∧
    normalizeAccountStorage 5 s.toJson = some s ∧ deduplicateAccountsByIdentityPass s.accounts = s.accounts := by
  have present : (normalizeAccountStorage 0 migrated).isSome = true := by
    simp only [normalizeAccountStorage,migrated,deduplicateAccounts_eq]
    decide
  obtain ⟨s,done⟩ := Option.isSome_iff_exists.mp present
  exact ⟨s,done,@normalizeAccountStorage_idem asciiHost asciiHost_lawful 0 5 migrated s done⟩

end
end CodexMultiAuth
