import CodexMultiAuth.DedupIndex
import CodexMultiAuth.Passes

/-!
Deduplication repeats the pass until no row merges. The newest record of each
match is kept whole, so an account is lost only where it is matched with a record
that is at least as new and lacks an account id or an email (`pair_kept_or_displaced`).
-/
namespace CodexMultiAuth

open List

section
variable {T : Type} [AccountRow T] [Host]

/-- Every merge shortens the list, so as many passes as there are accounts suffice. -/
def deduplicateAccountsByIdentity (accounts : List T) : List T :=
  Passes.untilStable deduplicateAccountsByIdentityPass (accounts.length + 1) (deduplicateAccountsByIdentityPass accounts)

def deduplicateAccounts (accounts : List T) : List T := deduplicateAccountsByIdentity accounts

variable (accounts : List T)

theorem deduplicateAccounts_eq :
    deduplicateAccounts accounts = Passes.untilStable linearPass (accounts.length + 1) (linearPass accounts) := by
  have same : deduplicateAccountsByIdentityPass = (linearPass : List T → List T) := funext pass_eq_linear
  rw [deduplicateAccounts,deduplicateAccountsByIdentity,same]

theorem linearStep_cases (survivors : List T) (account : T) :
    (findMatchingAccountIndex survivors (AccountRow.toAccountLike account) = none ∧
      linearStep survivors account = survivors ++ [account]) ∨
    ∃ i current, findMatchingAccountIndex survivors (AccountRow.toAccountLike account) = some i ∧
      survivors[i]? = some current ∧ Compatible (identityRef account) (identityRef current) ∧
      linearStep survivors account = survivors.set i (if selectsCandidate current account then account else current) := by
  simp only [linearStep]
  cases matched : findMatchingAccountIndex survivors (AccountRow.toAccountLike account) with
  | none => exact .inl ⟨rfl,rfl⟩
  | some i =>
    obtain ⟨current,place,compatible⟩ := findMatchingRefIndex_compatible matched
    exact .inr ⟨i,current,rfl,place,compatible,by simp only [place,selectNewestAccount]⟩

theorem length_linearStep (survivors : List T) (account : T) :
    survivors.length ≤ (linearStep survivors account).length ∧
      (linearStep survivors account).length ≤ survivors.length + 1 := by
  rcases linearStep_cases survivors account with ⟨-,step⟩ | ⟨i,current,-,-,-,step⟩ <;> simp [step]

theorem mem_linearStep {survivors : List T} {account row : T} (member : row ∈ linearStep survivors account) :
    row ∈ survivors ∨ row = account := by
  rcases linearStep_cases survivors account with ⟨-,step⟩ | ⟨i,current,-,place,-,step⟩
  · rw [step] at member; simpa using member
  · rw [step] at member
    rcases mem_or_eq_of_mem_set member with old | new
    · exact .inl old
    · split at new
      · exact .inr new
      · exact .inl (new ▸ mem_of_getElem? place)

theorem length_foldl_linearStep (accounts survivors : List T) :
    (accounts.foldl linearStep survivors).length ≤ survivors.length + accounts.length := by
  induction accounts generalizing survivors with
  | nil => simp
  | cons account accounts ih =>
    have step := (length_linearStep survivors account).2
    have rest := ih (linearStep survivors account)
    simp only [foldl_cons,length_cons]; omega

theorem length_linearPass : (linearPass accounts).length ≤ accounts.length := by
  simpa [linearPass] using length_foldl_linearStep accounts []

theorem mem_linearPass {accounts : List T} {row : T} (member : row ∈ linearPass accounts) : row ∈ accounts := by
  have general : ∀ (accounts survivors : List T), row ∈ accounts.foldl linearStep survivors → row ∈ survivors ∨ row ∈ accounts := by
    intro accounts
    induction accounts with
    | nil => intro survivors member; exact .inl member
    | cons account accounts ih =>
      intro survivors member
      rcases ih _ member with old | new
      · rcases mem_linearStep old with old | rfl
        · exact .inl old
        · exact .inr (by simp)
      · exact .inr (mem_cons_of_mem _ new)
  simpa using general accounts [] member

theorem mem_deduplicateAccounts {accounts : List T} {row : T} (member : row ∈ deduplicateAccounts accounts) : row ∈ accounts := by
  rw [deduplicateAccounts_eq] at member
  have step : ∀ l : List T, (∀ row ∈ l, row ∈ accounts) → ∀ row ∈ linearPass l, row ∈ accounts :=
    fun l inside row member => inside row (mem_linearPass member)
  exact Passes.untilStable_invariant step (fun row member => mem_linearPass member) row member

theorem deduplicateAccounts_stable :
    ∃ last, deduplicateAccounts accounts = linearPass last ∧ (linearPass last).length = last.length := by
  rw [deduplicateAccounts_eq]
  have := length_linearPass accounts
  exact Passes.untilStable_stable length_linearPass (by omega)

/-! ### Which pairs survive -/

def CarriesPair (id email : String) (ref : AccountIdentityRef) : Prop := ref.accountId = some id ∧ ref.emailKey = some email

instance (id email : String) (ref : AccountIdentityRef) : Decidable (CarriesPair id email ref) :=
  inferInstanceAs (Decidable (_ ∧ _))

/-- A row that lacks an account id or an email and agrees with the pair otherwise. -/
def Shadows (id email : String) (ref : AccountIdentityRef) : Prop :=
  (ref.accountId = none ∨ ref.emailKey = none) ∧ Compatible ⟨some id,some email,none⟩ ref

instance (id email : String) (ref : AccountIdentityRef) : Decidable (Shadows id email ref) :=
  inferInstanceAs (Decidable (_ ∧ _ = false ∧ _ = false))

theorem carries_or_shadows {id email : String} {ref other : AccountIdentityRef} (carries : CarriesPair id email ref)
    (compatible : Compatible ref other) : CarriesPair id email other ∨ Shadows id email other := by
  simp only [Compatible,conflicts_eq_false,carries.1,carries.2,Option.some.injEq] at compatible
  have agrees : Compatible ⟨some id,some email,none⟩ other := by
    simp only [Compatible,conflicts_eq_false,Option.some.injEq]; exact compatible
  cases known : other.accountId with
  | none => exact .inr ⟨.inl known,agrees⟩
  | some a =>
    cases mail : other.emailKey with
    | none => exact .inr ⟨.inr mail,agrees⟩
    | some e =>
      refine .inl ⟨known.trans ?_,mail.trans ?_⟩
      · rw [compatible.1 id a rfl known]
      · rw [compatible.2 email e rfl mail]

def Carried (id email : String) (least : ℚ ×ₗ ℚ) (rows : List T) : Prop :=
  ∃ row ∈ rows, CarriesPair id email (identityRef row) ∧ least ≤ freshness row

/-- A row that has the pair is matched with an incomplete one, which is kept in its place. -/
def Displaces (id email : String) (survivors : List T) (account other : T) : Prop :=
  ∃ i current, findMatchingAccountIndex survivors (AccountRow.toAccountLike account) = some i ∧ survivors[i]? = some current ∧
    Shadows id email (identityRef other) ∧
    (CarriesPair id email (identityRef current) ∧ other = account ∧ selectsCandidate current account = true ∨
      CarriesPair id email (identityRef account) ∧ other = current ∧ selectsCandidate current account = false)

/-- This happens when a pass comes to some row of its list. -/
def DisplacesIn (id email : String) (rows : List T) (other : T) : Prop :=
  ∃ before account after, rows = before ++ account :: after ∧ Displaces id email (linearPass before) account other

/-- This happens in some pass. -/
def Displaced (accounts : List T) (id email : String) (other : T) : Prop :=
  ∃ rows ∈ accounts :: Passes.inputs linearPass (accounts.length + 1) (linearPass accounts), DisplacesIn id email rows other

variable {id email : String} {least : ℚ ×ₗ ℚ}

theorem DisplacesIn.mem {rows : List T} {other : T} (displaces : DisplacesIn id email rows other) : other ∈ rows := by
  obtain ⟨before,account,after,rfl,i,current,-,place,-,⟨-,rfl,-⟩ | ⟨-,rfl,-⟩⟩ := displaces
  · simp
  · exact mem_append_left _ (mem_linearPass (mem_of_getElem? place))

theorem carried_step {survivors : List T} {account : T}
    (carried : Carried id email least survivors ∨ CarriesPair id email (identityRef account) ∧ least ≤ freshness account) :
    Carried id email least (linearStep survivors account) ∨ ∃ other, Displaces id email survivors account other ∧ least ≤ freshness other := by
  rcases linearStep_cases survivors account with ⟨-,step⟩ | ⟨i,current,matched,place,compatible,step⟩
  · rw [step]
    rcases carried with ⟨row,member,holds⟩ | holds
    · exact .inl ⟨row,mem_append_left _ member,holds⟩
    · exact .inl ⟨account,by simp,holds⟩
  · have inside := (List.getElem?_eq_some_iff.mp place).1
    -- The winner of the slot carries the pair when either row did, or it displaces the other.
    have winner : CarriesPair id email (identityRef current) ∧ least ≤ freshness current ∨
        CarriesPair id email (identityRef account) ∧ least ≤ freshness account →
        Carried id email least (linearStep survivors account) ∨ ∃ other, Displaces id email survivors account other ∧ least ≤ freshness other := by
      intro either
      rw [step]
      by_cases selects : selectsCandidate current account = true
      · rw [if_pos selects]
        have newer := (selectsCandidate_iff _ _).mp selects
        rcases either with ⟨carries,fresh⟩ | holds
        · rcases carries_or_shadows carries (compatible_symm compatible) with same | shadow
          · exact .inl ⟨account,mem_set inside account,same,fresh.trans newer⟩
          · exact .inr ⟨account,⟨i,current,matched,place,shadow,.inl ⟨carries,rfl,selects⟩⟩,fresh.trans newer⟩
        · exact .inl ⟨account,mem_set inside account,holds⟩
      · rw [if_neg selects]
        have newer := selects
        rw [selectsCandidate_iff,not_le] at newer
        rcases either with holds | ⟨carries,fresh⟩
        · exact .inl ⟨current,mem_set inside current,holds⟩
        · rcases carries_or_shadows carries compatible with same | shadow
          · exact .inl ⟨current,mem_set inside current,same,fresh.trans newer.le⟩
          · exact .inr ⟨current,⟨i,current,matched,place,shadow,.inr ⟨carries,rfl,by simpa using selects⟩⟩,fresh.trans newer.le⟩
    rcases carried with ⟨row,member,holds⟩ | holds
    · obtain ⟨k,bound,value⟩ := getElem_of_mem member
      by_cases same : i = k
      · subst same
        have isRow : current = row := by
          rw [List.getElem?_eq_getElem bound,value] at place
          exact (Option.some.inj place).symm
        exact winner (.inl (isRow ▸ holds))
      · refine .inl ⟨row,?_,holds⟩
        rw [step]
        refine mem_of_getElem? (i := k) ?_
        rw [List.getElem?_set_ne same,List.getElem?_eq_getElem bound,value]
    · exact winner (.inr holds)

theorem carried_pass {rows : List T} (carried : Carried id email least rows) :
    Carried id email least (linearPass rows) ∨ ∃ other, DisplacesIn id email rows other ∧ least ≤ freshness other := by
  have general : ∀ after before : List T, rows = before ++ after →
      (Carried id email least (linearPass before) ∨ Carried id email least after) →
      Carried id email least (linearPass rows) ∨ ∃ other, DisplacesIn id email rows other ∧ least ≤ freshness other := by
    intro after
    induction after with
    | nil =>
      rintro before split (held | ⟨row,member,-⟩)
      · rw [split,append_nil]
        exact .inl held
      · cases member
    | cons account after ih =>
      intro before split carried
      have next : linearPass (before ++ [account]) = linearStep (linearPass before) account := by
        rw [linearPass,foldl_append]
        rfl
      have later : Carried id email least (linearStep (linearPass before) account) ∨ Carried id email least after →
          Carried id email least (linearPass rows) ∨ ∃ other, DisplacesIn id email rows other ∧ least ≤ freshness other :=
        fun either => ih (before ++ [account]) (by simp [split]) (next ▸ either)
      have here : Carried id email least (linearPass before) ∨ CarriesPair id email (identityRef account) ∧ least ≤ freshness account →
          Carried id email least (linearPass rows) ∨ ∃ other, DisplacesIn id email rows other ∧ least ≤ freshness other := by
        intro either
        rcases carried_step either with held | ⟨other,displaces,fresh⟩
        · exact later (.inl held)
        · exact .inr ⟨other,⟨before,account,after,split,displaces⟩,fresh⟩
      rcases carried with held | ⟨row,member,holds⟩
      · exact here (.inl held)
      · rcases mem_cons.mp member with rfl | rest
        · exact here (.inr holds)
        · exact later (.inr ⟨row,rest,holds⟩)
  exact general rows [] rfl (.inr carried)

theorem carried_deduplicate {rows : List T} (carried : Carried id email least rows) :
    Carried id email least (deduplicateAccounts rows) ∨ ∃ other ∈ rows, Displaced rows id email other ∧ least ≤ freshness other := by
  rw [deduplicateAccounts_eq]
  have step : ∀ l : List T, (∀ row ∈ l, row ∈ rows) ∧ Carried id email least l →
      ((∀ row ∈ linearPass l, row ∈ rows) ∧ Carried id email least (linearPass l)) ∨
        ∃ other ∈ rows, DisplacesIn id email l other ∧ least ≤ freshness other := by
    rintro l ⟨inside,carried⟩
    rcases carried_pass carried with held | ⟨other,displaces,fresh⟩
    · exact .inl ⟨fun row member => inside row (mem_linearPass member),held⟩
    · exact .inr ⟨other,inside other displaces.mem,displaces,fresh⟩
  rcases step rows ⟨fun _ member => member,carried⟩ with first | ⟨other,member,displaces,fresh⟩
  · rcases Passes.untilStable_or step first with held | ⟨given,among,other,member,displaces,fresh⟩
    · exact .inl held.2
    · exact .inr ⟨other,member,⟨given,mem_cons_of_mem _ among,displaces⟩,fresh⟩
  · exact .inr ⟨other,member,⟨rows,mem_cons_self,displaces⟩,fresh⟩

/-- Deduplication loses a pair of account id and email only where a row that has it is matched with one that
    is at least as new and lacks one of the two, so two pairs that are not lost so keep two rows. -/
theorem pair_kept_or_displaced :
    (∀ row ∈ accounts, ∀ id email, CarriesPair id email (identityRef row) →
      (∃ survivor ∈ deduplicateAccounts accounts, CarriesPair id email (identityRef survivor)) ∨
        ∃ other ∈ accounts, Displaced accounts id email other ∧ freshness row ≤ freshness other) ∧
    (∀ a ∈ accounts, ∀ b ∈ accounts, ∀ idA idB email, idA ≠ idB → CarriesPair idA email (identityRef a) →
      CarriesPair idB email (identityRef b) →
      (∀ other ∈ accounts, Displaced accounts idA email other → freshness other < freshness a) →
      (∀ other ∈ accounts, Displaced accounts idB email other → freshness other < freshness b) →
      ∃ (i j : Nat) (rowA rowB : T), i ≠ j ∧ (deduplicateAccounts accounts)[i]? = some rowA ∧
        (deduplicateAccounts accounts)[j]? = some rowB ∧ CarriesPair idA email (identityRef rowA) ∧ CarriesPair idB email (identityRef rowB)) := by
  have kept : ∀ row ∈ accounts, ∀ id email, CarriesPair id email (identityRef row) →
      (∃ survivor ∈ deduplicateAccounts accounts, CarriesPair id email (identityRef survivor)) ∨
        ∃ other ∈ accounts, Displaced accounts id email other ∧ freshness row ≤ freshness other := by
    intro row member id email carries
    refine (carried_deduplicate ⟨row,member,carries,le_refl _⟩).imp_left ?_
    rintro ⟨survivor,inside,holds,-⟩
    exact ⟨survivor,inside,holds⟩
  refine ⟨kept,?_⟩
  intro a memberA b memberB idA idB email different carriesA carriesB olderA olderB
  obtain ⟨rowA,keptA,holdsA⟩ := (kept a memberA idA email carriesA).resolve_right
    (fun ⟨other,member,displaced,fresh⟩ => absurd fresh (not_le.mpr (olderA other member displaced)))
  obtain ⟨rowB,keptB,holdsB⟩ := (kept b memberB idB email carriesB).resolve_right
    (fun ⟨other,member,displaced,fresh⟩ => absurd fresh (not_le.mpr (olderB other member displaced)))
  obtain ⟨i,boundA,valueA⟩ := getElem_of_mem keptA
  obtain ⟨j,boundB,valueB⟩ := getElem_of_mem keptB
  refine ⟨i,j,rowA,rowB,?_,List.getElem?_eq_some_iff.mpr ⟨boundA,valueA⟩,List.getElem?_eq_some_iff.mpr ⟨boundB,valueB⟩,
    holdsA,holdsB⟩
  rintro rfl
  have same : rowA = rowB := valueA.symm.trans valueB
  subst same
  exact different (Option.some.inj (holdsA.1.symm.trans holdsB.1))

end

section
attribute [local instance] asciiHost

/-- A login of account `A`, a newer one of the same email without an account id,
    and a still newer one of account `B`. -/
private def chain : List AccountMetadataV3 :=
  [[("accountId",.str "A"),("email",.str "e@x"),("refreshToken",.str "r1"),("lastUsed",.num 1)],
    [("email",.str "e@x"),("refreshToken",.str "r2"),("lastUsed",.num 2)],
    [("accountId",.str "B"),("email",.str "e@x"),("refreshToken",.str "r3"),("lastUsed",.num 3)]]

/-- The row without an account id takes the slot of account `A`, and account `B` takes it from there. -/
theorem accounts_collapse :
    (∃ row ∈ chain, CarriesPair "A" "e@x" (identityRef row)) ∧
      ¬ ∃ survivor ∈ deduplicateAccounts chain, CarriesPair "A" "e@x" (identityRef survivor) := by
  rw [deduplicateAccounts_eq]
  decide

/-- The row without an account id comes last, when two accounts have its email. -/
private def apart : List AccountMetadataV3 := [chain[0],chain[2],chain[1]]

private theorem apart_undisplaced (id : String) (other : AccountMetadataV3) : ¬ Displaced apart id "e@x" other := by
  have stable : linearPass apart = apart := by decide
  rintro ⟨rows,member,before,account,after,split,i,current,matched,-⟩
  have only : rows = apart := by simpa [stable,Passes.inputs] using member
  rw [only] at split
  have unmatched : ∀ k : Fin 3, findMatchingAccountIndex (linearPass (apart.take k)) (AccountRow.toAccountLike apart[k]) = none := by decide
  have inside : before.length < 3 := by
    have long : apart.length = 3 := rfl
    rw [split] at long
    simp at long
    omega
  have here := unmatched ⟨before.length,inside⟩
  simp only [Fin.getElem_fin,split,take_left,getElem_append_right (Nat.le_refl _),Nat.sub_self,
    getElem_cons_zero] at here
  rw [here] at matched
  cases matched

/-- The same rows in another order keep both accounts. -/
theorem pair_kept_or_displaced_apart :
    (∃ survivor ∈ deduplicateAccounts apart, CarriesPair "A" "e@x" (identityRef survivor)) ∧
    ∃ (i j : Nat) (rowA rowB : AccountMetadataV3), i ≠ j ∧ (deduplicateAccounts apart)[i]? = some rowA ∧
      (deduplicateAccounts apart)[j]? = some rowB ∧ CarriesPair "A" "e@x" (identityRef rowA) ∧ CarriesPair "B" "e@x" (identityRef rowB) :=
  ⟨((pair_kept_or_displaced apart).1 chain[0] (by simp [apart]) "A" "e@x" (by decide)).resolve_right
      (fun ⟨other,_,displaced,_⟩ => apart_undisplaced "A" other displaced),
    (pair_kept_or_displaced apart).2 chain[0] (by simp [apart]) chain[2] (by simp [apart]) "A" "B" "e@x" (by decide) (by decide) (by decide)
      (fun other _ displaced => absurd displaced (apart_undisplaced "A" other))
      (fun other _ displaced => absurd displaced (apart_undisplaced "B" other))⟩

end
end CodexMultiAuth
