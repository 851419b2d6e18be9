import CodexMultiAuth.CredentialReload

/-!
Where a reload copies credentials: every copy that is made, the pool that comes
of the copies, and when each goes to its own account.
-/
namespace CodexMultiAuth
open List
set_option linter.unusedSectionVars false

section
variable [Host]

/-- The account's credential is not the one of its baseline row, and it has the row to go to. -/
def Goes (authBeforeLoad : List ManagedAccount) (target : ManagedAccount → ManagedAccount → Option Nat) (reloaded : AccountPool)
    (previous : ManagedAccount) (index : Nat) : Prop :=
  ∃ baseline, baselineFor authBeforeLoad previous = some baseline ∧ baseline.triple ≠ previous.triple ∧
    target baseline previous = some index ∧ index < reloaded.count

/-- The rows of a pool, each with the credential it was loaded with or one copied onto it. -/
structure CopiedOnto (reloaded : AccountPool) (carried : CarriedPool) : Prop where
  count : carried.pool.count = reloaded.count
  rows : ∀ (position : Nat) live, carried.pool.accounts[position]? = some live → ∃ disk, reloaded.accounts[position]? = some disk ∧
    (live = disk ∧ (∀ copy ∈ carried.copies, copy.target ≠ position) ∨
      ∃ copy ∈ carried.copies, copy.target = position ∧ live.triple = copy.source.triple)

/-- What has been copied once the accounts `tried` are through. -/
structure CarriedFrom (authBeforeLoad : List ManagedAccount) (target : ManagedAccount → ManagedAccount → Option Nat)
    (reloaded : AccountPool) (tried : List ManagedAccount) (carried : CarriedPool) : Prop where
  once : (carried.copies.map Copy.source).Sublist tried
  copies : ∀ source index, (⟨source,index⟩ : Copy) ∈ carried.copies ↔
    source ∈ tried ∧ Goes authBeforeLoad target reloaded source index
  onto : CopiedOnto reloaded carried

theorem takeCredential_triple (baseline previous live : ManagedAccount) : (takeCredential baseline previous live).triple = previous.triple := by
  unfold takeCredential
  simp only
  split <;> split <;> rfl

theorem getElem_update (pool : AccountPool) (index : Nat) (change : ManagedAccount → ManagedAccount) (position : Nat) :
    (pool.update index change).accounts[position]? =
      (pool.accounts[position]?).map (fun account => if index = position then change account else account) := by
  simp only [AccountPool.update,List.getElem?_modify]
  cases pool.accounts[position]? with
  | none => rfl
  | some account => by_cases here : index = position <;> simp [here]

variable {carried : CarriedPool}

theorem CopiedOnto.snoc {reloaded : AccountPool} (onto : CopiedOnto reloaded carried) (baseline previous : ManagedAccount)
    (index : Nat) :
    CopiedOnto reloaded ⟨carried.pool.update index (takeCredential baseline previous),carried.copies ++ [⟨previous,index⟩]⟩ := by
  refine ⟨?_,?_⟩
  · simpa [AccountPool.update,AccountPool.count] using onto.count
  · intro position live found
    rw [getElem_update] at found
    obtain ⟨before,here,same⟩ := Option.map_eq_some_iff.mp found
    obtain ⟨disk,loaded,origin⟩ := onto.rows position before here
    refine ⟨disk,loaded,?_⟩
    by_cases hit : index = position
    · right
      rw [if_pos hit] at same
      refine ⟨⟨previous,index⟩,by simp,hit,?_⟩
      rw [← same]
      exact takeCredential_triple baseline previous before
    · rw [if_neg hit] at same
      subst same
      rcases origin with ⟨kept,untouched⟩ | ⟨copy,member,at_position,taken⟩
      · left
        refine ⟨kept,?_⟩
        intro copy member
        rcases mem_append.mp member with old | new
        · exact untouched copy old
        · rw [mem_singleton.mp new]
          exact hit
      · exact .inr ⟨copy,mem_append_left _ member,at_position,taken⟩

variable {target : ManagedAccount → ManagedAccount → Option Nat}

theorem CarriedFrom.step {authBeforeLoad : List ManagedAccount}
    {reloaded : AccountPool} {tried : List ManagedAccount}
    (so_far : CarriedFrom authBeforeLoad target reloaded tried carried) (previous : ManagedAccount) :
    CarriedFrom authBeforeLoad target reloaded (tried ++ [previous]) (carry authBeforeLoad target carried previous) := by
  have stays : (∀ index, ¬ Goes authBeforeLoad target reloaded previous index) →
      CarriedFrom authBeforeLoad target reloaded (tried ++ [previous]) carried := by
    intro nowhere
    refine ⟨so_far.once.trans (sublist_append_left _ _),?_,so_far.onto⟩
    intro source index
    rw [so_far.copies]
    constructor
    · rintro ⟨member,goes⟩
      exact ⟨mem_append_left _ member,goes⟩
    · rintro ⟨member,goes⟩
      rcases mem_append.mp member with old | new
      · exact ⟨old,goes⟩
      · rw [mem_singleton.mp new] at goes
        exact absurd goes (nowhere index)
  unfold carry
  split
  · next missing =>
    refine stays ?_
    rintro index ⟨baseline,found,-⟩
    rw [missing] at found
    cases found
  · next baseline found =>
    split
    · next same =>
      refine stays ?_
      rintro index ⟨other,again,differs,-⟩
      rw [found] at again
      cases again
      exact differs same
    · next differs =>
      split
      · next nowhere =>
        refine stays ?_
        rintro index ⟨other,again,-,goes,-⟩
        rw [found] at again
        cases again
        rw [nowhere] at goes
        cases goes
      · next index goes =>
        have exact_index : ∀ other, Goes authBeforeLoad target reloaded previous other → other = index := by
          rintro other ⟨row,again,-,goes_other,-⟩
          rw [found] at again
          cases again
          rw [goes] at goes_other
          exact (Option.some.inj goes_other).symm
        split
        · next present =>
          have inside : index < reloaded.count := by
            rw [← so_far.onto.count]
            simpa [AccountPool.getAccountByIndex,AccountPool.count] using present
          refine ⟨?_,?_,so_far.onto.snoc baseline previous index⟩
          · simp only [map_append,map_cons,map_nil]
            exact so_far.once.append (List.Sublist.refl _)
          · intro source other
            rw [mem_append,so_far.copies,mem_append,mem_singleton,mem_singleton]
            constructor
            · rintro (⟨member,goes_other⟩ | same)
              · exact ⟨.inl member,goes_other⟩
              · cases same
                exact ⟨.inr rfl,baseline,found,differs,goes,inside⟩
            · rintro ⟨member | same,goes_other⟩
              · exact .inl ⟨member,goes_other⟩
              · subst same
                rw [exact_index other goes_other]
                exact .inr rfl
        · next missing =>
          refine stays ?_
          intro other goes_other
          have same := exact_index other goes_other
          obtain ⟨-,-,-,-,inside⟩ := goes_other
          rw [same,← so_far.onto.count] at inside
          exact missing (by simpa [AccountPool.getAccountByIndex,AccountPool.count] using inside)

theorem foldl_carry {authBeforeLoad : List ManagedAccount} (reloaded : AccountPool)
    (previousAccounts : List ManagedAccount) :
    CarriedFrom authBeforeLoad target reloaded previousAccounts
      (previousAccounts.foldl (carry authBeforeLoad target) ⟨reloaded,[]⟩) := by
  have general : ∀ rest tried carried, CarriedFrom authBeforeLoad target reloaded tried carried →
      CarriedFrom authBeforeLoad target reloaded (tried ++ rest) (rest.foldl (carry authBeforeLoad target) carried) := by
    intro rest
    induction rest with
    | nil =>
      intro tried carried so_far
      simpa using so_far
    | cons previous rest ih =>
      intro tried carried so_far
      have next := ih (tried ++ [previous]) _ (so_far.step previous)
      simpa [append_assoc] using next
  refine general previousAccounts [] ⟨reloaded,[]⟩ ⟨by simp,by simp,rfl,?_⟩
  intro position live found
  exact ⟨live,found,.inl ⟨rfl,by simp⟩⟩

section
variable (same : ManagedAccount → ManagedAccount → Prop) (authBeforeLoad : List ManagedAccount) (reloaded : AccountPool)

def Newer (disk source : ManagedAccount) : Prop := source.expires.getD 0 < disk.expires.getD 0

/-- The row at the index is the same account and not newer, and the account's
    credential changed in memory since the baseline. -/
structure Rightful (source : ManagedAccount) (index : Nat) : Prop where
  own : ∀ disk, reloaded.accounts[index]? = some disk → same source disk
  rotated : ∃ baseline ∈ authBeforeLoad, same source baseline ∧ baseline.triple ≠ source.triple
  older : ∀ disk, reloaded.accounts[index]? = some disk → ¬ Newer disk source

/-- Every copy is rightful, no account is copied twice, and the pool holds the
    credentials that were loaded or copied. -/
structure KeepsCredentials (previousAccounts : List ManagedAccount) (carried : CarriedPool) : Prop where
  once : (carried.copies.map Copy.source).Sublist previousAccounts
  rightful : ∀ copy ∈ carried.copies, Rightful same authBeforeLoad reloaded copy.source copy.target
  onto : CopiedOnto reloaded carried

/-- The rows have one record id or one index. -/
def SharesRow (previous row : ManagedAccount) : Prop :=
  (row.recordId ≠ none ∧ row.recordId ≠ some "" ∧ row.recordId = previous.recordId) ∨ row.index = previous.index

def FirstFor (previous baseline : ManagedAccount) : Prop :=
  SharesRow previous baseline ∧ ∃ before after, authBeforeLoad = before ++ baseline :: after ∧ ∀ earlier ∈ before, ¬ SharesRow previous earlier

def Differs (previous baseline : ManagedAccount) : Prop :=
  FirstFor authBeforeLoad previous baseline ∧ baseline.triple ≠ previous.triple

/-- The row has the account's persisted record id, its or the baseline's refresh token, or its account id and email. -/
def Resembles (persisted : ManagedAccount → Bool) (baseline previous row : ManagedAccount) : Prop :=
  (persisted previous = true ∧ row.recordId = previous.recordId) ∨ row.refreshToken = previous.refreshToken ∨
    row.refreshToken = baseline.refreshToken ∨
    (previous.accountId ≠ none ∧ row.accountId = previous.accountId ∧ sanitizeEmail row.email = sanitizeEmail previous.email)

/-- Recovery: the only loaded row that resembles the account has the rightful index. -/
def CarriesOwn (persisted : ManagedAccount → Bool) (previousAccounts : List ManagedAccount) : Prop :=
  ∀ previous ∈ previousAccounts, ∀ baseline, Differs authBeforeLoad previous baseline → ∀ before row after,
    reloaded.accounts = before ++ row :: after → Resembles persisted baseline previous row →
      (∀ other ∈ before ++ after, ¬ Resembles persisted baseline previous other) → row.index < reloaded.count →
        Rightful same authBeforeLoad reloaded previous row.index

/-- The row has the account's record id, the identity or the refresh token of the account or of its baseline
    row, or the email of the first of them that has one, with no workspace against it. -/
def Passes (previous row : ManagedAccount) : Prop :=
  (row.recordId ≠ none ∧ row.recordId ≠ some "" ∧ row.recordId = previous.recordId) ∨
    (identityOf row ≠ none ∧ (identityOf row = identityOf previous ∨
      ∃ baseline, FirstFor authBeforeLoad previous baseline ∧ identityOf row = identityOf baseline)) ∨
    (row.refreshToken ≠ "" ∧ (row.refreshToken = previous.refreshToken ∨
      ∃ baseline, FirstFor authBeforeLoad previous baseline ∧ row.refreshToken = baseline.refreshToken)) ∨
    (sanitizeEmail row.email ≠ none ∧ (sanitizeEmail row.email = sanitizeEmail previous.email ∨ sanitizeEmail previous.email = none ∧
      ∃ baseline, FirstFor authBeforeLoad previous baseline ∧ sanitizeEmail row.email = sanitizeEmail baseline.email) ∧
      hasWorkspaceConflict previous (baselineFor authBeforeLoad previous) row = false)

/-- Reload: every loaded row that passes for an account with this index has the rightful index. -/
def PassesOwn (previousAccounts : List ManagedAccount) : Prop :=
  ∀ previous ∈ previousAccounts, ∀ baseline, Differs authBeforeLoad previous baseline →
    ∀ holder ∈ previousAccounts, holder.index = previous.index → ∀ row ∈ reloaded.accounts, Passes authBeforeLoad holder row →
      row.index < reloaded.count → Rightful same authBeforeLoad reloaded previous row.index

/-- No two accounts pass for one row and no two rows for one account. -/
structure Unambiguous (previousAccounts : List ManagedAccount) : Prop where
  loaded : (reloaded.accounts.map ManagedAccount.index).Nodup
  single : ∀ one ∈ previousAccounts, ∀ other ∈ previousAccounts, ∀ row ∈ reloaded.accounts, ∀ found ∈ reloaded.accounts,
    Passes authBeforeLoad one row → Passes authBeforeLoad other found → (one.index = other.index ↔ row.index = found.index)
end

variable {same : ManagedAccount → ManagedAccount → Prop} {authBeforeLoad : List ManagedAccount} {reloaded : AccountPool}

theorem isSome_bind_nonEmpty {text : Option String} : (text.bind nonEmpty).isSome = true ↔ text ≠ none ∧ text ≠ some "" := by
  cases text <;> simp [nonEmpty]

theorem baselineFor_eq_some_iff {previous baseline : ManagedAccount} :
    baselineFor authBeforeLoad previous = some baseline ↔ FirstFor authBeforeLoad previous baseline := by
  have shares : ∀ row : ManagedAccount, (((row.recordId.bind nonEmpty).isSome && row.recordId == previous.recordId) ||
      row.index == previous.index) = true ↔ SharesRow previous row := by
    intro row
    simp [SharesRow,isSome_bind_nonEmpty,and_assoc]
  have others : ∀ row : ManagedAccount, (!(((row.recordId.bind nonEmpty).isSome && row.recordId == previous.recordId) ||
      row.index == previous.index)) = true ↔ ¬ SharesRow previous row := by
    intro row
    rw [← shares,Bool.not_eq_true',Bool.not_eq_true]
  simp only [baselineFor,List.find?_eq_some_iff_append,shares,others,FirstFor]

theorem CarriedFrom.keeps_iff {previousAccounts : List ManagedAccount}
    (done : CarriedFrom authBeforeLoad target reloaded previousAccounts carried) :
    KeepsCredentials same authBeforeLoad reloaded previousAccounts carried ↔
      ∀ previous ∈ previousAccounts, ∀ baseline, Differs authBeforeLoad previous baseline → ∀ index,
        target baseline previous = some index → index < reloaded.count → Rightful same authBeforeLoad reloaded previous index := by
  constructor
  · intro keeps previous member baseline differs index goes inside
    have copied := (done.copies previous index).mpr ⟨member,baseline,baselineFor_eq_some_iff.mpr differs.1,differs.2,goes,inside⟩
    exact keeps.rightful _ copied
  · intro rightful
    refine ⟨done.once,?_,done.onto⟩
    rintro ⟨source,index⟩ member
    obtain ⟨among,baseline,found,differs,goes,inside⟩ := (done.copies source index).mp member
    exact rightful source among baseline ⟨baselineFor_eq_some_iff.mp found,differs⟩ index goes inside

theorem onlyIndex_eq_some {rows : List ManagedAccount} {test : ManagedAccount → Bool} {index : Nat} :
    onlyIndex rows test = some index ↔ ∃ before row after, rows = before ++ row :: after ∧ test row = true ∧
      (∀ other ∈ before ++ after, test other = false) ∧ row.index = index := by
  have only : onlyIndex rows test = some index ↔ ∃ row, rows.filter test = [row] ∧ row.index = index := by
    unfold onlyIndex
    split
    · next matched only => simp [only]
    · next several =>
      constructor
      · intro impossible
        cases impossible
      · rintro ⟨row,only,-⟩
        exact absurd only (several row)
  simp only [only,filter_eq_cons_iff,filter_eq_nil_iff,mem_append,or_imp,forall_and,Bool.not_eq_true]
  constructor
  · rintro ⟨row,⟨before,after,split,first,passes,later⟩,same⟩
    exact ⟨before,row,after,split,passes,⟨first,later⟩,same⟩
  · rintro ⟨before,row,after,split,passes,⟨first,later⟩,same⟩
    exact ⟨row,⟨before,after,split,first,passes,later⟩,same⟩

theorem carryCandidate_iff {persisted : ManagedAccount → Bool} {baseline previous row : ManagedAccount} :
    carryCandidate persisted baseline previous row = true ↔ Resembles persisted baseline previous row := by
  simp [carryCandidate,Resembles,Option.isSome_iff_ne_none,or_assoc,and_assoc]

theorem carryRotatedCredentials_keeps_iff (persisted : ManagedAccount → Bool) (previousAccounts : List ManagedAccount) :
    KeepsCredentials same authBeforeLoad reloaded previousAccounts
        (carryRotatedCredentials persisted previousAccounts authBeforeLoad reloaded) ↔
      CarriesOwn same authBeforeLoad reloaded persisted previousAccounts := by
  unfold carryRotatedCredentials
  rw [(foldl_carry reloaded previousAccounts).keeps_iff]
  simp only [onlyIndex_eq_some,carryCandidate_iff,← Bool.not_eq_true]
  constructor
  · intro rightful previous member baseline differs before row after split resembles only inside
    exact rightful previous member baseline differs row.index ⟨before,row,after,split,resembles,only,rfl⟩ inside
  · rintro own previous member baseline differs _ ⟨before,row,after,split,resembles,only,rfl⟩ inside
    exact own previous member baseline differs before row after split resembles only inside

/-! ### The rows that a reload takes -/

theorem nonEmpty_eq_some_iff {text value : String} : nonEmpty text = some value ↔ text = value ∧ value ≠ "" := by
  unfold nonEmpty
  split
  · next empty => simp [empty]
  · next filled => simp only [Option.some.injEq,iff_self_and]; exact fun same => same ▸ filled

variable {previous row : ManagedAccount}

theorem recordTest_iff :
    recordTest previous row = true ↔ row.recordId ≠ none ∧ row.recordId ≠ some "" ∧ row.recordId = previous.recordId := by
  rw [recordTest,Bool.and_eq_true,isSome_bind_nonEmpty,beq_iff_eq,← and_assoc]
  exact and_congr_left fun same => by rw [same]

theorem bind_baselineFor {α : Type} {read : ManagedAccount → Option α} {previous : ManagedAccount} {value : α} :
    (baselineFor authBeforeLoad previous).bind read = some value ↔
      ∃ baseline, FirstFor authBeforeLoad previous baseline ∧ read baseline = some value := by
  simp only [Option.bind_eq_some_iff,baselineFor_eq_some_iff]

theorem identityTest_iff :
    identityTest authBeforeLoad previous row = true ↔ identityOf row ≠ none ∧ (identityOf row = identityOf previous ∨
      ∃ baseline, FirstFor authBeforeLoad previous baseline ∧ identityOf row = identityOf baseline) := by
  unfold identityTest
  cases identityOf row with
  | none => simp
  | some identity => simp [bind_baselineFor,@eq_comm _ (some identity)]

theorem tokenTest_iff :
    tokenTest authBeforeLoad previous row = true ↔ row.refreshToken ≠ "" ∧ (row.refreshToken = previous.refreshToken ∨
      ∃ baseline, FirstFor authBeforeLoad previous baseline ∧ row.refreshToken = baseline.refreshToken) := by
  simp only [tokenTest,contains_iff_mem,mem_filterMap,mem_cons,not_mem_nil,or_false,Option.bind_eq_some_iff,
    nonEmpty_eq_some_iff,exists_eq_or_imp,exists_eq_left,Option.some.injEq,Option.map_eq_some_iff,baselineFor_eq_some_iff]
  constructor
  · rintro (⟨_,rfl,same,filled⟩ | ⟨_,⟨baseline,first,rfl⟩,same,filled⟩)
    · exact ⟨filled,.inl same.symm⟩
    · exact ⟨filled,.inr ⟨baseline,first,same.symm⟩⟩
  · rintro ⟨filled,same | ⟨baseline,first,same⟩⟩
    · exact .inl ⟨_,rfl,same.symm,filled⟩
    · exact .inr ⟨_,⟨baseline,first,rfl⟩,same.symm,filled⟩

theorem emailTest_iff :
    emailTest authBeforeLoad previous row = true ↔ sanitizeEmail row.email ≠ none ∧ (sanitizeEmail row.email = sanitizeEmail previous.email ∨
      sanitizeEmail previous.email = none ∧
        ∃ baseline, FirstFor authBeforeLoad previous baseline ∧ sanitizeEmail row.email = sanitizeEmail baseline.email) ∧
      hasWorkspaceConflict previous (baselineFor authBeforeLoad previous) row = false := by
  have tested : emailTest authBeforeLoad previous row = true ↔ ∃ email, (sanitizeEmail previous.email).or
      (sanitizeEmail ((baselineFor authBeforeLoad previous).bind ManagedAccount.email)) = some email ∧ sanitizeEmail row.email = some email ∧
        hasWorkspaceConflict previous (baselineFor authBeforeLoad previous) row = false := by
    simp only [emailTest]
    split <;> simp [*]
  have stored : sanitizeEmail ((baselineFor authBeforeLoad previous).bind ManagedAccount.email) =
      (baselineFor authBeforeLoad previous).bind (fun baseline => sanitizeEmail baseline.email) := by
    cases baselineFor authBeforeLoad previous <;> rfl
  simp only [tested,stored,Option.or_eq_some_iff,bind_baselineFor]
  cases sanitizeEmail row.email with
  | none => simp
  | some email => simp [@eq_comm _ (some email)]

theorem passes_iff :
    Passes authBeforeLoad previous row ↔ recordTest previous row = true ∨ identityTest authBeforeLoad previous row = true ∨
      tokenTest authBeforeLoad previous row = true ∨ emailTest authBeforeLoad previous row = true := by
  rw [recordTest_iff,identityTest_iff,tokenTest_iff,emailTest_iff,Passes]

/-- Every row that is taken is taken for an account that it passes for. -/
structure Vouched (authBeforeLoad freshAccounts previousAccounts : List ManagedAccount) (reservations : Reservations) : Prop where
  passed : ∀ old index, reservations.matchedFreshIndexByPrevious.find old = some index →
    ∃ holder ∈ previousAccounts, holder.index = old ∧ ∃ row ∈ freshAccounts, row.index = index ∧ Passes authBeforeLoad holder row
  claimed : ∀ index ∈ reservations.claimed, ∃ holder ∈ previousAccounts, (reservations.matchedFreshIndexByPrevious.find holder.index).isSome ∧
    ∃ row ∈ freshAccounts, row.index = index ∧ Passes authBeforeLoad holder row

variable {freshAccounts previousAccounts : List ManagedAccount} {reservations : Reservations}
  {tried : Reservations → ManagedAccount → Bool} {test : ManagedAccount → ManagedAccount → Bool}

theorem reservePass_cons (previous : ManagedAccount) (rest : List ManagedAccount) :
    reservePass freshAccounts (previous :: rest) tried test reservations =
      reservePass freshAccounts rest tried test (reservePass freshAccounts [previous] tried test reservations) := rfl

theorem reservePass_append (first second : List ManagedAccount) :
    reservePass freshAccounts (first ++ second) tried test reservations =
      reservePass freshAccounts second tried test (reservePass freshAccounts first tried test reservations) := foldl_append

/-- What reserving a free row that passes preserves, a pass preserves. -/
theorem reservePass_induct (P : Reservations → Prop) (start : P reservations)
    (take : ∀ previous ∈ previousAccounts, ∀ row ∈ freshAccounts, test previous row = true → ∀ reservations : Reservations,
      P reservations → row.index ∉ reservations.claimed →
        P ⟨row.index :: reservations.claimed,reservations.matchedFreshIndexByPrevious.put previous.index row.index⟩) :
    P (reservePass freshAccounts previousAccounts tried test reservations) := by
  induction previousAccounts generalizing reservations with
  | nil => exact start
  | cons previous rest ih =>
    refine ih ?_ (fun other member => take other (mem_cons_of_mem _ member))
    simp only
    split
    · split
      · next index only =>
        obtain ⟨before,row,after,split,passes,-,rfl⟩ := onlyIndex_eq_some.mp only
        simp only [Bool.and_eq_true,Bool.not_eq_true',contains_eq_mem,decide_eq_false_iff_not] at passes
        simp only [reserve,contains_eq_mem,passes.1,decide_false,Bool.false_eq_true,if_false]
        exact take previous mem_cons_self row (by simp [split]) passes.2 reservations start passes.1
      · exact start
    · exact start

theorem reservePass_vouched (weaker : ∀ previous row, test previous row = true → Passes authBeforeLoad previous row)
    {some_of : List ManagedAccount} (among : ∀ previous ∈ some_of, previous ∈ previousAccounts)
    (vouched : Vouched authBeforeLoad freshAccounts previousAccounts reservations) :
    Vouched authBeforeLoad freshAccounts previousAccounts (reservePass freshAccounts some_of tried test reservations) := by
  refine reservePass_induct (Vouched authBeforeLoad freshAccounts previousAccounts) vouched ?_
  intro previous member row loaded passes reservations vouched free
  constructor
  · intro old index found
    rw [OrderedMap.find_put] at found
    split at found
    · next here =>
      obtain rfl := Option.some.inj found
      exact ⟨previous,among previous member,here,row,loaded,rfl,weaker previous row passes⟩
    · exact vouched.passed old index found
  · intro index claimed
    rcases mem_cons.mp claimed with rfl | earlier
    · exact ⟨previous,among previous member,by simp,row,loaded,rfl,weaker previous row passes⟩
    · obtain ⟨holder,old,found,rest⟩ := vouched.claimed index earlier
      refine ⟨holder,old,?_,rest⟩
      rw [OrderedMap.find_put]
      split
      · rfl
      · exact found

theorem reservePass_isSome {old : Nat} (found : (reservations.matchedFreshIndexByPrevious.find old).isSome) :
    ((reservePass freshAccounts previousAccounts tried test reservations).matchedFreshIndexByPrevious.find old).isSome := by
  refine reservePass_induct (fun reservations => (reservations.matchedFreshIndexByPrevious.find old).isSome) found ?_
  intro previous _ row _ _ reservations found _
  simp only [OrderedMap.find_put]
  split
  · rfl
  · exact found

section
variable (clear : Unambiguous authBeforeLoad reloaded previousAccounts)
  (weaker : ∀ previous row, test previous row = true → Passes authBeforeLoad previous row)
  (tries : ∀ reservations previous, unmatched reservations previous = true → tried reservations previous = true)
  (vouched : Vouched authBeforeLoad reloaded.accounts previousAccounts reservations)
  (member : previous ∈ previousAccounts) (loaded : row ∈ reloaded.accounts) (passes : test previous row = true)
include clear weaker tries vouched member loaded passes

theorem Unambiguous.turn :
    ((reservePass reloaded.accounts [previous] tried test reservations).matchedFreshIndexByPrevious.find previous.index).isSome := by
  by_cases matched : (reservations.matchedFreshIndexByPrevious.find previous.index).isSome
  · exact reservePass_isSome matched
  · have free : row.index ∉ reservations.claimed := by
      intro claimed
      obtain ⟨holder,old,found,other,fresh,same,passed⟩ := vouched.claimed row.index claimed
      have one := (clear.single holder old previous member other fresh row loaded passed (weaker _ _ passes)).mpr same
      exact matched (one ▸ found)
    obtain ⟨before,after,split⟩ := append_of_mem loaded
    have distinct := clear.loaded
    rw [split,map_append,map_cons,nodup_middle,nodup_cons,← map_append] at distinct
    have only : onlyIndex reloaded.accounts (fun account => !reservations.claimed.contains account.index && test previous account) =
        some row.index := by
      refine onlyIndex_eq_some.mpr ⟨before,row,after,split,by simp [free,passes],?_,rfl⟩
      intro other others
      by_contra taken
      have passed : test previous other = true := (Bool.and_eq_true_iff.mp (Bool.not_eq_false _ ▸ taken)).2
      have fresh : other ∈ reloaded.accounts := by
        rw [split]
        simp only [mem_append,mem_cons] at others ⊢
        tauto
      have same := (clear.single previous member previous member row loaded other fresh (weaker _ _ passes) (weaker _ _ passed)).mp rfl
      exact distinct.1 (same ▸ mem_map_of_mem others)
    have trying : tried reservations previous = true := tries reservations previous (by simpa [unmatched] using matched)
    simp only [reservePass,foldl_cons,foldl_nil,trying,if_true,only]
    simp [reserve,free]

theorem Unambiguous.pass :
    ((reservePass reloaded.accounts previousAccounts tried test reservations).matchedFreshIndexByPrevious.find previous.index).isSome := by
  obtain ⟨before,after,split⟩ := append_of_mem member
  have earlier : ∀ other ∈ before, other ∈ previousAccounts := fun other first => by simp [split,first]
  conv => enter [1,1,1,1]; rw [split,reservePass_append,reservePass_cons]
  exact reservePass_isSome (clear.turn weaker tries (reservePass_vouched weaker earlier vouched) member loaded passes)

end

theorem vouched_empty : Vouched authBeforeLoad freshAccounts previousAccounts ⟨[],[]⟩ := ⟨by simp [OrderedMap.find],by simp⟩

variable (authBeforeLoad reloaded previousAccounts) in
theorem matchFreshAccounts_vouched :
    Vouched authBeforeLoad reloaded.accounts previousAccounts (matchFreshAccounts authBeforeLoad reloaded.accounts previousAccounts) ∧
      (Unambiguous authBeforeLoad reloaded previousAccounts → ∀ previous ∈ previousAccounts, ∀ row ∈ reloaded.accounts,
        Passes authBeforeLoad previous row → ((matchFreshAccounts authBeforeLoad reloaded.accounts
          previousAccounts).matchedFreshIndexByPrevious.find previous.index).isSome) := by
  have record : ∀ previous row, recordTest previous row = true → Passes authBeforeLoad previous row := fun _ _ test => passes_iff.mpr (.inl test)
  have identity : ∀ previous row, identityTest authBeforeLoad previous row = true → Passes authBeforeLoad previous row :=
    fun _ _ test => passes_iff.mpr (.inr (.inl test))
  have token : ∀ previous row, tokenTest authBeforeLoad previous row = true → Passes authBeforeLoad previous row :=
    fun _ _ test => passes_iff.mpr (.inr (.inr (.inl test)))
  have email : ∀ previous row, emailTest authBeforeLoad previous row = true → Passes authBeforeLoad previous row :=
    fun _ _ test => passes_iff.mpr (.inr (.inr (.inr test)))
  have all : ∀ previous ∈ previousAccounts, previous ∈ previousAccounts := fun _ member => member
  have records : Vouched authBeforeLoad reloaded.accounts previousAccounts
      (reservePass reloaded.accounts previousAccounts (fun _ _ => true) recordTest ⟨[],[]⟩) := reservePass_vouched record all vouched_empty
  have identities : Vouched authBeforeLoad reloaded.accounts previousAccounts (reservePass reloaded.accounts previousAccounts unmatched _ _) :=
    reservePass_vouched identity all records
  have tokens : Vouched authBeforeLoad reloaded.accounts previousAccounts (reservePass reloaded.accounts previousAccounts unmatched _ _) :=
    reservePass_vouched token all identities
  refine ⟨reservePass_vouched email all tokens,?_⟩
  intro clear previous member row loaded passes
  rcases passes_iff.mp passes with test | test | test | test
  · exact reservePass_isSome (reservePass_isSome (reservePass_isSome (clear.pass record (fun _ _ _ => rfl) vouched_empty member loaded test)))
  · exact reservePass_isSome (reservePass_isSome (clear.pass identity (fun _ _ => id) records member loaded test))
  · exact reservePass_isSome (clear.pass token (fun _ _ => id) identities member loaded test)
  · exact clear.pass email (fun _ _ => id) tokens member loaded test

theorem reloadRuntimeCredentials_keeps_iff {reload : Reload} (done : reloadRuntimeCredentials reload = some carried) :
    KeepsCredentials same reload.authBeforeLoad reload.reloaded reload.previousAccounts carried ↔
      ∀ previous ∈ reload.previousAccounts, ∀ baseline, Differs reload.authBeforeLoad previous baseline → ∀ index,
        (matchFreshAccounts reload.authBeforeLoad reload.reloaded.accounts
          reload.previousAccounts).matchedFreshIndexByPrevious.find previous.index = some index →
        index < reload.reloaded.count → Rightful same reload.authBeforeLoad reload.reloaded previous index := by
  unfold reloadRuntimeCredentials at done
  simp only at done
  split at done
  · cases done
  · split at done
    · cases done
    · split at done
      · cases done
      · rw [← Option.some.inj done,(foldl_carry reload.reloaded reload.previousAccounts).keeps_iff]

/-! ### When credentials stay on their accounts -/

end

section
attribute [local instance] asciiHost

private def holder (name : String) (index : Nat) (token : String) (expires : ℚ) : ManagedAccount :=
  { ref := index,index := index,recordId := some name,email := some (name ++ "@mail"),refreshToken := token,expires := some expires }

private def sameRecord (a b : ManagedAccount) : Prop := a.recordId = b.recordId

private def poolWith (accounts : List ManagedAccount) : AccountPool where
  accounts := accounts
  cursorByFamily _ := 0
  currentAccountIndexByFamily _ := 0
  pinnedAccountIndex := none

/-- The pool dropped the first account while the file was read, and the file the second. -/
private def crossedReload : Reload where
  authBeforeLoad := [holder "x" 0 "tx" 1,holder "y" 1 "ty" 1]
  previousAccounts := [holder "y" 0 "ty" 1]
  reloaded := poolWith [holder "x" 0 "tx" 1]
  hasLoadedAccountStorageSnapshot := true
  replacedMeanwhile := false

/-- Both the pool and the file have a new credential; the file's is the newer one. -/
private def overtakenReload : Reload where
  authBeforeLoad := [holder "x" 0 "t0" 1]
  previousAccounts := [holder "x" 0 "t1" 10]
  reloaded := poolWith [holder "x" 0 "t2" 20]
  hasLoadedAccountStorageSnapshot := true
  replacedMeanwhile := false

private def rows (carried : Option CarriedPool) : Option (List (Option String × String)) :=
  carried.map (fun carried => carried.pool.accounts.map (fun account => (account.recordId,account.refreshToken)))

private def recovered (reload : Reload) : CarriedPool :=
  carryRotatedCredentials (fun _ => true) reload.previousAccounts reload.authBeforeLoad reload.reloaded

/-- The first account was refreshed in memory, and both are still on the file. -/
private def plainReload : Reload where
  authBeforeLoad := [holder "x" 0 "t0" 1,holder "y" 1 "ty" 1]
  previousAccounts := [holder "x" 0 "t1" 10,holder "y" 1 "ty" 1]
  reloaded := poolWith [holder "x" 0 "t0" 1,holder "y" 1 "ty" 1]
  hasLoadedAccountStorageSnapshot := true
  replacedMeanwhile := false

private theorem plain_rightful :
    Rightful sameRecord plainReload.authBeforeLoad plainReload.reloaded (holder "x" 0 "t1" 10) 0 := by
  refine ⟨?_,⟨holder "x" 0 "t0" 1,mem_cons_self,rfl,by decide⟩,?_⟩
  · intro disk here
    cases here
    rfl
  · intro disk here
    cases here
    unfold Newer
    decide

private theorem plain_differs {previous baseline : ManagedAccount} (member : previous ∈ plainReload.previousAccounts)
    (differs : Differs plainReload.authBeforeLoad previous baseline) : previous = holder "x" 0 "t1" 10 ∧ baseline = holder "x" 0 "t0" 1 := by
  have found := baselineFor_eq_some_iff.mpr differs.1
  rcases mem_cons.mp member with rfl | second
  · exact ⟨rfl,(Option.some.inj found).symm⟩
  · obtain rfl := mem_singleton.mp second
    exact absurd (congrArg ManagedAccount.triple (Option.some.inj found)) (fun same => differs.2 same.symm)

end
end CodexMultiAuth
