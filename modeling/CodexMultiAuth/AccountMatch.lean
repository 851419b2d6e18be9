import Mathlib.Data.Prod.Lex
import Mathlib.Algebra.Order.Ring.Rat
import CodexMultiAuth.Identity

/-!
Which stored account a candidate is. Four tiers are tried in turn: the pair of
account id and email, an email whose owners agree on the account id, a refresh
token whose owners agree with the candidate, and an account id with one owner.
Among several matches the newest counts.
-/
namespace CodexMultiAuth
open List
set_option linter.unusedSectionVars false

/-- What matching and merging read of a row, whatever else it holds. -/
class AccountRow (T : Type) where
  toAccountLike : T → AccountLike
  lastUsed : T → Option ℚ
  addedAt : T → Option ℚ

instance : AccountRow AccountMetadataV3 :=
  ⟨AccountMetadataV3.toAccountLike,AccountMetadataV3.lastUsed,AccountMetadataV3.addedAt⟩

/-- A row given by its identity alone. -/
instance : AccountRow AccountLike := ⟨id,fun _ => none,fun _ => none⟩

section
variable {T : Type} [AccountRow T]

/-- Whether the candidate is kept: it is as new as the current row. -/
def selectsCandidate (current candidate : T) : Bool :=
  let currentLastUsed := (AccountRow.lastUsed current).getD 0
  let candidateLastUsed := (AccountRow.lastUsed candidate).getD 0
  if currentLastUsed < candidateLastUsed then true
  else if candidateLastUsed < currentLastUsed then false
  else decide ((AccountRow.addedAt current).getD 0 ≤ (AccountRow.addedAt candidate).getD 0)

def selectNewestAccount (current : Option T) (candidate : T) : T :=
  match current with
  | none => candidate
  | some current => if selectsCandidate current candidate then candidate else current

/-- The best match so far, after one more match. -/
def newerMatch (best : Option (Nat × T)) (i : Nat) (account : T) : Option (Nat × T) :=
  match best with
  | none => some (i,account)
  | some (j,current) => if selectsCandidate current account then some (i,account) else some (j,current)

variable [Host]

def identityRef (account : T) : AccountIdentityRef := toAccountIdentityRef (AccountRow.toAccountLike account)

/-- The newest among the rows from position `i` on that satisfy the predicate. -/
def newestFrom (predicate : AccountIdentityRef → Bool) : List T → Nat → Option (Nat × T) → Option Nat
  | [], _, best => best.map Prod.fst
  | account :: rest, i, best =>
    newestFrom predicate rest (i + 1) (if predicate (identityRef account) then newerMatch best i account else best)

def findNewestMatchingIndex (accounts : List T) (predicate : AccountIdentityRef → Bool) : Option Nat :=
  newestFrom predicate accounts 0 none

def findCompositeAccountMatchIndex (accounts : List T) (candidateRef : AccountIdentityRef) : Option Nat :=
  if candidateRef.accountId.isNone || candidateRef.emailKey.isNone then none
  else
    findNewestMatchingIndex accounts (fun ref =>
      decide (ref.accountId = candidateRef.accountId) && decide (ref.emailKey = candidateRef.emailKey))

def collectDistinctIdentityValues (values : List (Option String)) : List String := (values.filterMap id).eraseDups

def findSafeEmailMatchIndex (accounts : List T) (candidateRef : AccountIdentityRef) : Option Nat :=
  if candidateRef.emailKey.isNone then none
  else
    let owners := (accounts.map identityRef).filter (fun ref => decide (ref.emailKey = candidateRef.emailKey))
    if owners.isEmpty then none
    else if (collectDistinctIdentityValues (candidateRef.accountId :: owners.map AccountIdentityRef.accountId)).length > 1
    then none
    else findNewestMatchingIndex accounts (fun ref => decide (ref.emailKey = candidateRef.emailKey))

def conflicts (a b : Option String) : Bool := a.isSome && b.isSome && decide (a ≠ b)

/-- The owner's account id or email differs from the candidate's. -/
def contradicts (candidateRef ref : AccountIdentityRef) : Bool :=
  conflicts candidateRef.accountId ref.accountId || conflicts candidateRef.emailKey ref.emailKey

def isBare (candidateRef : AccountIdentityRef) : Bool := candidateRef.accountId.isNone && candidateRef.emailKey.isNone

/-- The scan for a refresh token from position `i` on. It gives up on an owner
    that contradicts the candidate, and on a second owner of a bare token. -/
def compatibleRefreshFrom (candidateRef : AccountIdentityRef) : List T → Nat → Option (Nat × T) → Option Nat
  | [], _, best => best.map Prod.fst
  | account :: rest, i, best =>
    let ref := identityRef account
    if ref.refreshToken ≠ candidateRef.refreshToken then compatibleRefreshFrom candidateRef rest (i + 1) best
    else if contradicts candidateRef ref then none
    else if best.isSome && isBare candidateRef then none
    else compatibleRefreshFrom candidateRef rest (i + 1) (newerMatch best i account)

def findCompatibleRefreshTokenMatchIndex (accounts : List T) (candidateRef : AccountIdentityRef) : Option Nat :=
  if candidateRef.refreshToken.isNone then none else compatibleRefreshFrom candidateRef accounts 0 none

/-- The only owner of an account id from position `i` on, with its email. -/
def uniqueOwnerFrom (accountId : Option String) : List T → Nat → Option (Nat × Option String) →
    Option (Nat × Option String)
  | [], _, found => found
  | account :: rest, i, found =>
    let ref := identityRef account
    if ref.accountId ≠ accountId then uniqueOwnerFrom accountId rest (i + 1) found
    else if found.isSome then none
    else uniqueOwnerFrom accountId rest (i + 1) (some (i,ref.emailKey))

def findUniqueAccountIdMatchIndex (accounts : List T) (candidateRef : AccountIdentityRef)
    (allowUniqueAccountIdFallbackWithoutEmail : Bool) : Option Nat :=
  if candidateRef.accountId.isNone then none
  else if candidateRef.emailKey.isNone && !allowUniqueAccountIdFallbackWithoutEmail then none
  else
    match uniqueOwnerFrom candidateRef.accountId accounts 0 none with
    | none => none
    | some (i,emailKey) => if conflicts emailKey candidateRef.emailKey then none else some i

/-- The row that a candidate with this identity matches. -/
def findMatchingRefIndex (accounts : List T) (candidateRef : AccountIdentityRef)
    (allowUniqueAccountIdFallbackWithoutEmail : Bool) : Option Nat :=
  ((findCompositeAccountMatchIndex accounts candidateRef).or
    ((findSafeEmailMatchIndex accounts candidateRef).or
      (findCompatibleRefreshTokenMatchIndex accounts candidateRef))).or
        (findUniqueAccountIdMatchIndex accounts candidateRef allowUniqueAccountIdFallbackWithoutEmail)

def findMatchingAccountIndex (accounts : List T) (candidate : AccountLike)
    (allowUniqueAccountIdFallbackWithoutEmail : Bool := false) : Option Nat :=
  findMatchingRefIndex accounts (toAccountIdentityRef candidate) allowUniqueAccountIdFallbackWithoutEmail

/-- Towards zero, as `Math.trunc`. -/
def truncate (value : ℚ) : ℤ := value.num.tdiv value.den

def clampIndex (index : ℚ) (length : Nat) : Nat :=
  if length = 0 then 0 else (max 0 (min (truncate index) (length - 1))).toNat

def resolveAccountSelectionIndex (accounts : List T) (candidate : AccountLike) (fallbackIndex : ℚ) : Nat :=
  if accounts.length = 0 then 0
  else
    (findMatchingAccountIndex accounts candidate true).getD (clampIndex fallbackIndex accounts.length)

/-! ### The newest match -/

/-- Later use first, then later addition, then the later position. -/
abbrev FreshKey := (ℚ ×ₗ ℚ) ×ₗ ℕ

def freshness (account : T) : ℚ ×ₗ ℚ :=
  toLex ((AccountRow.lastUsed account).getD 0,(AccountRow.addedAt account).getD 0)

def freshKey (i : Nat) (account : T) : FreshKey := toLex (freshness account,i)

theorem selectsCandidate_iff (current candidate : T) :
    selectsCandidate current candidate = true ↔ freshness current ≤ freshness candidate := by
  simp only [selectsCandidate,freshness,Prod.Lex.toLex_le_toLex]
  split
  · rename_i later; simp [later]
  · rename_i notLater
    split
    · rename_i earlier; simp [notLater,ne_of_gt earlier]
    · rename_i notEarlier
      have same := le_antisymm (not_lt.mp notEarlier) (not_lt.mp notLater)
      simp [same]

theorem freshKey_le {i j : Nat} {a b : T} :
    freshKey i a ≤ freshKey j b ↔ freshness a < freshness b ∨ freshness a = freshness b ∧ i ≤ j :=
  Prod.Lex.toLex_le_toLex

/-- The position holds the newest row that satisfies the predicate. -/
def IsNewest (accounts : List T) (predicate : AccountIdentityRef → Bool) (i : Nat) : Prop :=
  ∃ account, accounts[i]? = some account ∧ predicate (identityRef account) = true ∧
    ∀ j other, accounts[j]? = some other → predicate (identityRef other) = true → freshKey j other ≤ freshKey i account

variable {accounts : List T} {predicate : AccountIdentityRef → Bool}

theorem isNewest_unique {i j : Nat}
    (first : IsNewest accounts predicate i) (second : IsNewest accounts predicate j) : i = j := by
  obtain ⟨a,foundA,holdsA,mostA⟩ := first
  obtain ⟨b,foundB,holdsB,mostB⟩ := second
  have same := le_antisymm (mostA j b foundB holdsB) (mostB i a foundA holdsA)
  exact (congrArg (fun key => (ofLex key).2) same).symm

private def Best (seen : List T) (predicate : AccountIdentityRef → Bool) : Option (Nat × T) → Prop
  | none => ∀ account ∈ seen, predicate (identityRef account) = false
  | some (i,account) => IsNewest seen predicate i ∧ seen[i]? = some account

variable {seen : List T}

private theorem IsNewest.append {i : Nat} {current account : T} (newest : IsNewest seen predicate i) (same : seen[i]? = some current)
    (older : predicate (identityRef account) = true → freshKey seen.length account ≤ freshKey i current) :
    Best (seen ++ [account]) predicate (some (i,current)) := by
  obtain ⟨row,found,holds,most⟩ := newest
  cases same.symm.trans found
  have stays : (seen ++ [account])[i]? = some current := by rwa [List.getElem?_append_left (List.getElem?_eq_some_iff.mp found).1]
  refine ⟨⟨current,stays,holds,?_⟩,stays⟩
  intro j other foundOther holdsOther
  rcases Nat.lt_or_ge j seen.length with before | after
  · exact most j other (by rwa [List.getElem?_append_left before] at foundOther) holdsOther
  · obtain rfl : j = seen.length := by
      have inside := (List.getElem?_eq_some_iff.mp foundOther).1
      simp at inside
      omega
    obtain rfl : account = other := by simpa using foundOther
    exact older holdsOther

variable {best : Option (Nat × T)}

private theorem best_skip {account : T}
    (known : Best seen predicate best) (other : predicate (identityRef account) = false) :
    Best (seen ++ [account]) predicate best := by
  match best, known with
  | none, nowhere =>
    intro row member
    rcases mem_append.mp member with member | member
    · exact nowhere row member
    · rw [mem_singleton.mp member]; exact other
  | some (i,current), ⟨newest,same⟩ =>
    refine newest.append same ?_
    intro holds
    rw [other] at holds; cases holds

private theorem best_add {account : T}
    (known : Best seen predicate best) (holds : predicate (identityRef account) = true) :
    Best (seen ++ [account]) predicate (newerMatch best seen.length account) := by
  have place : (seen ++ [account])[seen.length]? = some account := by simp
  -- The new row is the newest when every earlier match is at most as fresh.
  have wins : (∀ (j : Nat) (other : T), seen[j]? = some other → predicate (identityRef other) = true → freshness other ≤ freshness account) →
      IsNewest (seen ++ [account]) predicate seen.length := by
    intro older
    refine ⟨account,place,holds,?_⟩
    intro j other found matched
    rcases Nat.lt_or_ge j seen.length with before | after
    · have := older j other (by rwa [List.getElem?_append_left before] at found) matched
      rcases lt_or_eq_of_le this with less | same
      · exact freshKey_le.mpr (.inl less)
      · exact freshKey_le.mpr (.inr ⟨same,le_of_lt before⟩)
    · rw [List.getElem?_append_right after,List.getElem?_singleton] at found
      split at found
      · cases found; exact freshKey_le.mpr (.inr ⟨rfl,by omega⟩)
      · cases found
  match best, known with
  | none, nowhere =>
    refine ⟨wins ?_,place⟩
    intro j other found matched
    rw [nowhere other (mem_of_getElem? found)] at matched; cases matched
  | some (i,current), ⟨⟨row,found,matched,most⟩,same⟩ =>
    cases same.symm.trans found
    simp only [newerMatch]
    split
    · rename_i selects
      refine ⟨wins ?_,place⟩
      intro j other foundOther matchedOther
      have less := freshKey_le.mp (most j other foundOther matchedOther)
      have newer := (selectsCandidate_iff _ _).mp selects
      rcases less with less | ⟨equal,-⟩
      · exact le_trans (le_of_lt less) newer
      · exact equal ▸ newer
    · rename_i keeps
      have older : freshness account < freshness current := by
        rw [selectsCandidate_iff] at keeps
        exact not_le.mp keeps
      exact IsNewest.append ⟨current,found,matched,most⟩ found (fun _ => freshKey_le.mpr (.inl older))

private theorem newestFrom_spec (rest : List T) (known : Best seen predicate best) :
    match newestFrom predicate rest seen.length best with
    | none => ∀ account ∈ seen ++ rest, predicate (identityRef account) = false
    | some i => IsNewest (seen ++ rest) predicate i := by
  induction rest generalizing seen best with
  | nil =>
    match best, known with
    | none, known => simpa [newestFrom,Best] using known
    | some (i,account), known => simpa [newestFrom] using known.1
  | cons account rest ih =>
    simp only [newestFrom]
    have next : Best (seen ++ [account]) predicate
        (if predicate (identityRef account) = true then newerMatch best seen.length account else best) := by
      split
      · rename_i holds; exact best_add known holds
      · rename_i other; exact best_skip known (by simpa using other)
    simpa using ih next

theorem findNewest_spec (accounts : List T) (predicate : AccountIdentityRef → Bool) :
    match findNewestMatchingIndex accounts predicate with
    | none => ∀ account ∈ accounts, predicate (identityRef account) = false
    | some i => IsNewest accounts predicate i := by
  have start : Best ([] : List T) predicate none := by simp [Best]
  simpa [findNewestMatchingIndex] using newestFrom_spec accounts start

theorem findNewest_eq_some {i : Nat} :
    findNewestMatchingIndex accounts predicate = some i ↔ IsNewest accounts predicate i := by
  have spec := findNewest_spec accounts predicate
  constructor
  · intro found; rwa [found] at spec
  · intro newest
    cases result : findNewestMatchingIndex accounts predicate with
    | none =>
      rw [result] at spec
      obtain ⟨account,found,holds,-⟩ := newest
      rw [spec account (mem_of_getElem? found)] at holds; cases holds
    | some j =>
      rw [result] at spec
      rw [isNewest_unique spec newest]

theorem findNewest_eq_none :
    findNewestMatchingIndex accounts predicate = none ↔ ∀ account ∈ accounts, predicate (identityRef account) = false := by
  have spec := findNewest_spec accounts predicate
  constructor
  · intro absent; rwa [absent] at spec
  · intro absent
    cases result : findNewestMatchingIndex accounts predicate with
    | none => rfl
    | some j =>
      rw [result] at spec
      obtain ⟨account,found,holds,-⟩ := spec
      rw [absent account (mem_of_getElem? found)] at holds; cases holds

/-! ### What each tier asks -/

/-- The present values among some are all the same. -/
def Agreeing (values : List (Option String)) : Prop := ∀ a b, some a ∈ values → some b ∈ values → a = b

theorem one_lt_distinct (values : List (Option String)) :
    1 < (collectDistinctIdentityValues values).length ↔ ¬ Agreeing values := by
  have member : ∀ a, a ∈ collectDistinctIdentityValues values ↔ some a ∈ values := by
    intro a; simp [collectDistinctIdentityValues,mem_eraseDups]
  have distinct : (collectDistinctIdentityValues values).Nodup := OrderedMap.nodup_eraseDups _
  simp only [Agreeing,← member,OrderedMap.one_lt_length_of_nodup distinct]
  constructor
  · rintro ⟨a,memberA,b,memberB,different⟩ agree
    exact different (agree a b memberA memberB)
  · intro disagree
    by_contra alike
    refine disagree (fun a b memberA memberB => ?_)
    by_contra different
    exact alike ⟨a,memberA,b,memberB,different⟩

variable {candidateRef : AccountIdentityRef}

/-- The email tier answers with the newest owner when all owners and the candidate agree. -/
theorem safeEmail_eq (accounts : List T) {email : String}
    (holds : candidateRef.emailKey = some email) :
    (Agreeing (candidateRef.accountId :: ((accounts.map identityRef).filter (fun ref => decide (ref.emailKey = some email))).map
        AccountIdentityRef.accountId) →
      findSafeEmailMatchIndex accounts candidateRef =
        findNewestMatchingIndex accounts (fun ref => decide (ref.emailKey = some email))) ∧
    (¬ Agreeing (candidateRef.accountId :: ((accounts.map identityRef).filter (fun ref => decide (ref.emailKey = some email))).map
        AccountIdentityRef.accountId) → findSafeEmailMatchIndex accounts candidateRef = none) := by
  have none_of : ((accounts.map identityRef).filter (fun ref => decide (ref.emailKey = some email))).isEmpty = true →
      findNewestMatchingIndex accounts (fun ref => decide (ref.emailKey = some email)) = none := by
    intro empty
    rw [findNewest_eq_none]
    intro account member
    rw [List.isEmpty_iff,List.filter_eq_nil_iff] at empty
    simpa using empty _ (List.mem_map_of_mem member)
  unfold findSafeEmailMatchIndex
  rw [holds]
  simp only [Option.isNone_some,Bool.false_eq_true,if_false]
  constructor
  · intro agree
    split
    · rename_i empty; exact (none_of empty).symm
    · exact if_neg (fun many => (one_lt_distinct _).mp many agree)
  · intro disagree
    split
    · rfl
    · exact if_pos ((one_lt_distinct _).mpr disagree)

private theorem compatibleRefreshFrom_eq (candidateRef : AccountIdentityRef) (rest : List T) (i : Nat)
    (best : Option (Nat × T)) :
    let owner := fun ref : AccountIdentityRef => decide (ref.refreshToken = candidateRef.refreshToken)
    compatibleRefreshFrom candidateRef rest i best =
      if (∃ account ∈ rest, owner (identityRef account) = true ∧ contradicts candidateRef (identityRef account) = true) ∨
          isBare candidateRef = true ∧ 1 < best.isSome.toNat + rest.countP (fun account => owner (identityRef account))
      then none else newestFrom owner rest i best := by
  intro owner
  induction rest generalizing i best with
  | nil =>
    have few : ¬ (1 < best.isSome.toNat) := by cases best <;> simp
    simp [compatibleRefreshFrom,newestFrom,few]
  | cons account rest ih =>
    simp only [compatibleRefreshFrom,newestFrom]
    by_cases owns : (identityRef account).refreshToken = candidateRef.refreshToken
    · have owned : owner (identityRef account) = true := by simp [owner,owns]
      rw [if_neg (not_not.mpr owns),if_pos owned]
      by_cases bad : contradicts candidateRef (identityRef account) = true
      · have present : ∃ other ∈ account :: rest, owner (identityRef other) = true ∧
            contradicts candidateRef (identityRef other) = true := ⟨account,by simp,owned,bad⟩
        rw [if_pos bad,if_pos (Or.inl present)]
      · rw [if_neg bad]
        by_cases ambiguous : (best.isSome && isBare candidateRef) = true
        · rw [if_pos ambiguous,if_pos]
          rw [Bool.and_eq_true] at ambiguous
          refine .inr ⟨ambiguous.2,?_⟩
          simp [ambiguous.1,owned]
        · rw [if_neg ambiguous,ih]
          have newer : (newerMatch best i account).isSome = true := by
            cases best with
            | none => rfl
            | some current => simp only [newerMatch]; split <;> rfl
          have count : isBare candidateRef = true →
              (1 < (newerMatch best i account).isSome.toNat + rest.countP (fun account => owner (identityRef account)) ↔
                1 < best.isSome.toNat + (account :: rest).countP (fun account => owner (identityRef account))) := by
            intro bare
            have absent : best.isSome = false := by simpa [bare] using ambiguous
            rw [newer,absent,countP_cons,if_pos owned]
            simp
          refine if_congr ?_ rfl rfl
          simp only [mem_cons,exists_eq_or_imp,bad,Bool.false_eq_true,and_false,false_or]
          exact or_congr Iff.rfl (and_congr_right count)
    · have foreign : owner (identityRef account) = false := by simp [owner,owns]
      rw [if_pos owns,foreign,ih]
      simp only [Bool.false_eq_true,if_false]
      refine if_congr ?_ rfl rfl
      simp [foreign]

/-- The token tier answers with the newest owner unless an owner contradicts the
    candidate or a bare token has two owners. -/
theorem compatibleRefresh_eq (accounts : List T) {token : String}
    (holds : candidateRef.refreshToken = some token) :
    findCompatibleRefreshTokenMatchIndex accounts candidateRef =
      if (∃ account ∈ accounts, (identityRef account).refreshToken = some token ∧
            contradicts candidateRef (identityRef account) = true) ∨
          isBare candidateRef = true ∧
            1 < accounts.countP (fun account => decide ((identityRef account).refreshToken = some token))
      then none else findNewestMatchingIndex accounts (fun ref => decide (ref.refreshToken = some token)) := by
  simp only [findCompatibleRefreshTokenMatchIndex,holds,Option.isNone_some,Bool.false_eq_true,if_false,
    compatibleRefreshFrom_eq,findNewestMatchingIndex,decide_eq_true_eq,Option.isSome_none,Bool.toNat_false,Nat.zero_add]

private theorem uniqueOwnerFrom_found (accountId : Option String) (rest : List T) (i : Nat) (found : Nat × Option String) :
    uniqueOwnerFrom accountId rest i (some found) =
      if ∃ account ∈ rest, (identityRef account).accountId = accountId then none else some found := by
  induction rest generalizing i with
  | nil => simp [uniqueOwnerFrom]
  | cons account rest ih =>
    simp only [uniqueOwnerFrom]
    by_cases owns : (identityRef account).accountId = accountId
    · simp [owns]
    · simp [owns,ih]

private theorem uniqueOwnerFrom_eq_some {accountId : Option String} {rest : List T} {i k : Nat} {emailKey : Option String} :
    uniqueOwnerFrom accountId rest i none = some (k,emailKey) ↔
      ∃ n account, k = i + n ∧ rest[n]? = some account ∧ (identityRef account).accountId = accountId ∧
        (identityRef account).emailKey = emailKey ∧
        ∀ m other, rest[m]? = some other → (identityRef other).accountId = accountId → m = n := by
  induction rest generalizing i with
  | nil => simp [uniqueOwnerFrom]
  | cons first rest ih =>
    simp only [uniqueOwnerFrom]
    by_cases owns : (identityRef first).accountId = accountId
    · rw [if_neg (not_not.mpr owns)]
      simp only [Option.isSome_none,Bool.false_eq_true,if_false,uniqueOwnerFrom_found]
      constructor
      · intro result
        split at result
        · cases result
        · rename_i others
          cases result
          refine ⟨0,first,rfl,rfl,owns,rfl,?_⟩
          intro m other found same
          cases m with
          | zero => rfl
          | succ m => exact absurd ⟨other,mem_of_getElem? found,same⟩ others
      · rintro ⟨n,account,rfl,found,same,rfl,sole⟩
        have start : 0 = n := sole 0 first rfl owns
        subst start
        cases found
        rw [if_neg]
        · simp
        · rintro ⟨other,member,equal⟩
          obtain ⟨m,bound,value⟩ := getElem_of_mem member
          have := sole (m + 1) other (by simp [List.getElem?_eq_getElem bound,value]) equal
          omega
    · rw [if_pos owns,ih]
      constructor
      · rintro ⟨n,account,rfl,found,same,email,sole⟩
        refine ⟨n + 1,account,by omega,found,same,email,?_⟩
        intro m other foundOther equal
        cases m with
        | zero => cases foundOther; exact absurd equal owns
        | succ m => rw [sole m other foundOther equal]
      · rintro ⟨n,account,rfl,found,same,email,sole⟩
        cases n with
        | zero => cases found; exact absurd same owns
        | succ n =>
          refine ⟨n,account,by omega,found,same,email,?_⟩
          intro m other foundOther equal
          have := sole (m + 1) other foundOther equal
          omega

theorem uniqueAccountId_eq_some {allow : Bool} {id : String} {i : Nat}
    (holds : candidateRef.accountId = some id) :
    findUniqueAccountIdMatchIndex accounts candidateRef allow = some i ↔
      (candidateRef.emailKey.isSome = true ∨ allow = true) ∧
      ∃ account, accounts[i]? = some account ∧ (identityRef account).accountId = some id ∧
        conflicts (identityRef account).emailKey candidateRef.emailKey = false ∧
        ∀ j other, accounts[j]? = some other → (identityRef other).accountId = some id → j = i := by
  unfold findUniqueAccountIdMatchIndex
  rw [holds]
  simp only [Option.isNone_some,Bool.false_eq_true,if_false]
  by_cases closed : (candidateRef.emailKey.isNone && !allow) = true
  · rw [if_pos closed]
    cases email : candidateRef.emailKey <;> cases allow <;> simp_all
  · rw [if_neg closed]
    have opened : candidateRef.emailKey.isSome = true ∨ allow = true := by
      cases email : candidateRef.emailKey <;> cases allow <;> simp_all
    constructor
    · intro result
      refine ⟨opened,?_⟩
      split at result
      · cases result
      · rename_i k emailKey sole
        obtain ⟨n,account,rfl,found,same,email,only⟩ := uniqueOwnerFrom_eq_some.mp sole
        split at result
        · cases result
        · rename_i fine
          simp only [Nat.zero_add,Option.some.injEq] at result
          subst result
          exact ⟨account,found,same,by rw [email]; simpa using fine,only⟩
    · rintro ⟨-,account,found,same,fine,only⟩
      have sole := uniqueOwnerFrom_eq_some.mpr ⟨i,account,(Nat.zero_add i).symm,found,same,rfl,only⟩
      simp [sole,fine]

def Compatible (a b : AccountIdentityRef) : Prop :=
  conflicts a.accountId b.accountId = false ∧ conflicts a.emailKey b.emailKey = false

theorem conflicts_iff {a b : Option String} : conflicts a b = true ↔ ∃ x y, a = some x ∧ b = some y ∧ x ≠ y := by
  cases a <;> cases b <;> simp [conflicts]

theorem conflicts_eq_false {a b : Option String} :
    conflicts a b = false ↔ ∀ x y, a = some x → b = some y → x = y := by
  cases a <;> cases b <;> simp [conflicts]

theorem compatible_symm {a b : AccountIdentityRef} (same : Compatible a b) : Compatible b a := by
  simp only [Compatible,conflicts_eq_false] at same ⊢
  exact ⟨fun x y hx hy => (same.1 y x hy hx).symm,fun x y hx hy => (same.2 y x hy hx).symm⟩

theorem findMatchingRefIndex_compatible {allow : Bool} {i : Nat}
    (matched : findMatchingRefIndex accounts candidateRef allow = some i) :
    ∃ account, accounts[i]? = some account ∧ Compatible candidateRef (identityRef account) := by
  simp only [findMatchingRefIndex,Option.or_eq_some_iff] at matched
  rcases matched with (composite | ⟨-,email | ⟨-,refresh⟩⟩) | ⟨-,unique⟩
  · simp only [findCompositeAccountMatchIndex] at composite
    split at composite
    · cases composite
    · obtain ⟨account,found,holds,-⟩ := findNewest_eq_some.mp composite
      simp only [Bool.and_eq_true,decide_eq_true_eq] at holds
      refine ⟨account,found,?_⟩
      simp only [Compatible,conflicts_eq_false,holds.1,holds.2]
      exact ⟨fun x y hx hy => Option.some.inj (hx.symm.trans hy),fun x y hx hy => Option.some.inj (hx.symm.trans hy)⟩
  · cases key : candidateRef.emailKey with
    | none => simp [findSafeEmailMatchIndex,key] at email
    | some e =>
      obtain ⟨agreed,disagreed⟩ := safeEmail_eq accounts key
      by_cases agree : Agreeing (candidateRef.accountId ::
          ((accounts.map identityRef).filter (fun ref => decide (ref.emailKey = some e))).map AccountIdentityRef.accountId)
      · rw [agreed agree] at email
        obtain ⟨account,found,holds,-⟩ := findNewest_eq_some.mp email
        simp only [decide_eq_true_eq] at holds
        refine ⟨account,found,?_⟩
        simp only [Compatible,conflicts_eq_false,key,holds]
        refine ⟨fun x y hx hy => agree x y (by simp [hx]) ?_,fun x y hx hy => Option.some.inj (hx.symm.trans hy)⟩
        refine mem_cons_of_mem _ (mem_map.mpr ⟨identityRef account,mem_filter.mpr ⟨?_,by simp [holds]⟩,hy⟩)
        exact List.mem_map_of_mem (mem_of_getElem? found)
      · rw [disagreed agree] at email; cases email
  · cases key : candidateRef.refreshToken with
    | none => simp [findCompatibleRefreshTokenMatchIndex,key] at refresh
    | some token =>
      rw [compatibleRefresh_eq accounts key] at refresh
      split at refresh
      · cases refresh
      · rename_i fine
        obtain ⟨account,found,holds,-⟩ := findNewest_eq_some.mp refresh
        refine ⟨account,found,?_⟩
        have agrees : contradicts candidateRef (identityRef account) = false := by
          by_contra bad
          exact fine (.inl ⟨account,mem_of_getElem? found,by simpa using holds,by simpa using bad⟩)
        simpa [contradicts,Compatible] using agrees
  · cases key : candidateRef.accountId with
    | none => simp [findUniqueAccountIdMatchIndex,key] at unique
    | some id =>
      obtain ⟨-,account,found,same,fine,-⟩ := (uniqueAccountId_eq_some key).mp unique
      refine ⟨account,found,?_⟩
      simp only [Compatible,conflicts_eq_false] at fine ⊢
      refine ⟨fun x y hx hy => ?_,fun x y hx hy => (fine y x hy hx).symm⟩
      rw [key] at hx
      exact Option.some.inj (hx.symm.trans (same.symm.trans hy))

end
end CodexMultiAuth
