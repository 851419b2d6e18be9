import Mathlib.Algebra.Order.Ring.Rat
import CodexMultiAuth.Identity

/-!
The policies of accounts, kept by a key of the account's identity, and what the runtime
decides by them for each account.
-/
namespace CodexMultiAuth.AccountPolicies

structure AccountPolicy where
  accountKey : String
  tags : List String
  weight : ℚ
  priority : ℕ
  autoPrime : Bool
  emergencyOnly : Bool
  paused : Bool
  drained : Bool
  note : Option String
  updatedAt : ℚ
  deriving DecidableEq

structure RuntimePolicyAccount where
  index : ℕ
  accountId : Option String
  email : Option String
  refreshToken : Option String
  deriving DecidableEq

/-- The parts of a routing profile that speak of accounts. -/
structure AccountPreferences where
  preferredTags : List String
  avoidTags : List String
  accountWeightByKey : OrderedMap String ℚ

section
variable [Host]

/-- The refresh token stands in where neither the account's id nor its email is known. -/
def policyIdentity (account : RuntimePolicyAccount) : String :=
  ((account.accountId.bind fun id => nonEmpty (trim id)) <|> (account.email.bind fun email => nonEmpty (Host.toLowerCase (trim email))) <|>
    ((account.refreshToken.bind fun token => nonEmpty (trim token)).map fun token => "refresh:" ++ token)).getD "unknown"

/-- The key of an account, wherever it stands. -/
def getAccountPolicyKey (account : RuntimePolicyAccount) (_index : Option ℕ) : String := "sha256:" ++ Host.sha256 (policyIdentity account)

def normalizeEntitlementEmail (email : Option String) : Option String := (email.bind fun email => nonEmpty (trim email)).map Host.toLowerCase

def resolveEntitlementAccountKey (account : RuntimePolicyAccount) : String :=
  match account.accountId.bind (fun id => nonEmpty (trim id)),normalizeEntitlementEmail account.email with
  | some id,some email => "account:" ++ id ++ "::email:" ++ email
  | none,some email => "email:" ++ email
  | some id,none => "account:" ++ id ++ "::idx:" ++ toString account.index
  | none,none => "idx:" ++ toString account.index

/-- What is decided for accounts, by their places. -/
structure RuntimePolicyDecision where
  blockedAccountIndexes : List ℕ
  blockedAccountReasons : OrderedMap ℕ String
  scoreBoostByAccount : OrderedMap ℕ ℚ
  priorityByAccount : OrderedMap ℕ ℕ
  emergencyAccountIndexes : List ℕ

def undecided : RuntimePolicyDecision := ⟨[],[],[],[],[]⟩

namespace RuntimePolicyDecision

def block (decision : RuntimePolicyDecision) (condition : Bool) (index : ℕ) (reason : String) : RuntimePolicyDecision :=
  if condition then
    { decision with
      blockedAccountIndexes := index :: decision.blockedAccountIndexes
      blockedAccountReasons := decision.blockedAccountReasons.put index reason }
  else decision

def rank (decision : RuntimePolicyDecision) (index priority : ℕ) (emergency : Bool) : RuntimePolicyDecision :=
  { decision with
    priorityByAccount := decision.priorityByAccount.put index priority
    emergencyAccountIndexes := if emergency then index :: decision.emergencyAccountIndexes else decision.emergencyAccountIndexes }

def boost (decision : RuntimePolicyDecision) (index : ℕ) (score : ℚ) : RuntimePolicyDecision :=
  { decision with scoreBoostByAccount := decision.scoreBoostByAccount.put index score }

end RuntimePolicyDecision

def intersects (left right : List String) : Bool := left.any right.contains

/-- What a policy and the profile add to the score of an account. -/
def scoreBoost (policy : Option AccountPolicy) (profile : Option AccountPreferences) (accountKey : String) : ℚ :=
  (policy.map fun policy => (policy.weight - 1) * 2).getD 0 +
    (if policy.any fun policy => profile.any fun profile => intersects policy.tags profile.preferredTags then 8 else 0) -
    (if policy.any fun policy => profile.any fun profile => intersects policy.tags profile.avoidTags then 8 else 0) +
    ((profile.bind fun profile => profile.accountWeightByKey.find accountKey).map (· * 2)).getD 0

/-- The decision with that for one account. -/
def judge (profile : Option AccountPreferences) (unsupported : String → Bool) (policies : String → Option AccountPolicy)
    (decision : RuntimePolicyDecision) (account : RuntimePolicyAccount) : RuntimePolicyDecision :=
  let accountKey := getAccountPolicyKey account (some account.index)
  let policy := policies accountKey
  let ranked := decision.rank account.index ((policy.map AccountPolicy.priority).getD 1) (policy.any AccountPolicy.emergencyOnly)
  let paused := ranked.block (policy.any AccountPolicy.paused) account.index "policy: paused"
  let drained := paused.block (policy.any AccountPolicy.drained) account.index
    (if policy.any AccountPolicy.paused then "policy: paused, drained" else "policy: drained")
  let capable := drained.block (unsupported (resolveEntitlementAccountKey account)) account.index "policy: unsupported model"
  capable.boost account.index (scoreBoost policy profile accountKey)

/-- The accounts' part of the decision on a request. -/
def evaluateRuntimePolicy (profile : Option AccountPreferences) (unsupported : String → Bool) (policies : String → Option AccountPolicy)
    (accounts : List RuntimePolicyAccount) : RuntimePolicyDecision := accounts.foldl (judge profile unsupported policies) undecided

end

structure Verdict where
  blocked : Bool
  reason : Option String
  boost : Option ℚ
  priority : Option ℕ
  emergency : Bool
  deriving DecidableEq

/-- The runtime policy decision for the account at a place. -/
def RuntimePolicyDecision.at_ (decision : RuntimePolicyDecision) (index : ℕ) : Verdict where
  blocked := decision.blockedAccountIndexes.contains index
  reason := decision.blockedAccountReasons.find index
  boost := decision.scoreBoostByAccount.find index
  priority := decision.priorityByAccount.find index
  emergency := decision.emergencyAccountIndexes.contains index

section
variable {decision : RuntimePolicyDecision} {index other : ℕ} (differ : index ≠ other)
include differ

@[simp] theorem block_at (condition : Bool) (reason : String) : (decision.block condition index reason).at_ other = decision.at_ other := by
  cases condition <;> simp [RuntimePolicyDecision.block,RuntimePolicyDecision.at_,differ,differ.symm]

@[simp] theorem rank_at (priority : ℕ) (emergency : Bool) : (decision.rank index priority emergency).at_ other = decision.at_ other := by
  cases emergency <;> simp [RuntimePolicyDecision.rank,RuntimePolicyDecision.at_,differ,differ.symm]

@[simp] theorem boost_at (score : ℚ) : (decision.boost index score).at_ other = decision.at_ other := by
  simp [RuntimePolicyDecision.boost,RuntimePolicyDecision.at_,differ]

end

section
variable {one other : RuntimePolicyDecision} {index : ℕ} (same : one.at_ index = other.at_ index)
include same

theorem block_congr (condition : Bool) (reason : String) : (one.block condition index reason).at_ index = (other.block condition index reason).at_ index := by
  cases condition with
  | false => exact same
  | true =>
    simp [RuntimePolicyDecision.at_] at same
    simp [RuntimePolicyDecision.block,RuntimePolicyDecision.at_,same]

theorem rank_congr (priority : ℕ) (emergency : Bool) : (one.rank index priority emergency).at_ index = (other.rank index priority emergency).at_ index := by
  simp [RuntimePolicyDecision.at_] at same
  cases emergency <;> simp [RuntimePolicyDecision.rank,RuntimePolicyDecision.at_,same]

theorem boost_congr (score : ℚ) : (one.boost index score).at_ index = (other.boost index score).at_ index := by
  simp [RuntimePolicyDecision.at_] at same
  simp [RuntimePolicyDecision.boost,RuntimePolicyDecision.at_,same]

end

section
variable [Host] {profile : Option AccountPreferences} {unsupported : String → Bool} {policies changed : String → Option AccountPolicy}

theorem judge_congr {index : ℕ} {one other : RuntimePolicyDecision} (same : one.at_ index = other.at_ index) {account : RuntimePolicyAccount}
    (unchanged : account.index = index → changed (getAccountPolicyKey account (some index)) = policies (getAccountPolicyKey account (some index))) :
    (judge profile unsupported changed one account).at_ index = (judge profile unsupported policies other account).at_ index := by
  unfold judge
  by_cases here : account.index = index
  · subst here
    dsimp only
    rw [unchanged rfl]
    exact boost_congr (block_congr (block_congr (block_congr (rank_congr same _ _) _ _) _ _) _ _) _
  · simp only [block_at here,rank_at here,boost_at here,same]

theorem evaluate_congr {index : ℕ} {accounts : List RuntimePolicyAccount}
    (unchanged : ∀ account ∈ accounts, account.index = index →
      changed (getAccountPolicyKey account (some index)) = policies (getAccountPolicyKey account (some index))) :
    (evaluateRuntimePolicy profile unsupported changed accounts).at_ index = (evaluateRuntimePolicy profile unsupported policies accounts).at_ index := by
  induction accounts using List.reverseRecOn with
  | nil => rfl
  | append_singleton before account ih =>
    rw [evaluateRuntimePolicy,evaluateRuntimePolicy,List.foldl_append,List.foldl_append]
    exact judge_congr (ih fun other member => unchanged other (List.mem_append_left _ member))
      (unchanged account (List.mem_append_right _ List.mem_cons_self))

end

section
variable [Host]

def getAccountIdentityKey (account : RuntimePolicyAccount) : Option String :=
  getIdentityKeyFromRef (toAccountIdentityRef ⟨account.accountId,account.email,account.refreshToken⟩) true

def Identified (account : RuntimePolicyAccount) : Prop :=
  (normalizeAccountIdKey account.accountId).isSome = true ∧ (normalizeEmailKey account.email).isSome = true

/-- The policies of one account are of its own: whatever is changed under its key, the decision
    for the other stays, in any request that has the other at a place of its own. -/
def Separate (one other : RuntimePolicyAccount) : Prop :=
  (∀ here there, getAccountPolicyKey one here ≠ getAccountPolicyKey other there) ∧
    (∀ here there, getAccountPolicyKey one here = getAccountPolicyKey one there) ∧
    ∀ (profile : Option AccountPreferences) (unsupported : String → Bool) (policies changed : String → Option AccountPolicy) (accounts : List RuntimePolicyAccount),
      (∀ key, key ≠ getAccountPolicyKey one none → changed key = policies key) →
      (∀ account ∈ accounts, account.index = other.index → account = other) →
      (evaluateRuntimePolicy profile unsupported changed accounts).at_ other.index =
        (evaluateRuntimePolicy profile unsupported policies accounts).at_ other.index

theorem policyIdentity_identified {account : RuntimePolicyAccount} (identified : Identified account) :
    normalizeAccountIdKey account.accountId = some (policyIdentity account) := by
  obtain ⟨id,known⟩ := Option.isSome_iff_exists.mp identified.1
  have first : (account.accountId.bind fun id => nonEmpty (trim id)) = some id := known
  rw [known,policyIdentity,first]
  rfl

/-- Accounts with an id and an email keep their policies apart exactly where their ids differ. -/
theorem separate_iff_ids_differ (injective : Function.Injective Host.sha256) {one other : RuntimePolicyAccount} (first : Identified one)
    (second : Identified other) (_distinguished : getAccountIdentityKey one ≠ getAccountIdentityKey other) :
    Separate one other ↔ normalizeAccountIdKey one.accountId ≠ normalizeAccountIdKey other.accountId := by
  have key (here there : Option ℕ) : getAccountPolicyKey one here = getAccountPolicyKey other there ↔ policyIdentity one = policyIdentity other :=
    ⟨fun same => injective ((String.append_right_inj _).mp same),fun same => by rw [getAccountPolicyKey,getAccountPolicyKey,same]⟩
  rw [policyIdentity_identified first,policyIdentity_identified second,ne_eq,Option.some_inj]
  constructor
  · intro separate same
    exact separate.1 none none ((key none none).mpr same)
  · intro differ
    refine ⟨fun here there same => differ ((key here there).mp same),fun _ _ => rfl,fun profile unsupported policies changed accounts only alone => ?_⟩
    refine evaluate_congr fun account member here => only _ fun same => ?_
    rw [alone account member here] at same
    exact differ ((key none _).mp same.symm)

end

def member (index : ℕ) (email : String) : RuntimePolicyAccount := ⟨index,some "ws",some email,none⟩

theorem members_share_policies : ¬ ∀ [Host],Function.Injective Host.sha256 → ∀ one other : RuntimePolicyAccount,Identified one → Identified other →
    getAccountIdentityKey one ≠ getAccountIdentityKey other → Separate one other := by
  intro claim
  let host := asciiHost
  have id : normalizeAccountIdKey (some "ws") = some "ws" := by decide
  have identified (index : ℕ) (email : String) (some_ : (normalizeEmailKey (some email)).isSome = true) : Identified (member index email) :=
    ⟨by rw [member,id]; rfl,some_⟩
  have separate := claim (fun one other same => same) (member 0 "a@x") (member 1 "b@x") (identified 0 "a@x" (by decide)) (identified 1 "b@x" (by decide))
    (by decide)
  exact separate.1 none none rfl

theorem other_workspace_separate : @Separate asciiHost ⟨0,some "ws",some "a@x",none⟩ ⟨1,some "xs",some "a@x",none⟩ := by
  let host := asciiHost
  exact (separate_iff_ids_differ (fun one other same => same) ⟨by decide,by decide⟩ ⟨by decide,by decide⟩ (by decide)).mpr (by decide)

end CodexMultiAuth.AccountPolicies
