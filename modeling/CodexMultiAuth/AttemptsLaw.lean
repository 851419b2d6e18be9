import CodexMultiAuth.AccountAttempts
import CodexMultiAuth.HybridSelection

/-!
When the loop over the accounts may end. It ends rightly if nothing usable is left
that was not attempted; it ends wrongly where the best score goes to an account
that was attempted while another one is usable.
-/
namespace CodexMultiAuth.AccountAttempts

section
variable (process : HybridSelection.Process) (params : HybridSelection.SelectHybridAccountParams) (trackerKey : Nat → Option HybridSelection.TrackerKey)

/-- A candidate of the pool as the selector sees it. -/
def seen (account : AccountPool.AccountWithMetrics) : HybridSelection.AccountWithMetrics where
  index := account.index
  trackerKey := trackerKey account.index
  isAvailable := account.isAvailable
  lastUsed := account.lastUsed

theorem bestAccount_seen (accounts : List AccountPool.AccountWithMetrics) (best : Option AccountPool.AccountWithMetrics) :
    HybridSelection.bestAccount process params (best.map (fun account => (seen trackerKey account,HybridSelection.selectorScore process params (seen trackerKey account))))
        (accounts.map (seen trackerKey)) =
      (accounts.foldl (AccountPool.betterScore (fun account => some (HybridSelection.selectorScore process params (seen trackerKey account)))) best).map
        (seen trackerKey) := by
  induction accounts generalizing best with
  | nil => cases best <;> rfl
  | cons account rest ih =>
    cases best with
    | none => exact ih (some account)
    | some current =>
      simp only [List.map_cons,Option.map_some,HybridSelection.bestAccount,List.foldl_cons,AccountPool.betterScore,Option.any_some,decide_eq_true_eq]
      split
      · exact ih (some account)
      · exact ih (some current)

variable {accounts : List AccountPool.AccountWithMetrics}

/-- The choice of the pool is that of the selector. -/
theorem selectHybridAccount_seen {blockedAccountIndexes : List Nat}
    (all : params.accounts = accounts.map (seen trackerKey)) (blocked : params.options.blockedAccountIndexes = blockedAccountIndexes.map Int.ofNat) :
    HybridSelection.selectHybridAccount process params =
      (AccountPool.selectHybridAccount (fun account => some (HybridSelection.selectorScore process params (seen trackerKey account)))
        blockedAccountIndexes accounts).map (seen trackerKey) := by
  have available : HybridSelection.availableAccounts params =
      (accounts.filter (fun account => account.isAvailable && !blockedAccountIndexes.contains account.index)).map (seen trackerKey) := by
    rw [HybridSelection.availableAccounts,all,List.filter_map]
    congr 1
    refine List.filter_congr fun account _ => ?_
    simp [HybridSelection.isBlocked,blocked,seen]
  rw [HybridSelection.selectHybridAccount,available,AccountPool.selectHybridAccount]
  cases candidates : accounts.filter (fun account => account.isAvailable && !blockedAccountIndexes.contains account.index) with
  | nil => rfl
  | cons first rest =>
    cases rest with
    | nil => rfl
    | cons second rest => exact bestAccount_seen process params trackerKey (first :: second :: rest) none

/-- What a turn finds is what the selector is given, with its default weights. -/
structure Finds (request : Request) (situation : Situation) : Prop where
  now : situation.env.now = process.now
  weights : HybridSelection.withDefaults params.config = {}
  health : ∀ index : Nat, situation.health index = params.healthTracker.getScore process.now ((trackerKey index).getD (.number index)) params.quotaKey
  tokens : ∀ index : Nat, situation.tokens index = params.tokenTracker.getTokens process.now ((trackerKey index).getD (.number index)) params.quotaKey
  boosts : ∀ account, request.scoreBoostByAccount account.index = HybridSelection.capabilityBoost params (seen trackerKey account)
  offset : request.pidBonus = if params.options.pidOffsetEnabled then some (HybridSelection.pidBonus process params) else none

variable {process params trackerKey}

theorem Finds.points {request : Request} {situation : Situation} (finds : Finds process params trackerKey request situation)
    (account : AccountPool.AccountWithMetrics) :
    points request situation account = HybridSelection.selectorScore process params (seen trackerKey account) := by
  have hours : (1000 * 60 * 60 : ℚ) = HOUR_MS := by norm_num [HOUR_MS]
  rw [AccountAttempts.points,HybridSelection.selectorScore,finds.now,finds.health,finds.tokens,finds.boosts,finds.offset,
    HybridSelection.hoursSinceUsed,hours,finds.weights]
  cases enabled : params.options.pidOffsetEnabled with
  | false => simp [seen]
  | true =>
    have bonus : 0 ≤ HybridSelection.pidBonus process params := by
      rw [HybridSelection.pidBonus,if_pos enabled]
      positivity
    have positive : 0 ≤ (account.index : ℚ) * (131 / 1000) + HybridSelection.pidBonus process params := by positivity
    have part : HybridSelection.remOne ((account.index : ℚ) * (131 / 1000) + HybridSelection.pidBonus process params) =
        fraction ((account.index : ℚ) * (131 / 1000) + HybridSelection.pidBonus process params) := if_pos positive
    simp [seen,part]

/-- The scores of a turn are the selector's, and so is its choice. -/
theorem Finds.selected {request : Request} {situation : Situation} (finds : Finds process params trackerKey request situation) {blockedAccountIndexes : List Nat}
    (all : params.accounts = accounts.map (seen trackerKey)) (blocked : params.options.blockedAccountIndexes = blockedAccountIndexes.map Int.ofNat) :
    HybridSelection.selectHybridAccount process params =
      (AccountPool.selectHybridAccount (hybridScore request situation) blockedAccountIndexes accounts).map (seen trackerKey) := by
  have scores : hybridScore request situation = fun account => some (HybridSelection.selectorScore process params (seen trackerKey account)) :=
    funext fun account => congrArg some (finds.points account)
  rw [scores]
  exact selectHybridAccount_seen process params trackerKey all blocked

end

/-! ### The loop -/

/-- An account that is not blocked, has no cached entitlement block and can serve. -/
structure Usable (request : Request) (situation : Situation) (pool : AccountPool) (account : ManagedAccount) : Prop where
  member : account ∈ pool.accounts
  unblocked : account.index ∉ request.blockedAccountIndexes
  entitled : situation.entitlementBlocked (entitlementRef account) = false
  available : isAccountAvailableForFamily pool situation.env account.index request.family request.model = true

/-- Nothing usable is left out at a moment. -/
def CompleteAt (request : Request) (s : State) (moment : Situation) : Prop :=
  ∀ account, Usable request moment s.pool account → account.ref ∈ s.tried

/-- Nothing usable is left out where the loop has ended without an answer. -/
def Complete (request : Request) (s : State) : Prop :=
  match s.status with
  | .exhausted moment => CompleteAt request s moment
  | _ => True

instance (request : Request) (s : State) (moment : Situation) : Decidable (CompleteAt request s moment) :=
  decidable_of_iff (∀ account ∈ s.pool.accounts, account.index ∉ request.blockedAccountIndexes →
      moment.entitlementBlocked (entitlementRef account) = false →
      isAccountAvailableForFamily s.pool moment.env account.index request.family request.model = true → account.ref ∈ s.tried)
    ⟨fun all account usable => all account usable.member usable.unblocked usable.entitled usable.available,
      fun complete account member unblocked entitled available => complete account ⟨member,unblocked,entitled,available⟩⟩

instance (request : Request) : (s : State) → Decidable (Complete request s)
  | ⟨pool,attempted,used,tried,.exhausted moment⟩ =>
    inferInstanceAs (Decidable (CompleteAt request ⟨pool,attempted,used,tried,.exhausted moment⟩ moment))
  | ⟨_,_,_,_,.running⟩ => isTrue trivial
  | ⟨_,_,_,_,.answered⟩ => isTrue trivial
  | ⟨_,_,_,_,.fellBack⟩ => isTrue trivial

/-- The accounts that the selector compares. -/
def candidates (request : Request) (situation : Situation) (pool : AccountPool) : List AccountPool.AccountWithMetrics :=
  (pool.accountsWithMetrics situation.env request.family request.model).filter
    (fun account => account.isAvailable && !request.blockedAccountIndexes.contains account.index)

/-- A higher score, or the same at an earlier position. -/
def Outscores (request : Request) (situation : Situation) (best other : AccountPool.AccountWithMetrics) : Prop :=
  points request situation other < points request situation best ∨
    points request situation other = points request situation best ∧ best.index < other.index

/-- A candidate at a position that was not attempted outscores all that were attempted. -/
def Leading (request : Request) (situation : Situation) (s : State) : Prop :=
  ∃ best ∈ candidates request situation s.pool, best.index ∉ s.attempted ∧
    ∀ other ∈ candidates request situation s.pool, other.index ∈ s.attempted → Outscores request situation best other

/-- While something usable is left, positions are left and the scores lead to one of them. -/
def Moves (request : Request) (s : State) (turn : Turn) : Prop :=
  (∃ account, Usable request turn.situation s.pool account ∧ account.ref ∉ s.tried) →
    s.attempted.length < max 1 request.accountCount ∧
      ((preferredAccount request turn.situation s).isSome ∨ Leading request turn.situation s)

structure Start (s : State) : Prop where
  indexed : s.pool.Indexed
  attempted : s.attempted = []
  tried : s.tried = []
  running : s.status = .running

section
variable {request : Request} {situation : Situation} {pool : AccountPool} {s : State}

open AccountPool List

theorem betterScore_some (f : AccountWithMetrics → ℚ) :
    betterScore (fun account => some (f account)) = List.argAux (fun b c => f c < f b) := by
  funext best account
  cases best with
  | none => rfl
  | some current => simp [betterScore,List.argAux]

theorem selectHybridAccount_eq : selectHybridAccount (hybridScore request situation) request.blockedAccountIndexes
    (pool.accountsWithMetrics situation.env request.family request.model) =
      (candidates request situation pool).argmax (points request situation) := by
  unfold selectHybridAccount
  rw [← candidates]
  split
  · next empty => rw [empty]; rfl
  · next only single => rw [single]; rfl
  · rw [show hybridScore request situation = fun account => some (points request situation account) from rfl,betterScore_some]
    rfl

theorem indexed_map {pool : AccountPool} (indexed : pool.Indexed) : pool.accounts.map ManagedAccount.index = List.range pool.accounts.length := by
  refine ext_getElem (by simp) (fun i before _ => ?_)
  rw [length_map] at before
  simp only [getElem_map,getElem_range]
  exact indexed i _ (List.getElem?_eq_getElem before)

theorem candidates_sorted (indexed : pool.Indexed) :
    (candidates request situation pool).Pairwise (fun a b => a.index < b.index) := by
  have sorted : pool.accounts.Pairwise (fun a b => a.index < b.index) := by
    rw [← pairwise_map (f := ManagedAccount.index) (R := fun a b => a < b),indexed_map indexed]
    exact pairwise_lt_range
  refine List.Pairwise.filter _ ?_
  rw [accountsWithMetrics,pairwise_map]
  exact sorted.filter _

theorem index_le_of_idxOf {l : List AccountWithMetrics} [DecidableEq AccountWithMetrics] (sorted : l.Pairwise (fun a b => a.index < b.index))
    {a b : AccountWithMetrics} (there : b ∈ l) (first : l.idxOf a ≤ l.idxOf b) : a.index ≤ b.index := by
  have bound : l.idxOf b < l.length := idxOf_lt_length_of_mem there
  rcases Nat.lt_or_eq_of_le first with less | same
  · have before := pairwise_iff_getElem.mp sorted _ _ (less.trans bound) bound less
    rw [getElem_idxOf,getElem_idxOf] at before
    exact before.le
  · have here : a ∈ l := idxOf_lt_length_iff.mp (same ▸ bound)
    rw [(idxOf_inj here).mp same]

theorem leading_iff (indexed : s.pool.Indexed) {winner : AccountWithMetrics}
    (won : (candidates request situation s.pool).argmax (points request situation) = some winner) :
    Leading request situation s ↔ winner.index ∉ s.attempted := by
  classical
  obtain ⟨there,top,first⟩ := mem_argmax_iff.mp (Option.mem_def.mpr won)
  constructor
  · rintro ⟨best,member,_,leads⟩ repeated
    rcases leads winner there repeated with higher | ⟨same,earlier⟩
    · exact absurd (top best member) (not_le.mpr higher)
    · have order := index_le_of_idxOf (candidates_sorted indexed) member (first best member same.le)
      omega
  · intro fresh
    refine ⟨winner,there,fresh,?_⟩
    intro other member repeated
    rcases lt_or_eq_of_le (top other member) with lower | same
    · exact Or.inl lower
    · have order := index_le_of_idxOf (candidates_sorted indexed) member (first other member same.ge)
      refine Or.inr ⟨same,lt_of_le_of_ne order ?_⟩
      intro one
      exact fresh (one ▸ repeated)

end

section
variable {request : Request} {situation : Situation} {pool after : AccountPool} {s : State} {turn : Turn}

open AccountPool

variable {account : ManagedAccount}

theorem isAccountAvailableForFamily_at (indexed : pool.Indexed) (member : account ∈ pool.accounts) (env : Runtime)
    (family : ModelFamily) (model : Option String) :
    isAccountAvailableForFamily pool env account.index family model = isEligible env family model account := by
  simp only [isAccountAvailableForFamily,getAccountByIndex,indexed.at member,Option.any_some]

theorem Usable.candidate (indexed : pool.Indexed) (usable : Usable request situation pool account) :
    (⟨account.index,true,account.lastUsed⟩ : AccountWithMetrics) ∈ candidates request situation pool := by
  have eligible := usable.available
  rw [isAccountAvailableForFamily_at indexed usable.member,isEligible,Bool.and_eq_true] at eligible
  refine List.mem_filter.mpr ⟨List.mem_map.mpr ⟨account,List.mem_filter.mpr ⟨usable.member,eligible.1⟩,?_⟩,?_⟩
  · rw [eligible.2]
  · simpa using usable.unblocked

theorem Usable.same (indexed : pool.Indexed) (same : SameAccounts pool after)
    (usable : Usable request situation pool account) : ∃ other, Usable request situation after other ∧ other.ref = account.ref := by
  obtain ⟨other,there,alike⟩ := same.getElem (indexed.at usable.member)
  have index : other.index = account.index := settled_index alike
  have member := List.mem_of_getElem? there
  have ref : other.ref = account.ref := by
    show (settled other).ref = (settled account).ref
    rw [alike]
  have entitlement : entitlementRef other = entitlementRef account := by
    show entitlementRef (settled other) = entitlementRef (settled account)
    rw [alike]
  have eligible : isEligible situation.env request.family request.model other = isEligible situation.env request.family request.model account := by
    show isEligible situation.env request.family request.model (settled other) =
      isEligible situation.env request.family request.model (settled account)
    rw [alike]
  refine ⟨other,⟨member,by rw [index]; exact usable.unblocked,by rw [entitlement]; exact usable.entitled,?_⟩,ref⟩
  rw [isAccountAvailableForFamily_at (same.indexed indexed) member,eligible,← isAccountAvailableForFamily_at indexed usable.member]
  exact usable.available

theorem selectAccount_same (request : Request) (situation : Situation) (s : State) :
    SameAccounts s.pool (selectAccount request situation s).1 := by
  unfold selectAccount
  split
  · exact (sameAccounts_touch _ _ _).trans (markSwitched_same _ _ _ _)
  · exact getCurrentOrNextForFamilyHybrid_same _ _ _ _ _ _

section
variable (indexed : s.pool.Indexed)
include indexed

theorem taken_at {position : Nat} (selected : (selectAccount request situation s).2 = some position)
    (inside : (s.pool.accounts[position]?).isSome) : ∃ account, taken request situation s = some account ∧ account.index = position := by
  obtain ⟨before,found⟩ := Option.isSome_iff_exists.mp inside
  obtain ⟨account,there,_⟩ := (selectAccount_same request situation s).getElem found
  refine ⟨account,?_,(selectAccount_same request situation s).indexed indexed position account there⟩
  rw [taken,selected,Option.bind_some,there]

theorem taken_preferred {index : Nat} (preferred : preferredAccount request situation s = some index) :
    ∃ account, taken request situation s = some account ∧ account.index = index := by
  refine taken_at indexed (by rw [selectAccount,preferred]) ?_
  unfold preferredAccount at preferred
  split at preferred
  · cases preferred
  · have available := (Option.filter_eq_some_iff.mp preferred).2
    rw [Bool.and_eq_true] at available
    unfold isAccountAvailableForFamily getAccountByIndex at available
    cases found : s.pool.accounts[index]? with
    | none => simp [found] at available
    | some _ => rfl

theorem taken_winner (unpreferred : preferredAccount request situation s = none) {winner : AccountWithMetrics}
    (won : (candidates request situation s.pool).argmax (points request situation) = some winner) :
    ∃ account, taken request situation s = some account ∧ account.index = winner.index := by
  have member : winner ∈ candidates request situation s.pool := List.argmax_mem (Option.mem_def.mpr won)
  obtain ⟨origin,there,rfl⟩ := List.mem_map.mp (List.mem_of_mem_filter member)
  have found := indexed.at (List.mem_of_mem_filter there)
  refine taken_at indexed ?_ (by rw [found]; rfl)
  rw [selectAccount,unpreferred]
  simp only [getCurrentOrNextForFamilyHybrid,selectHybridAccount_eq,won,found]

theorem exists_winner (usable : Usable request situation s.pool account) :
    ∃ winner, (candidates request situation s.pool).argmax (points request situation) = some winner := by
  rcases won : (candidates request situation s.pool).argmax (points request situation) with _ | winner
  · rw [List.argmax_eq_none] at won
    have member := usable.candidate indexed
    rw [won] at member
    cases member
  · exact ⟨winner,rfl⟩

end

/-! ### One turn -/

/-- The loop ends where the positions are used up or the answer is repeated, and goes on with a new account. -/
theorem attempt_cases (request : Request) (s : State) (turn : Turn) :
    (max 1 request.accountCount ≤ s.attempted.length ∧ attempt request s turn = exhaust turn s) ∨
    ((∀ account, taken request turn.situation s = some account → account.index ∈ s.attempted) ∧
      attempt request s turn = exhaust turn (selecting request turn.situation s)) ∨
    s.attempted.length < max 1 request.accountCount ∧ ∃ account, taken request turn.situation s = some account ∧
      account.index ∉ s.attempted ∧ attempt request s turn = pursue request turn account (selecting request turn.situation s) := by
  unfold attempt
  by_cases full : max 1 request.accountCount ≤ s.attempted.length
  · exact Or.inl ⟨full,if_pos full⟩
  · refine Or.inr ?_
    rw [if_neg full]
    rcases given : taken request turn.situation s with _ | account
    · exact Or.inl ⟨fun _ missing => (nomatch missing),rfl⟩
    · by_cases repeated : account.index ∈ s.attempted
      · exact Or.inl ⟨fun other same => Option.some.inj same ▸ repeated,if_pos (List.contains_iff_mem.mpr repeated)⟩
      · refine Or.inr ⟨not_le.mp full,account,rfl,repeated,if_neg ?_⟩
        rwa [List.contains_iff_mem]

/-- A loop over an indexed pool, which the session account comes first in, and which has left out nothing usable. -/
structure Good (request : Request) (s : State) : Prop where
  indexed : s.pool.Indexed
  first : request.preferredSessionAccountIndex.isSome → s.usedPreferredSessionAccount = false → s.attempted = []
  complete : Complete request s

section
variable (indexed : pool.Indexed)
include indexed

theorem changeObject_indexed {ref : Nat} {change : ManagedAccount → ManagedAccount}
    (keeps : ∀ account, (change account).index = account.index) : (changeObject pool ref change).Indexed := by
  intro i account found
  rw [changeObject,List.getElem?_map] at found
  obtain ⟨before,there,rfl⟩ := Option.map_eq_some_iff.mp found
  split
  · rw [keeps]
    exact indexed i before there
  · exact indexed i before there

theorem removeAccount_indexed (ref : Nat) : (pool.removeAccount ref).1.Indexed := by
  rcases outcome : pool.removeAccount ref with ⟨left,removed⟩
  cases removed with
  | true =>
    obtain ⟨_,_,facts⟩ := removeAccount_removed outcome
    exact facts.indexed
  | false =>
    unfold removeAccount at outcome
    split at outcome
    · rw [← (Prod.mk.inj outcome).1]
      exact indexed
    · simp only at outcome
      split at outcome <;> exact absurd (Prod.mk.inj outcome).2 (by decide)

theorem indexed_set {position : Nat} {account replaced : ManagedAccount}
    (found : pool.accounts[position]? = some account) (same : replaced.index = account.index) :
    ∀ (i : Nat) other, (pool.accounts.set position replaced)[i]? = some other → other.index = i := by
  intro i other there
  rw [List.getElem?_set] at there
  split at there
  · next here =>
    subst here
    split at there
    · obtain rfl := Option.some.inj there
      rw [same]
      exact indexed position account found
    · cases there
  · exact indexed i other there

theorem setAccountEnabled_indexed (index : ℚ) (enabled : Bool) : (pool.setAccountEnabled index enabled).Indexed := by
  unfold setAccountEnabled
  split
  · exact indexed
  · next account found =>
    have kept : ∀ change : ManagedAccount, change.index = account.index →
        (if enabled && !account.enabled then resetWorkspaces change else change).index = account.index := by
      intro change same
      split
      · exact (congrArg Prod.snd (resetWorkspaces_place change)).trans same
      · exact same
    have stays := indexed_set indexed (AccountPool.item_some found) (kept { account with enabled := enabled } rfl)
    simp only
    split
    · exact stays
    · split <;> exact stays

end

theorem pursue_spec (may : enabled request s turn) {middle : State} (indexed : middle.pool.Indexed) (running : middle.status = .running)
    (account : ManagedAccount) : (pursue request turn account middle).pool.Indexed ∧
      (∀ moment, (pursue request turn account middle).status ≠ .exhausted moment) ∧
      (pursue request turn account middle).usedPreferredSessionAccount = middle.usedPreferredSessionAccount := by
  have still : ∀ moment, middle.status ≠ .exhausted moment := by
    intro moment ended
    rw [running] at ended
    cases ended
  have then_ := may.2.2 middle.pool indexed
  unfold pursue
  split
  · exact ⟨indexed,still,rfl⟩
  · unfold leave
    cases turn.exit with
    | coolsDown cooldownMs reason =>
      cases cooldownMs with
      | none => exact ⟨then_,still,rfl⟩
      | some cooldownMs => exact ⟨changeObject_indexed then_ (fun _ => rfl),still,rfl⟩
    | removesAccount => exact ⟨removeAccount_indexed then_ _,still,rfl⟩
    | rateLimited retryAfterMs reason => exact ⟨changeObject_indexed then_ (fun _ => rfl),still,rfl⟩
    | skips => exact ⟨then_,still,rfl⟩
    | triesRemaining => exact ⟨then_,still,rfl⟩
    | rotatesWorkspace workspaces currentWorkspaceIndex => exact ⟨changeObject_indexed then_ (fun _ => rfl),still,rfl⟩
    | disablesAccount => exact ⟨setAccountEnabled_indexed then_ _ _,still,rfl⟩
    | answers => exact ⟨then_,fun _ => Status.noConfusion,rfl⟩
    | fallsBack => exact ⟨then_,fun _ => Status.noConfusion,rfl⟩

theorem complete_of_open {after : State} (still : ∀ moment, after.status ≠ .exhausted moment) : Complete request after := by
  unfold Complete
  split
  · next moment ended => exact absurd ended (still moment)
  · trivial

theorem selecting_indexed (indexed : s.pool.Indexed) : (selecting request situation s).pool.Indexed :=
  (selectAccount_same request situation s).indexed indexed

theorem selecting_used (some_ : request.preferredSessionAccountIndex.isSome) : (selecting request situation s).usedPreferredSessionAccount = true := by
  simp [selecting,some_]

theorem fresh_of_moves (good : Good request s) (moves : (preferredAccount request situation s).isSome ∨ Leading request situation s)
    (usable : Usable request situation s.pool account) :
    ∃ chosen, taken request situation s = some chosen ∧ chosen.index ∉ s.attempted := by
  rcases preferred : preferredAccount request situation s with _ | index
  · obtain ⟨winner,won⟩ := exists_winner good.indexed usable
    obtain ⟨chosen,given,index⟩ := taken_winner good.indexed preferred won
    refine ⟨chosen,given,?_⟩
    rw [preferred] at moves
    rw [index]
    exact (leading_iff good.indexed won).mp (moves.resolve_left Bool.false_ne_true)
  · obtain ⟨chosen,given,_⟩ := taken_preferred good.indexed preferred
    refine ⟨chosen,given,?_⟩
    unfold preferredAccount at preferred
    split at preferred
    · cases preferred
    · next unused =>
      have named : request.preferredSessionAccountIndex.isSome := by
        rw [(Option.filter_eq_some_iff.mp preferred).1]
        rfl
      rw [good.first named (Bool.not_eq_true _ ▸ unused)]
      exact List.not_mem_nil

theorem Good.next (good : Good request s) (may : enabled request s turn) (moves : Moves request s turn) : Good request (attempt request s turn) := by
  rcases attempt_cases request s turn with ⟨full,ends⟩ | ⟨repeated,ends⟩ | ⟨_,account,_,_,goes⟩
  · rw [ends]
    refine ⟨good.indexed,good.first,?_⟩
    intro account usable
    by_contra untried
    exact absurd full (not_le.mpr (moves ⟨account,usable,untried⟩).1)
  · rw [ends]
    refine ⟨selecting_indexed good.indexed,?_,?_⟩
    · intro named unused
      have used : (selecting request turn.situation s).usedPreferredSessionAccount = true := selecting_used named
      exact absurd (used.symm.trans unused) (by decide)
    · intro other usable
      obtain ⟨account,before,ref⟩ := usable.same (selecting_indexed good.indexed) (selectAccount_same request turn.situation s).symm
      by_contra untried
      obtain ⟨chosen,given,fresh⟩ := fresh_of_moves good (moves ⟨account,before,ref ▸ untried⟩).2 before
      exact fresh (repeated chosen given)
  · have running : (selecting request turn.situation s).status = .running := by
      have goes := may.1
      show s.status = .running
      cases status : s.status with
      | running => rfl
      | _ => rw [status] at goes; cases goes
    obtain ⟨indexed,still,used⟩ := pursue_spec may (selecting_indexed good.indexed) running account
    rw [goes]
    refine ⟨indexed,?_,complete_of_open still⟩
    intro named unused
    rw [used,selecting_used named] at unused
    cases unused

theorem moves_of_complete (good : Good request s) (complete : Complete request (attempt request s turn)) : Moves request s turn := by
  rintro ⟨account,usable,untried⟩
  rcases attempt_cases request s turn with ⟨_,ends⟩ | ⟨_,ends⟩ | ⟨left,chosen,given,fresh,_⟩
  · rw [ends] at complete
    exact absurd (complete account usable) untried
  · rw [ends] at complete
    obtain ⟨other,there,ref⟩ := usable.same good.indexed (selectAccount_same request turn.situation s)
    exact absurd (ref ▸ complete other there) untried
  · refine ⟨left,?_⟩
    rcases preferred : preferredAccount request turn.situation s with _ | index
    · obtain ⟨winner,won⟩ := exists_winner good.indexed usable
      obtain ⟨same,given_,index⟩ := taken_winner good.indexed preferred won
      obtain rfl := Option.some.inj (given.symm.trans given_)
      exact Or.inr ((leading_iff good.indexed won).mpr (index ▸ fresh))
    · exact Or.inl rfl

theorem Start.good (start : Start s) : Good request s := by
  refine ⟨start.indexed,fun _ _ => start.attempted,complete_of_open ?_⟩
  intro moment ended
  rw [start.running] at ended
  cases ended

end

/-- A traversal leaves out no usable account, just when in each turn that something usable is left for, positions are left
    and the scores lead to a position that was not attempted. -/
theorem attempts_complete_iff {request : Request} {start : State} (begins : Start start) {turns : List Turn}
    (legal : Runs.Legal (attempt request) (enabled request) start turns) :
    Runs.Along (attempt request) (Complete request) start turns ↔ Runs.Legal (attempt request) (Moves request) start turns := by
  have kept : ∀ s turn, enabled request s turn → Good request s → Moves request s turn → Good request (attempt request s turn) :=
    fun _ _ may good moves => good.next may moves
  have needed : ∀ s turn, enabled request s turn → Good request s → Complete request (attempt request s turn) → Moves request s turn :=
    fun _ _ _ good complete => moves_of_complete good complete
  exact Runs.along_iff_legal (fun _ good => good.complete) kept needed legal begins.good

def row (index : Nat) (lastUsed : ℚ) : ManagedAccount where
  ref := index
  index := index
  refreshToken := "token"
  lastUsed := lastUsed

def twoAccounts : State where
  pool := ⟨[row 0 0,row 1 0],fun _ => 0,fun _ => 0,none⟩
  attempted := []
  usedPreferredSessionAccount := false
  tried := []
  status := .running

def plainRequest : Request where
  family := .codex
  model := none
  blockedAccountIndexes := []
  preferredSessionAccountIndex := none
  accountCount := 2
  scoreBoostByAccount := fun _ => 0
  pidBonus := none

/-- Both accounts can serve; the second has failed before. -/
def healthier (blocked : Nat → Bool) : Situation where
  env := ⟨0,fun _ => true,fun _ => none,fun key _ => key⟩
  health := fun index => if index = 0 then 100 else 40
  tokens := fun _ => 50
  entitlementBlocked := fun ref => blocked ref.index

def turnOf (blocked : Nat → Bool) (exit : Exit) : Turn := ⟨healthier blocked,exit,id,0⟩

theorem twoAccounts_start : Start twoAccounts := by
  refine ⟨?_,rfl,rfl,rfl⟩
  rintro (_ | _ | i) account found
  · obtain rfl := Option.some.inj found
    rfl
  · obtain rfl := Option.some.inj found
    rfl
  · cases found

def rejections : List Turn :=
  [turnOf (fun _ => false) (.rateLimited 60000 .quota),turnOf (fun _ => false) (.rateLimited 60000 .quota),turnOf (fun _ => false) .skips]

/-- The first account has a cached entitlement block and is asked for again. -/
def blockedFirst : List Turn := [turnOf (fun index => decide (index = 0)) .skips,turnOf (fun index => decide (index = 0)) .skips]

theorem rejections_move : Runs.Legal (attempt plainRequest) (Moves plainRequest) twoAccounts rejections := by
  have legal : Runs.Legal (attempt plainRequest) (enabled plainRequest) twoAccounts rejections :=
    ⟨⟨rfl,trivial,fun _ => id⟩,⟨by decide +kernel,trivial,fun _ => id⟩,⟨by decide +kernel,trivial,fun _ => id⟩,trivial⟩
  exact (attempts_complete_iff twoAccounts_start legal).mp (by decide +kernel)

theorem usable_untried_left :
    ¬ ∀ (request : Request) (start : State) (turns : List Turn), Start start →
      Runs.Legal (attempt request) (enabled request) start turns → Runs.Along (attempt request) (Complete request) start turns := by
  intro claim
  have legal : Runs.Legal (attempt plainRequest) (enabled plainRequest) twoAccounts blockedFirst :=
    ⟨⟨rfl,trivial,fun _ => id⟩,⟨by decide +kernel,trivial,fun _ => id⟩,trivial⟩
  have complete := (claim plainRequest twoAccounts blockedFirst twoAccounts_start legal).last
  revert complete
  decide +kernel

end CodexMultiAuth.AccountAttempts
