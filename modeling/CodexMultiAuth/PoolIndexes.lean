import CodexMultiAuth.AccountPool
import CodexMultiAuth.Runs

/-!
The indexes of a pool: each account carries its own position, and the pointers of
every family stay within the pool and follow their accounts.
-/
namespace CodexMultiAuth

open List

namespace AccountPool

/-- Every account carries its own position. -/
def Indexed (pool : AccountPool) : Prop := ∀ (i : Nat) (account : ManagedAccount), pool.accounts[i]? = some account → account.index = i

structure Pointed (pool : AccountPool) : Prop where
  indexed : pool.Indexed
  distinct : (pool.accounts.map ManagedAccount.ref).Nodup
  cursor : ∀ family, pool.cursorByFamily family < max 1 pool.count
  active : ∀ family, -1 ≤ pool.currentAccountIndexByFamily family ∧ pool.currentAccountIndexByFamily family < pool.count

/-! ### Changes that keep the pointers -/

variable (pool : AccountPool)

@[simp] theorem count_update (position : Nat) (change : ManagedAccount → ManagedAccount) :
    (pool.update position change).count = pool.count := by
  simp [update,count]

@[simp] theorem count_setCursor (family : ModelFamily) (cursor : Nat) :
    (pool.setCursor family cursor).count = pool.count := rfl

@[simp] theorem count_setActive (family : ModelFamily) (active : ℤ) :
    (pool.setActive family active).count = pool.count := rfl

@[simp] theorem count_touch (now : ℚ) (position : Nat) : (pool.touch now position).count = pool.count :=
  count_update pool position _

/-- The object and the index it carries. -/
def place (account : ManagedAccount) : Nat × Nat := (account.ref,account.index)

variable {pool : AccountPool}

theorem Pointed.accounts (pointed : pool.Pointed) {accounts : List ManagedAccount}
    (same : accounts.map place = pool.accounts.map place) : Pointed { pool with accounts := accounts } := by
  have length : accounts.length = pool.accounts.length := by
    simpa using congrArg List.length same
  have refs : accounts.map ManagedAccount.ref = pool.accounts.map ManagedAccount.ref := by
    simpa [place,Function.comp_def] using congrArg (List.map Prod.fst) same
  refine ⟨?_,?_,?_,?_⟩
  · intro i account found
    have placed : (accounts.map place)[i]? = some (place account) := by
      rw [List.getElem?_map]
      simp only at found
      rw [found]
      rfl
    rw [same,List.getElem?_map] at placed
    obtain ⟨original,here,own⟩ := Option.map_eq_some_iff.mp placed
    rw [← (Prod.mk.inj own).2]
    exact pointed.indexed i original here
  · simp only [refs]
    exact pointed.distinct
  · intro family
    have := pointed.cursor family
    simp only [count,length] at this ⊢
    exact this
  · intro family
    have := pointed.active family
    simp only [count,length] at this ⊢
    exact this

theorem map_modify {α β : Type} (f : α → β) (change : α → α) (keeps : ∀ a, f (change a) = f a) (l : List α) (i : Nat) :
    (l.modify i change).map f = l.map f := by
  apply ext_getElem?
  intro j
  simp only [List.getElem?_map,List.getElem?_modify]
  cases l[j]? with
  | none => rfl
  | some a => by_cases here : i = j <;> simp [here,keeps]

theorem Pointed.update (pointed : pool.Pointed) (position : Nat) {change : ManagedAccount → ManagedAccount}
    (keeps : ∀ account, place (change account) = place account) : (pool.update position change).Pointed :=
  pointed.accounts (map_modify place change keeps pool.accounts position)

variable {pool : AccountPool}

theorem Pointed.touch (pointed : pool.Pointed) (now : ℚ) (position : Nat) : (pool.touch now position).Pointed :=
  pointed.update position (fun _ => rfl)

theorem Pointed.setCursor (pointed : pool.Pointed) (family : ModelFamily) {cursor : Nat}
    (bound : cursor < max 1 pool.count) : (pool.setCursor family cursor).Pointed := by
  refine ⟨pointed.indexed,pointed.distinct,?_,pointed.active⟩
  intro other
  show Function.update pool.cursorByFamily family cursor other < max 1 pool.count
  by_cases same : other = family
  · subst same
    rw [Function.update_self]
    exact bound
  · rw [Function.update_of_ne same]
    exact pointed.cursor other

theorem Pointed.setActive (pointed : pool.Pointed) (family : ModelFamily) {active : ℤ}
    (bound : -1 ≤ active ∧ active < pool.count) : (pool.setActive family active).Pointed := by
  refine ⟨pointed.indexed,pointed.distinct,pointed.cursor,?_⟩
  intro other
  show -1 ≤ Function.update pool.currentAccountIndexByFamily family active other ∧
    Function.update pool.currentAccountIndexByFamily family active other < pool.count
  by_cases same : other = family
  · subst same
    rw [Function.update_self]
    exact bound
  · rw [Function.update_of_ne same]
    exact pointed.active other

theorem lt_count {position : Nat} {account : ManagedAccount} (found : pool.accounts[position]? = some account) :
    position < pool.count := (List.getElem?_eq_some_iff.mp found).1

private theorem next_bound {position : Nat} (inside : position < pool.count) (n : Nat) :
    n % pool.count < max 1 pool.count := by
  have : n % pool.count < pool.count := Nat.mod_lt n (by omega)
  omega

theorem Pointed.moveTo (pointed : pool.Pointed) (family : ModelFamily) {position : Nat}
    (inside : position < pool.count) : ((pool.setActive family position).setCursor family ((position + 1) % pool.count)).Pointed := by
  refine (pointed.setActive family ⟨by omega,by omega⟩).setCursor family ?_
  exact next_bound inside (position + 1)

theorem scanFrom_some {start idx : Nat} {test : ManagedAccount → Bool} (found : pool.scanFrom start test = some idx) :
    ∃ account, pool.accounts[idx]? = some account ∧ test account = true := by
  obtain ⟨i,-,step⟩ := exists_of_findSome?_eq_some found
  simp only at step
  split at step
  · next passes =>
    obtain rfl := Option.some.inj step
    cases here : pool.accounts[(start + i) % pool.count]? with
    | none => simp [here] at passes
    | some account => exact ⟨account,rfl,by simpa [here] using passes⟩
  · cases step

theorem getCurrentOrNextForFamily_pointed (pointed : pool.Pointed) (env : Runtime) (family : ModelFamily)
    (model : Option String) : (pool.getCurrentOrNextForFamily env family model).1.Pointed := by
  unfold getCurrentOrNextForFamily
  split
  · exact pointed
  · next idx found =>
    obtain ⟨account,here,-⟩ := scanFrom_some found
    have inside := lt_count here
    exact ((pointed.setCursor family (next_bound inside _)).setActive family ⟨by omega,by simpa using inside⟩).touch _ _

theorem getNextForFamily_pointed (pointed : pool.Pointed) (env : Runtime) (family : ModelFamily)
    (model : Option String) : (pool.getNextForFamily env family model).1.Pointed := by
  unfold getNextForFamily
  split
  · exact pointed
  · next idx found =>
    obtain ⟨account,here,-⟩ := scanFrom_some found
    exact (pointed.setCursor family (next_bound (lt_count here) _)).touch _ _

theorem getCurrentOrNextForFamilySequential_pointed (pointed : pool.Pointed) (env : Runtime)
    (family : ModelFamily) (model : Option String) (blocked : List Nat) :
    (pool.getCurrentOrNextForFamilySequential env family model blocked).1.Pointed := by
  have scanned : ∀ start idx, pool.scanFrom start (isUsable env family model blocked) = some idx →
      (((pool.setActive family idx).setCursor family ((idx + 1) % pool.count)).touch env.now idx).Pointed := by
    intro start idx found
    obtain ⟨account,here,-⟩ := scanFrom_some found
    exact (pointed.moveTo family (lt_count here)).touch _ _
  unfold getCurrentOrNextForFamilySequential
  split
  · split
    · exact pointed.touch _ _
    · split
      · exact pointed
      · next idx found => exact scanned _ idx found
  · split
    · exact pointed
    · next idx found => exact scanned _ idx found

theorem getCurrentOrNextForFamilyHybrid_pointed (pointed : pool.Pointed) (env : Runtime) (family : ModelFamily)
    (model : Option String) (score : HybridScore) (blocked : List Nat) :
    (pool.getCurrentOrNextForFamilyHybrid env family model score blocked).1.Pointed := by
  unfold getCurrentOrNextForFamilyHybrid
  split
  · exact pointed
  · next selected chosen =>
    split
    · exact pointed
    · next account found =>
      have own := pointed.indexed _ account found
      rw [own]
      exact (pointed.moveTo family (lt_count found)).touch _ _

theorem markSwitched_pointed (pointed : pool.Pointed) (position : Nat) (reason : String) (family : ModelFamily) :
    (pool.markSwitched position reason family).Pointed := by
  unfold markSwitched
  split
  · exact pointed
  · next account found =>
    have own := pointed.indexed position account found
    rw [own]
    have named : (pool.update position (fun account => { account with lastSwitchReason := some reason })).Pointed :=
      pointed.update position (fun _ => rfl)
    have inside : position < (pool.update position (fun account => { account with lastSwitchReason := some reason })).count := by
      simpa using lt_count found
    have moved := named.moveTo family inside
    simpa using moved

/-! ### Removing -/

variable (accounts : List ManagedAccount)

theorem reindex_indexed (i : Nat) (account : ManagedAccount)
    (found : (reindex accounts)[i]? = some account) : account.index = i := by
  simp only [reindex,List.getElem?_mapIdx] at found
  cases here : accounts[i]? with
  | none => simp [here] at found
  | some original =>
    rw [here] at found
    rw [← Option.some.inj found]

theorem length_reindex : (reindex accounts).length = accounts.length := by
  simp [reindex]

theorem findNextEnabled_cases (start : ℤ) :
    findNextEnabled accounts start = -1 ∨
      ∃ (position : Nat) (account : ManagedAccount), findNextEnabled accounts start = position ∧ accounts[position]? = some account ∧
        account.enabled = true := by
  unfold findNextEnabled
  simp only
  split
  · next step found =>
    have passes := List.find?_some found
    cases here : accounts[((start % accounts.length).toNat + step) % accounts.length]? with
    | none => simp [here] at passes
    | some account => exact .inr ⟨_,account,rfl,here,by simpa [here] using passes⟩
  · exact .inl rfl

theorem findNextEnabled_bound (start : ℤ) :
    -1 ≤ findNextEnabled accounts start ∧ findNextEnabled accounts start < max 1 accounts.length := by
  rcases findNextEnabled_cases accounts start with nothing | ⟨position,account,same,found,-⟩
  · rw [nothing]
    omega
  · have := (List.getElem?_eq_some_iff.mp found).1
    rw [same]
    omega

theorem shiftedCursor_bound (idx count cursor : Nat) (positive : 0 < count) : shiftedCursor idx count cursor < count := by
  simp only [shiftedCursor]
  split <;> split <;> omega

theorem shiftedActive_bound {accounts : List ManagedAccount} (idx : Nat) {active : ℤ} (lower : -1 ≤ active)
    (positive : 0 < accounts.length) :
    -1 ≤ shiftedActive accounts idx active ∧ shiftedActive accounts idx active < accounts.length := by
  have around := findNextEnabled_bound accounts (min idx (accounts.length - 1) : ℤ)
  have first := findNextEnabled_bound accounts 0
  simp only [shiftedActive]
  split
  · omega
  · split at * <;> omega

def shiftedPosition (idx position : Nat) : Nat := if idx < position then position - 1 else position

variable {idx position : Nat}

theorem eraseIdx_shiftedPosition {α : Type} (l : List α) (survives : position ≠ idx) :
    (l.eraseIdx idx)[shiftedPosition idx position]? = l[position]? := by
  rw [List.getElem?_eraseIdx,shiftedPosition]
  by_cases after : idx < position
  · rw [if_pos after,if_neg (by omega)]
    congr 1
    omega
  · rw [if_neg after,if_pos (by omega)]

private theorem map_marked {β : Type} (f : ManagedAccount → β) (keeps : ∀ account reason, f { account with lastSwitchReason := reason } = f account)
    (marked : Nat → Prop) [DecidablePred marked] (accounts : List ManagedAccount) :
    (accounts.mapIdx (fun index account => if marked index then { account with lastSwitchReason := some "rotation" } else account)).map f =
      accounts.map f := by
  apply ext_getElem?
  intro i
  simp only [List.getElem?_map,List.getElem?_mapIdx]
  cases accounts[i]? with
  | none => rfl
  | some account => by_cases here : marked i <;> simp [here,keeps]

private theorem map_reindex {β : Type} (f : ManagedAccount → β) (keeps : ∀ account index, f { account with index := index } = f account)
    (accounts : List ManagedAccount) : (reindex accounts).map f = accounts.map f := by
  apply ext_getElem?
  intro i
  simp only [reindex,List.getElem?_map,List.getElem?_mapIdx]
  cases accounts[i]? with
  | none => rfl
  | some account => simp [keeps]

/-- What `removeAccount` comes to when the object is at position `idx`. -/
structure Removed (pool after : AccountPool) (idx : Nat) : Prop where
  inside : idx < pool.count
  count : after.count + 1 = pool.count
  indexed : after.Indexed
  refs : after.accounts.map ManagedAccount.ref = (pool.accounts.eraseIdx idx).map ManagedAccount.ref
  enabled : after.accounts.map ManagedAccount.enabled = (pool.accounts.eraseIdx idx).map ManagedAccount.enabled
  cursor : ∀ family, after.cursorByFamily family =
    if after.count = 0 then 0 else shiftedCursor idx after.count (pool.cursorByFamily family)
  active : ∀ family, after.currentAccountIndexByFamily family =
    if after.count = 0 then -1 else shiftedActive after.accounts idx (pool.currentAccountIndexByFamily family)
  pin : after.pinnedAccountIndex = pool.pinnedAccountIndex

theorem findNextEnabled_congr {accounts others : List ManagedAccount}
    (same : accounts.map ManagedAccount.enabled = others.map ManagedAccount.enabled) (start : ℤ) :
    findNextEnabled accounts start = findNextEnabled others start := by
  have length : accounts.length = others.length := by simpa using congrArg List.length same
  have passes : ∀ i : Nat, (accounts[i]?).any ManagedAccount.enabled = (others[i]?).any ManagedAccount.enabled := by
    intro i
    have here : (accounts.map ManagedAccount.enabled)[i]? = (others.map ManagedAccount.enabled)[i]? := by rw [same]
    simp only [List.getElem?_map] at here
    cases left : accounts[i]? <;> cases right : others[i]? <;> simp_all
  simp only [findNextEnabled,length,passes]

theorem shiftedActive_congr {accounts others : List ManagedAccount}
    (same : accounts.map ManagedAccount.enabled = others.map ManagedAccount.enabled) (idx : Nat) (active : ℤ) :
    shiftedActive accounts idx active = shiftedActive others idx active := by
  have length : accounts.length = others.length := by simpa using congrArg List.length same
  simp only [shiftedActive,length,findNextEnabled_congr same]

variable {pool after : AccountPool}

theorem removeAccount_removed {ref : Nat} (removed : pool.removeAccount ref = (after,true)) :
    ∃ idx, pool.accounts.findIdx? (fun account => account.ref == ref) = some idx ∧ Removed pool after idx := by
  unfold removeAccount at removed
  split at removed
  · cases removed
  · next idx found =>
    obtain ⟨inside,-⟩ := List.findIdx?_eq_some_iff_getElem.mp found
    have left : (pool.accounts.eraseIdx idx).length + 1 = pool.accounts.length := by
      rw [length_eraseIdx,if_pos inside]
      omega
    refine ⟨idx,found,?_⟩
    simp only at removed
    split at removed
    · next empty =>
      have none_left : pool.accounts.eraseIdx idx = [] := by
        have := congrArg List.length empty
        rw [length_reindex] at this
        exact length_eq_zero_iff.mp (by simpa using this)
      have same := (Prod.mk.inj removed).1
      subst same
      refine ⟨inside,?_,?_,?_,?_,fun _ => rfl,fun _ => rfl,rfl⟩
      · simpa [AccountPool.count,none_left] using left
      · intro i account here
        simp at here
      · simp [none_left]
      · simp [none_left]
    · next some_left =>
      have same := (Prod.mk.inj removed).1
      subst same
      have count_left : (reindex (pool.accounts.eraseIdx idx)).length ≠ 0 := fun zero => some_left (length_eq_zero_iff.mp zero)
      refine ⟨inside,?_,?_,?_,?_,?_,?_,rfl⟩
      · simpa [AccountPool.count,length_reindex] using left
      · intro i account here
        simp only [List.getElem?_mapIdx] at here
        cases original : (reindex (pool.accounts.eraseIdx idx))[i]? with
        | none => simp [original] at here
        | some kept =>
          have own := reindex_indexed _ i kept original
          rw [original] at here
          have := Option.some.inj here
          subst this
          split <;> exact own
      · exact (map_marked ManagedAccount.ref (fun _ _ => rfl) _ _).trans (map_reindex ManagedAccount.ref (fun _ _ => rfl) _)
      · exact (map_marked ManagedAccount.enabled (fun _ _ => rfl) _ _).trans (map_reindex ManagedAccount.enabled (fun _ _ => rfl) _)
      · intro family
        simp [AccountPool.count,count_left]
      · intro family
        rw [if_neg (by simpa [AccountPool.count] using count_left)]
        refine shiftedActive_congr ?_ idx _
        exact (map_marked ManagedAccount.enabled (fun _ _ => rfl) _ _).symm

theorem Removed.pointed {idx : Nat} (removed : Removed pool after idx) (pointed : pool.Pointed) :
    after.Pointed := by
  have inside := removed.inside
  have count := removed.count
  refine ⟨removed.indexed,?_,?_,?_⟩
  · rw [removed.refs]
    exact pointed.distinct.sublist ((eraseIdx_sublist _ _).map _)
  · intro family
    rw [removed.cursor]
    split
    · omega
    · have := shiftedCursor_bound idx after.count (pool.cursorByFamily family) (by omega)
      omega
  · intro family
    rw [removed.active]
    split
    · omega
    · exact shiftedActive_bound idx (pointed.active family).1 (by unfold AccountPool.count at *; omega)

theorem removeAccount_pointed (pointed : pool.Pointed) (ref : Nat) : (pool.removeAccount ref).1.Pointed := by
  cases outcome : pool.removeAccount ref with
  | mk after found =>
    cases found with
    | true =>
      obtain ⟨idx,-,removed⟩ := removeAccount_removed outcome
      exact removed.pointed pointed
    | false =>
      have same : after = pool := by
        unfold removeAccount at outcome
        split at outcome
        · exact (Prod.mk.inj outcome).1.symm
        · simp only at outcome
          split at outcome <;> exact absurd (Prod.mk.inj outcome).2 (by simp)
      rw [same]
      exact pointed

theorem item_some {α : Type} {rows : List α} {index : ℚ} {row : α} (found : item rows index = some row) :
    rows[index.num.toNat]? = some row := by
  unfold item at found
  split at found
  · exact found
  · cases found

theorem resetWorkspaces_place (account : ManagedAccount) : place (resetWorkspaces account) = place account := by
  unfold resetWorkspaces
  split <;> rfl

theorem nextEnabledAfter_some {accounts : List ManagedAccount} {start next : Nat} (found : nextEnabledAfter accounts start = some next) :
    ∃ account, accounts[next]? = some account ∧ account.enabled = true := by
  obtain ⟨step,-,passes⟩ := exists_of_findSome?_eq_some found
  simp only at passes
  split at passes
  · next enabled =>
    obtain rfl := Option.some.inj passes
    cases here : accounts[(start + step) % accounts.length]? with
    | none => simp [here] at enabled
    | some account => exact ⟨account,rfl,by simpa [here] using enabled⟩
  · cases passes

theorem setAccountEnabled_pointed (pointed : pool.Pointed) (index : ℚ) (enabled : Bool) :
    (pool.setAccountEnabled index enabled).Pointed := by
  unfold setAccountEnabled
  split
  · exact pointed
  · next account found =>
    have here := item_some found
    simp only
    generalize changed : (if (enabled && !account.enabled) = true then resetWorkspaces { account with enabled := enabled }
      else { account with enabled := enabled }) = replaced
    have kept : place replaced = place account := by
      rw [← changed]
      split
      · exact resetWorkspaces_place _
      · rfl
    have same : (pool.accounts.set index.num.toNat replaced).map place = pool.accounts.map place := by
      rw [map_set,kept]
      apply ext_getElem?
      intro i
      rw [List.getElem?_set]
      split
      · next at_position =>
        have inside := (List.getElem?_eq_some_iff.mp here).1
        rw [← at_position,if_pos (by simpa using inside),List.getElem?_map,here]
        rfl
      · rfl
    have length : (pool.accounts.set index.num.toNat replaced).length = pool.accounts.length := length_set
    have stays := pointed.accounts same
    split
    · exact stays
    · split
      · exact stays
      · next next after =>
        obtain ⟨account,there,-⟩ := nextEnabledAfter_some after
        have inside := (List.getElem?_eq_some_iff.mp there).1
        refine ⟨stays.indexed,stays.distinct,?_,?_⟩
        · intro family
          have := stays.cursor family
          simp only [AccountPool.count] at this ⊢
          split <;> omega
        · intro family
          have := stays.active family
          simp only [AccountPool.count] at this ⊢
          split <;> omega

theorem setActiveIndex_pointed (pointed : pool.Pointed) (now index : ℚ) :
    (pool.setActiveIndex now index).Pointed := by
  unfold setActiveIndex
  split
  · exact pointed
  · next account found =>
    split
    · exact pointed
    · have inside := lt_count (item_some found)
      have stays : (pool.update index.num.toNat (fun account =>
          { account with lastUsed := now,lastSwitchReason := some "rotation" })).Pointed := pointed.update _ (fun _ => rfl)
      have length := count_update pool index.num.toNat (fun account =>
          { account with lastUsed := now,lastSwitchReason := some "rotation" })
      refine ⟨stays.indexed,stays.distinct,?_,?_⟩
      · intro family
        simp only [AccountPool.count] at *
        omega
      · intro family
        simp only [AccountPool.count] at *
        omega

/-! ### Construction -/

/-- No stored row without a refresh token comes before one that has a token. -/
def TokenRowsFirst (rows : List AccountMetadataV3) : Prop :=
  rows.Pairwise (fun row later => hasRefreshToken later = true → hasRefreshToken row = true)

theorem storedIdentityRows_position {rows : List AccountMetadataV3} (first : TokenRowsFirst rows) (start i : Nat)
    {entry : AccountMetadataV3 × Nat} (found : ((rows.zipIdx start).filter (fun entry => hasRefreshToken entry.1))[i]? = some entry) :
    entry.2 = start + i := by
  induction rows generalizing start i with
  | nil => simp at found
  | cons row rest ih =>
    obtain ⟨later,rest_first⟩ := pairwise_cons.mp first
    by_cases token : hasRefreshToken row = true
    · rw [zipIdx_cons,filter_cons_of_pos (by simpa using token)] at found
      cases i with
      | zero =>
        have := Option.some.inj found
        simp [← this]
      | succ i =>
        have := ih rest_first (start + 1) i found
        omega
    · have empty : ((row :: rest).zipIdx start).filter (fun entry => hasRefreshToken entry.1) = [] := by
        refine filter_eq_nil_iff.mpr ?_
        intro other member has
        rcases mem_cons.mp (fst_mem_of_mem_zipIdx member) with same | among
        · exact token (same ▸ has)
        · exact token (later _ among has)
      rw [empty] at found
      simp at found

theorem storedIdentityRows_positions (rows : List AccountMetadataV3) :
    ((storedIdentityRows rows).map Prod.snd).Nodup ∧ ∀ position ∈ (storedIdentityRows rows).map Prod.snd, position < rows.length := by
  have sub : ((storedIdentityRows rows).map Prod.snd).Sublist (List.range rows.length) := by
    have := (filter_sublist (p := fun entry : AccountMetadataV3 × Nat => hasRefreshToken entry.1) (l := rows.zipIdx)).map Prod.snd
    rwa [zipIdx_map_snd,← range_eq_range'] at this
  refine ⟨nodup_range.sublist sub,fun position member => ?_⟩
  exact mem_range.mp (sub.subset member)

section
variable [Host]

theorem loadedAccounts_places (now : ℚ) (authFallback : Option OAuthAuthDetails) (rows : List AccountMetadataV3) :
    ∃ added, (loadedAccounts now authFallback rows).map place =
        (storedIdentityRows rows).map (fun entry => (entry.2,entry.2)) ++ added ∧
      (added = [] ∨ added = [(rows.length,(storedIdentityRows rows).length)]) := by
  unfold loadedAccounts
  simp only
  split
  · refine ⟨_,?_,.inr rfl⟩
    simp [place,managedAccount,fallbackAccount,Function.comp_def]
  · refine ⟨[],?_,.inl rfl⟩
    simp [place,managedAccount,Function.comp_def]

theorem loadedAccounts_indexed (now : ℚ) (authFallback : Option OAuthAuthDetails) {rows : List AccountMetadataV3}
    (first : TokenRowsFirst rows) (i : Nat) (account : ManagedAccount) (found : (loadedAccounts now authFallback rows)[i]? = some account) :
    account.index = i := by
  obtain ⟨added,places,which⟩ := loadedAccounts_places now authFallback rows
  have here : ((loadedAccounts now authFallback rows).map place)[i]? = some (place account) := by
    rw [List.getElem?_map,found]
    rfl
  rw [places,List.getElem?_append,length_map] at here
  split at here
  · rw [List.getElem?_map] at here
    obtain ⟨entry,at_position,same⟩ := Option.map_eq_some_iff.mp here
    have position := storedIdentityRows_position first 0 i at_position
    have own := (Prod.mk.inj same).2
    omega
  · rcases which with none_added | one_added
    · simp [none_added] at here
    · rw [one_added] at here
      obtain ⟨only,same⟩ := List.getElem?_eq_some_iff.mp here
      simp only [length_singleton] at only
      simp only [getElem_singleton] at same
      have own := (Prod.mk.inj same).2
      omega

theorem loadedAccounts_distinct (now : ℚ) (authFallback : Option OAuthAuthDetails) (rows : List AccountMetadataV3) :
    ((loadedAccounts now authFallback rows).map ManagedAccount.ref).Nodup := by
  obtain ⟨added,places,which⟩ := loadedAccounts_places now authFallback rows
  obtain ⟨distinct,bound⟩ := storedIdentityRows_positions rows
  have refs : (loadedAccounts now authFallback rows).map ManagedAccount.ref =
      (storedIdentityRows rows).map Prod.snd ++ added.map Prod.fst := by
    simpa [place,Function.comp_def] using congrArg (List.map Prod.fst) places
  rw [refs]
  rcases which with none_added | one_added
  · simpa [none_added] using distinct
  · rw [one_added]
    refine nodup_append.mpr ⟨distinct,by simp,?_⟩
    intro position member other among
    have := bound position member
    simp only [map_cons,map_nil,mem_singleton] at among
    omega

/-- The rows of the document, if there is one, have their tokens first. -/
def Compact (stored : Option AccountStorageV3) : Prop := ∀ document, stored = some document → TokenRowsFirst document.accounts

theorem newAccountPool_pointed (now : ℚ) (auth : Option OAuthAuthDetails) {stored : Option AccountStorageV3}
    (compact : Compact stored) : (newAccountPool now auth stored).Pointed := by
  have alone : ∀ account : ManagedAccount, account.index = 0 → ∀ (i : Nat) (other : ManagedAccount),
      [account][i]? = some other → other.index = i := by
    intro account zero i other found
    obtain ⟨only,same⟩ := List.getElem?_eq_some_iff.mp found
    simp only [length_singleton] at only
    simp only [getElem_singleton] at same
    rw [← same,zero]
    omega
  unfold newAccountPool
  cases has : stored.filter (fun stored => !stored.accounts.isEmpty) with
  | some document =>
    obtain ⟨present,-⟩ := Option.filter_eq_some_iff.mp has
    have first := compact document present
    have index_bound : ∀ family, loadedAccounts now auth document.accounts ≠ [] →
        loadedIndex document (loadedAccounts now auth document.accounts).length family <
          (loadedAccounts now auth document.accounts).length := by
      intro family some_loaded
      exact Nat.mod_lt _ (length_pos_iff.mpr some_loaded)
    refine ⟨loadedAccounts_indexed now auth first,loadedAccounts_distinct now auth document.accounts,?_,?_⟩
    · intro family
      simp only [AccountPool.count]
      split
      · omega
      · next some_loaded =>
        have := index_bound family some_loaded
        omega
    · intro family
      simp only [AccountPool.count]
      split
      · omega
      · next some_loaded =>
        have := index_bound family some_loaded
        omega
  | none =>
    cases auth with
    | some auth =>
      exact ⟨alone _ rfl,by simp,fun family => by simp [AccountPool.count],fun family => by simp [AccountPool.count]⟩
    | none =>
      refine ⟨?_,by simp,fun family => by simp [AccountPool.count],fun family => by simp [AccountPool.count]⟩
      intro i account found
      simp at found
end

/-- What is asked of a pool. The clock, the limits and the scores are any at each call. -/
inductive PoolAction where
  | removeAccount (ref : Nat)
  | setAccountEnabled (index : ℚ) (enabled : Bool)
  | setActiveIndex (now index : ℚ)
  | markSwitched (position : Nat) (reason : String) (family : ModelFamily)
  | getCurrentOrNextForFamily (env : Runtime) (family : ModelFamily) (model : Option String)
  | getNextForFamily (env : Runtime) (family : ModelFamily) (model : Option String)
  | getCurrentOrNextForFamilySequential (env : Runtime) (family : ModelFamily) (model : Option String) (blockedIndexes : List Nat)
  | getCurrentOrNextForFamilyHybrid (env : Runtime) (family : ModelFamily) (model : Option String) (score : HybridScore)
    (blockedAccountIndexes : List Nat)

def step (pool : AccountPool) : PoolAction → AccountPool
  | .removeAccount ref => (pool.removeAccount ref).1
  | .setAccountEnabled index enabled => pool.setAccountEnabled index enabled
  | .setActiveIndex now index => pool.setActiveIndex now index
  | .markSwitched position reason family => pool.markSwitched position reason family
  | .getCurrentOrNextForFamily env family model => (pool.getCurrentOrNextForFamily env family model).1
  | .getNextForFamily env family model => (pool.getNextForFamily env family model).1
  | .getCurrentOrNextForFamilySequential env family model blockedIndexes =>
    (pool.getCurrentOrNextForFamilySequential env family model blockedIndexes).1
  | .getCurrentOrNextForFamilyHybrid env family model score blockedAccountIndexes =>
    (pool.getCurrentOrNextForFamilyHybrid env family model score blockedAccountIndexes).1

theorem step_pointed (pointed : pool.Pointed) (action : PoolAction) : (pool.step action).Pointed := by
  cases action with
  | removeAccount ref => exact removeAccount_pointed pointed ref
  | setAccountEnabled index enabled => exact setAccountEnabled_pointed pointed index enabled
  | setActiveIndex now index => exact setActiveIndex_pointed pointed now index
  | markSwitched position reason family => exact markSwitched_pointed pointed position reason family
  | getCurrentOrNextForFamily env family model => exact getCurrentOrNextForFamily_pointed pointed env family model
  | getNextForFamily env family model => exact getNextForFamily_pointed pointed env family model
  | getCurrentOrNextForFamilySequential env family model blockedIndexes =>
    exact getCurrentOrNextForFamilySequential_pointed pointed env family model blockedIndexes
  | getCurrentOrNextForFamilyHybrid env family model score blockedAccountIndexes =>
    exact getCurrentOrNextForFamilyHybrid_pointed pointed env family model score blockedAccountIndexes

abbrev Run : AccountPool → AccountPool → Prop := Runs.Run step (fun _ _ => True)

theorem run_pointed (pointed : pool.Pointed) (run : Run pool after) : after.Pointed :=
  run.invariant (P := Pointed) (fun _ action _ holds => step_pointed holds action) pointed

/-! ### What a removal does to the pointers -/

/-- The account that a family's active pointer denotes. -/
def activeAccount (pool : AccountPool) (family : ModelFamily) : Option ManagedAccount :=
  item pool.accounts (pool.currentAccountIndexByFamily family)

def cursorAccount (pool : AccountPool) (family : ModelFamily) : Option ManagedAccount :=
  pool.accounts[pool.cursorByFamily family]?

/-- The pointers after the removal of the account `ref`. -/
structure Retargeted (pool after : AccountPool) (ref : Nat) : Prop where
  active_kept : ∀ family account, pool.activeAccount family = some account → account.ref ≠ ref →
    (after.activeAccount family).map ManagedAccount.ref = some account.ref
  active_moved : ∀ family account, pool.activeAccount family = some account → account.ref = ref →
    after.currentAccountIndexByFamily family = -1 ∨ ∃ next, after.activeAccount family = some next ∧ next.enabled = true
  cursor_kept : ∀ family account, pool.cursorAccount family = some account → account.ref ≠ ref →
    (after.cursorAccount family).map ManagedAccount.ref = some account.ref
  cursor_moved : ∀ family account, pool.cursorAccount family = some account → account.ref = ref →
    match pool.accounts[pool.cursorByFamily family + 1]? with
    | some following => (after.cursorAccount family).map ManagedAccount.ref = some following.ref
    | none => after.cursorByFamily family = 0

theorem item_intCast {α : Type} (rows : List α) (index : ℤ) : item rows (index : ℚ) = if 0 ≤ index then rows[index.toNat]? else none := by
  simp [item]

theorem shiftedActive_survives (survives : position ≠ idx)
    (removed : idx ≤ accounts.length) (inside : position ≤ accounts.length) :
    shiftedActive accounts idx position = shiftedPosition idx position := by
  simp only [shiftedActive,shiftedPosition]
  by_cases after : idx < position
  · rw [if_pos (c := (idx : ℤ) < position) (by omega),if_pos after,if_neg (by omega)]
    omega
  · rw [if_neg (c := (idx : ℤ) < position) (by omega),if_neg (c := (position : ℤ) = idx) (by omega),if_neg after,if_neg (by omega)]

theorem shiftedActive_removed {accounts : List ManagedAccount} {idx : Nat} (positive : 0 < accounts.length) :
    shiftedActive accounts idx idx = findNextEnabled accounts (min idx (accounts.length - 1) : ℤ) := by
  have bound := findNextEnabled_bound accounts (min idx (accounts.length - 1) : ℤ)
  simp only [shiftedActive]
  rw [if_neg (c := (idx : ℤ) < idx) (by omega),if_pos (c := True) trivial,if_neg (by omega)]

theorem shiftedCursor_survives {count idx position : Nat} (survives : position ≠ idx) (removed : idx ≤ count) (inside : position ≤ count) :
    shiftedCursor idx count position = shiftedPosition idx position := by
  simp only [shiftedCursor,shiftedPosition]
  by_cases after : idx < position
  · rw [if_pos after,if_neg (by omega)]
  · rw [if_neg after,if_neg (by omega)]

theorem Removed.survivor {account : ManagedAccount} (removed : Removed pool after idx)
    (found : pool.accounts[position]? = some account) (survives : position ≠ idx) :
    (after.accounts[shiftedPosition idx position]?).map ManagedAccount.ref = some account.ref := by
  rw [← List.getElem?_map,removed.refs,List.getElem?_map,eraseIdx_shiftedPosition _ survives,found]
  rfl

theorem removeAccount_retargeted {ref : Nat} (pointed : pool.Pointed)
    (outcome : pool.removeAccount ref = (after,true)) : Retargeted pool after ref := by
  obtain ⟨idx,found,removed⟩ := removeAccount_removed outcome
  obtain ⟨inside,own,-⟩ := List.findIdx?_eq_some_iff_getElem.mp found
  have count : after.accounts.length + 1 = pool.accounts.length := removed.count
  have position_eq : ∀ (position : Nat) account, pool.accounts[position]? = some account → (account.ref = ref ↔ position = idx) := by
    intro position account here
    obtain ⟨within,same⟩ := List.getElem?_eq_some_iff.mp here
    constructor
    · intro removes
      have refs : (pool.accounts.map ManagedAccount.ref)[position]? = (pool.accounts.map ManagedAccount.ref)[idx]? := by
        rw [List.getElem?_map,List.getElem?_map,here,List.getElem?_eq_getElem inside]
        simpa [removes] using (beq_iff_eq.mp own).symm
      exact (List.getElem?_inj (by simpa using within) pointed.distinct).mp refs
    · intro at_idx
      subst at_idx
      rw [← same]
      exact beq_iff_eq.mp own
  have active_position : ∀ family account, pool.activeAccount family = some account →
      ∃ position : Nat, pool.currentAccountIndexByFamily family = position ∧ pool.accounts[position]? = some account := by
    intro family account active
    rw [activeAccount,item_intCast] at active
    split at active
    · next lower => exact ⟨_,(Int.toNat_of_nonneg lower).symm,active⟩
    · cases active
  refine ⟨?_,?_,?_,?_⟩
  · intro family account active other
    obtain ⟨position,pointer,here⟩ := active_position family account active
    have survives : position ≠ idx := fun same => other ((position_eq position account here).mpr same)
    have within := (List.getElem?_eq_some_iff.mp here).1
    have moved : after.currentAccountIndexByFamily family = (shiftedPosition idx position : ℕ) := by
      rw [removed.active,if_neg (by unfold AccountPool.count; omega),pointer,
        shiftedActive_survives after.accounts survives (by omega) (by omega)]
    rw [activeAccount,moved,Int.cast_natCast,item_natCast]
    exact removed.survivor here survives
  · intro family account active same
    obtain ⟨position,pointer,here⟩ := active_position family account active
    have at_idx := (position_eq position account here).mp same
    rw [at_idx] at pointer
    by_cases empty : after.count = 0
    · left
      rw [removed.active,if_pos empty]
    · have moved := removed.active family
      rw [if_neg empty,pointer,shiftedActive_removed (Nat.pos_of_ne_zero empty)] at moved
      rcases findNextEnabled_cases after.accounts (min idx (after.accounts.length - 1) : ℤ) with unset | ⟨next,account,goes,there,enabled⟩
      · left
        rw [moved,unset]
      · right
        refine ⟨account,?_,enabled⟩
        rw [activeAccount,moved,goes,Int.cast_natCast,item_natCast]
        exact there
  · intro family account pointer other
    have survives : pool.cursorByFamily family ≠ idx := fun same => other ((position_eq _ account pointer).mpr same)
    have within := (List.getElem?_eq_some_iff.mp pointer).1
    rw [cursorAccount,removed.cursor,if_neg (by unfold AccountPool.count; omega)]
    unfold AccountPool.count
    rw [shiftedCursor_survives survives (by omega) (by omega)]
    exact removed.survivor pointer survives
  · intro family account pointer same
    have at_idx := (position_eq _ account pointer).mp same
    rw [cursorAccount,removed.cursor,at_idx]
    unfold AccountPool.count
    cases following : pool.accounts[idx + 1]? with
    | some next =>
      have within := (List.getElem?_eq_some_iff.mp following).1
      have stays : shiftedCursor idx after.accounts.length idx = shiftedPosition idx (idx + 1) := by
        simp only [shiftedCursor,shiftedPosition]
        rw [if_neg (c := idx < idx) (by omega),if_neg (by omega),if_pos (by omega)]
        omega
      rw [if_neg (by omega),stays]
      exact removed.survivor following (by omega)
    | none =>
      have last := List.getElem?_eq_none_iff.mp following
      simp only [shiftedCursor]
      split
      · rfl
      · rw [if_neg (c := idx < idx) (by omega),if_pos (by omega)]

/-- In a pool of a compact document every account carries its position and the
    pointers stay in range, and a removal keeps them on their accounts. -/
theorem pool_stays_indexed [Host] (now : ℚ) (auth : Option OAuthAuthDetails) {stored : Option AccountStorageV3}
    (compact : Compact stored) {pool : AccountPool} (run : Run (newAccountPool now auth stored) pool) :
    (∀ (i : Nat) account, pool.accounts[i]? = some account → account.index = i) ∧
      (∀ family, pool.cursorByFamily family < max 1 pool.count) ∧
      (∀ family, -1 ≤ pool.currentAccountIndexByFamily family ∧ pool.currentAccountIndexByFamily family < pool.count) ∧
      ∀ ref after, pool.removeAccount ref = (after,true) → Retargeted pool after ref := by
  have pointed := run_pointed (newAccountPool_pointed now auth compact) run
  exact ⟨pointed.indexed,pointed.cursor,pointed.active,fun ref after outcome => removeAccount_retargeted pointed outcome⟩

section
attribute [local instance] asciiHost

private def tokenRow (token : String) (enabled : Bool) : AccountMetadataV3 := [("refreshToken",.str token),("enabled",.bool enabled)]

private def documentOf (rows : List AccountMetadataV3) (pin : Option ℚ) : AccountStorageV3 :=
  { accounts := rows,activeIndex := 0,activeIndexByFamily := none,pinnedAccountIndex := pin }

private def poolOf (rows : List AccountMetadataV3) (pin : Option ℚ) : AccountPool := newAccountPool 0 none (some (documentOf rows pin))

private def pinnedPool : AccountPool := poolOf [tokenRow "a" true,tokenRow "b" true,tokenRow "c" true] (some 2)

/-- The cursors are on the first account; the second is disabled. -/
private def partlyDisabledPool : AccountPool := poolOf [tokenRow "a" true,tokenRow "b" false,tokenRow "c" true] none

/-- A dropped row leaves the others their stored positions; a removal leaves the
    pin where it is; and a cursor on the removed account denotes the account that
    follows, here a disabled one. -/
theorem pool_not_always_indexed :
    ((poolOf [tokenRow "" true,tokenRow "a" true] none).accounts.map ManagedAccount.index = [1]) ∧
      ((pinnedPool.pinnedAccountIndex.bind (fun pin => pinnedPool.accounts[pin]?)).map ManagedAccount.refreshToken = some "c" ∧
        (pinnedPool.removeAccount 0).1.accounts.map ManagedAccount.refreshToken = ["b","c"] ∧
        (pinnedPool.removeAccount 0).1.pinnedAccountIndex = some 2) ∧
      ((partlyDisabledPool.cursorAccount .codex).map ManagedAccount.refreshToken = some "a" ∧
        ((partlyDisabledPool.removeAccount 0).1.cursorAccount .codex).map (fun account => (account.refreshToken,account.enabled)) =
          some ("b",false)) := by
  refine ⟨?_,⟨?_,?_,?_⟩,⟨?_,?_⟩⟩ <;> decide

private def switchedPool : AccountPool := pinnedPool.step (.setActiveIndex 5 1)

/-- The second account is active; when it goes, the pointers follow. -/
theorem pool_stays_indexed_removal : Retargeted switchedPool (switchedPool.removeAccount 1).1 1 := by
  have compact : Compact (some (documentOf [tokenRow "a" true,tokenRow "b" true,tokenRow "c" true] (some 2))) := by
    intro document same
    cases same
    show TokenRowsFirst [tokenRow "a" true,tokenRow "b" true,tokenRow "c" true]
    unfold TokenRowsFirst
    decide
  have run : Run pinnedPool switchedPool := (Runs.Run.nil pinnedPool).snoc trivial
  have found : (switchedPool.removeAccount 1).2 = true := by decide
  exact (pool_stays_indexed 0 none compact run).2.2.2 1 _ (Prod.ext rfl found)
end

end AccountPool
end CodexMultiAuth
