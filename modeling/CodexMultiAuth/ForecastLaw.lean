import CodexMultiAuth.Forecast
import CodexMultiAuth.Normalize

/-!
The forecast of a stored row against the test that selection makes of its managed
account. They read the same deadlines under two representations.
-/
namespace CodexMultiAuth.Forecast

def Live (times : OrderedMap String ℚ) (key : String) (now : ℚ) : Prop := ∃ until_, times.find key = some until_ ∧ now < until_

theorem activeBound_isSome (times : OrderedMap String ℚ) (key : String) (now : ℚ) :
    (activeBound (times.find key) now).isSome = true ↔ Live times key now := by
  unfold activeBound Live
  cases times.find key with
  | none => simp
  | some deadline =>
    by_cases live : now < deadline
    · simp [live]
    · simp [live]

theorem lt_getD {times : OrderedMap String ℚ} {key : String} {now : ℚ} (start : 0 ≤ now) :
    now < (times.find key).getD 0 ↔ Live times key now := by
  unfold Live
  cases times.find key with
  | none => simpa using start
  | some deadline => simp

theorem live_selectedQuotaLimits {now : ℚ} (start : 0 ≤ now) (workspace : Option String) (times : OrderedMap String ℚ) (key : String) :
    Live (selectedQuotaLimits workspace times) key now ↔
      ∃ entry ∈ times, attributedQuotaKey workspace entry.1 = some key ∧ now < entry.2 := by
  have step : ∀ (times result : OrderedMap String ℚ),
      Live (times.foldl (selectLimit workspace) result) key now ↔
      Live result key now ∨ ∃ entry ∈ times, attributedQuotaKey workspace entry.1 = some key ∧ now < entry.2 := by
    intro times
    induction times with
    | nil => simp
    | cons entry rest ih =>
      intro result
      rw [List.foldl_cons,ih,selectLimit]
      cases attributed : attributedQuotaKey workspace entry.1 with
      | none => simp [attributed]
      | some quotaKey =>
        have put : Live (result.put quotaKey (max ((result.find quotaKey).getD 0) entry.2)) key now ↔
            Live result key now ∨ (quotaKey = key ∧ now < entry.2) := by
          rw [← lt_getD start,← lt_getD start,OrderedMap.find_put]
          by_cases same : quotaKey = key
          · subst same
            simp
          · simp [same]
        rw [put]
        simp [attributed,or_assoc]
  have none_yet : ¬ Live [] key now := by
    rintro ⟨deadline,found,-⟩
    cases found
  rw [selectedQuotaLimits,step]
  simp [none_yet]

theorem isSome_laterBound (a b : Option ℚ) : (laterBound a b).isSome = (a.isSome || b.isSome) := by
  cases a <;> cases b <;> rfl

/-! ### The same deadlines in a managed account -/

/-- Stored deadlines as the process writes them: one for each key, and a key with a
    workspace in the text that the workspace and the quota are written as. -/
structure StoredLimits (row : AccountMetadataV3) : Prop where
  distinct : (storedRateLimits row).keys.Nodup
  written : ∀ entry ∈ storedRateLimits row, ∀ workspaceId quotaKey, parseWorkspaceQuotaKey entry.1 = some (workspaceId,quotaKey) →
    workspaceId ≠ "" ∧ entry.1 = CodexMultiAuth.workspaceQuotaKey quotaKey workspaceId

theorem find_boundRateLimitCache (times : OrderedMap String ℚ) (now : ℚ) (key : String) :
    (boundRateLimitCache times now).find key = (times.find key).map (fun deadline => min deadline (now + RATE_LIMIT_CACHE_TTL_MS)) := by
  induction times with
  | nil => rfl
  | cons entry rest ih =>
    have tail : (boundRateLimitCache (entry :: rest) now).find key = _ :=
      OrderedMap.find_cons (entry.1,min entry.2 (now + RATE_LIMIT_CACHE_TTL_MS)) (boundRateLimitCache rest now) key
    rw [tail,ih,OrderedMap.find_cons]
    split_ifs <;> rfl

theorem live_boundRateLimitCache (times : OrderedMap String ℚ) (now : ℚ) (key : String) :
    Live (boundRateLimitCache times now) key now ↔ Live times key now := by
  have hour : now < now + RATE_LIMIT_CACHE_TTL_MS := by
    have positive : (0 : ℚ) < RATE_LIMIT_CACHE_TTL_MS := by unfold RATE_LIMIT_CACHE_TTL_MS; norm_num
    linarith
  unfold Live
  rw [find_boundRateLimitCache]
  cases times.find key with
  | none => simp
  | some deadline => simp [hour]

variable {row : AccountMetadataV3}

theorem attributedQuotaKey_iff (limits : StoredLimits row) {entry : String × ℚ} (member : entry ∈ storedRateLimits row)
    (workspace : Option String) {key : String} (plain : isWorkspaceKey key = false) :
    attributedQuotaKey workspace entry.1 = some key ↔
      entry.1 = key ∨ ∃ workspaceId, workspace.bind nonEmpty = some workspaceId ∧ entry.1 = CodexMultiAuth.workspaceQuotaKey key workspaceId := by
  unfold attributedQuotaKey
  split_ifs with attributed
  · have other : entry.1 ≠ key := by
      rintro rfl
      rw [attributed] at plain
      cases plain
    cases parsed : parseWorkspaceQuotaKey entry.1 with
    | none =>
      simp only [other,false_or,reduceCtorEq,false_iff,not_exists,not_and]
      rintro workspaceId - same
      rw [same,parseWorkspaceQuotaKey_workspaceQuotaKey] at parsed
      cases parsed
    | some read =>
      obtain ⟨workspaceId,quotaKey⟩ := read
      obtain ⟨named,text⟩ := limits.written entry member workspaceId quotaKey parsed
      simp only [other,false_or]
      constructor
      · intro counted
        split_ifs at counted with selected
        cases Option.some.inj counted
        exact ⟨workspaceId,by simp [← selected,nonEmpty,named],text⟩
      · rintro ⟨selectedId,selected,same⟩
        rw [same,parseWorkspaceQuotaKey_workspaceQuotaKey] at parsed
        cases Option.some.inj parsed
        obtain ⟨chosen,there,filled⟩ := Option.bind_eq_some_iff.mp selected
        unfold nonEmpty at filled
        split_ifs at filled
        cases Option.some.inj filled
        rw [if_pos there.symm]
  · constructor
    · intro same
      exact .inl (Option.some.inj same)
    · rintro (same | ⟨workspaceId,-,same⟩)
      · rw [same]
      · rw [same,isWorkspaceKey_workspaceQuotaKey] at attributed
        exact absurd rfl attributed

section
variable [Host] {env : Runtime} (written : env.workspaceQuotaKey = CodexMultiAuth.workspaceQuotaKey) (start : 0 ≤ env.now)
variable {row : AccountMetadataV3} (limits : StoredLimits row) (index : Nat)
include written start limits

theorem isRateLimitedForQuotaKey_iff {key : String} (plain : isWorkspaceKey key = false) :
    isRateLimitedForQuotaKey env (managedAccount env.now none row index) key = true ↔
      Live (selectedQuotaLimits (env.selectedQuotaWorkspace (storedEntity row)) (storedRateLimits row)) key env.now := by
  have entity : (managedAccount env.now none row index).entity = storedEntity row := rfl
  have times : (managedAccount env.now none row index).rateLimitResetTimes = boundRateLimitCache (storedRateLimits row) env.now := rfl
  have found : ∀ k, Live (storedRateLimits row) k env.now ↔ ∃ entry ∈ storedRateLimits row, entry.1 = k ∧ env.now < entry.2 := by
    intro k
    constructor
    · rintro ⟨deadline,here,live⟩
      exact ⟨(k,deadline),OrderedMap.mem_of_find here,rfl,live⟩
    · rintro ⟨⟨other,deadline⟩,member,rfl,live⟩
      exact ⟨deadline,OrderedMap.find_of_mem limits.distinct member,live⟩
  have selected : ∀ workspace : Option String,
      (∃ entry ∈ storedRateLimits row, attributedQuotaKey workspace entry.1 = some key ∧ env.now < entry.2) ↔
        Live (storedRateLimits row) key env.now ∨
          ∃ workspaceId, workspace.bind nonEmpty = some workspaceId ∧
            Live (storedRateLimits row) (CodexMultiAuth.workspaceQuotaKey key workspaceId) env.now := by
    intro workspace
    constructor
    · rintro ⟨entry,member,attributed,live⟩
      rcases (attributedQuotaKey_iff limits member workspace plain).mp attributed with same | ⟨workspaceId,chosen,same⟩
      · exact .inl ((found key).mpr ⟨entry,member,same,live⟩)
      · exact .inr ⟨workspaceId,chosen,(found _).mpr ⟨entry,member,same,live⟩⟩
    · rintro (live | ⟨workspaceId,chosen,live⟩)
      · obtain ⟨entry,member,same,live⟩ := (found key).mp live
        exact ⟨entry,member,(attributedQuotaKey_iff limits member workspace plain).mpr (.inl same),live⟩
      · obtain ⟨entry,member,same,live⟩ := (found _).mp live
        exact ⟨entry,member,(attributedQuotaKey_iff limits member workspace plain).mpr (.inr ⟨workspaceId,chosen,same⟩),live⟩
  rw [live_selectedQuotaLimits start,selected,isRateLimitedForQuotaKey,decide_eq_true_iff,quotaResetTime,lt_max_iff,entity,times,written,
    lt_getD start,live_boundRateLimitCache]
  cases (env.selectedQuotaWorkspace (storedEntity row)).bind nonEmpty with
  | none => simp [start.not_gt]
  | some workspaceId => simp [lt_getD start,live_boundRateLimitCache]

theorem isRateLimitedForFamily_iff (family : ModelFamily) {model : String} (named : model ≠ "") :
    isRateLimitedForFamily env (managedAccount env.now none row index) family (some model) = true ↔
      (getRateLimitResetTimeForModel env row env.now family model).isSome = true := by
  have family_key := isRateLimitedForQuotaKey_iff written start limits index (isWorkspaceKey_getQuotaKey family none)
  have model_key := isRateLimitedForQuotaKey_iff written start limits index (isWorkspaceKey_getQuotaKey family (some model))
  have given : nonEmpty model = some model := by simp [nonEmpty,named]
  unfold isRateLimitedForFamily getRateLimitResetTimeForModel
  simp only [Option.bind_some,given,Option.isSome_some,true_and,isSome_laterBound,Bool.or_eq_true]
  rw [activeBound_isSome,← model_key]
  by_cases luna : model = LUNA_RESERVE_MODEL
  · by_cases limited : isRateLimitedForQuotaKey env (managedAccount env.now none row index) (getQuotaKey family (some model)) = true
    · simp [limited]
    · simp [luna]
  · rw [if_neg luna,activeBound_isSome,← family_key]
    by_cases limited : isRateLimitedForQuotaKey env (managedAccount env.now none row index) (getQuotaKey family (some model)) = true
    · simp [limited]
    · simp [limited,luna]

end

/-- A forecast from stored rows alone. -/
structure Plain (input : ForecastAccountInput) : Prop where
  refreshFailure : input.refreshFailure = none
  liveQuota : input.liveQuota = none
  quotaEntry : input.quotaEntry = none
  runtimeOverlay : input.runtimeOverlay = none

section
variable [Host] (text : ForecastText) (env : Runtime) (input : ForecastAccountInput)

theorem assess_plain (plain : Plain input) :
    (assess text env input).availability =
      (if isDisabled input.account = true ∨ (Record.number input.account "authInvalidatedAt").isSome = true then .unavailable
      else if (cooldownRemaining input).isSome = true ∨ (rateLimitResetAt env input).isSome = true then .delayed
      else .ready) ∧
    (assess text env input).hardFailure = false ∧ (assess text env input).exhausted = false := by
  have last : ∀ state, (assessLastUsed input state).availability = state.availability ∧
      (assessLastUsed input state).hardFailure = state.hardFailure ∧ (assessLastUsed input state).exhausted = state.exhausted := by
    intro state
    unfold assessLastUsed
    split
    · split_ifs <;> exact ⟨rfl,rfl,rfl⟩
    · exact ⟨rfl,rfl,rfl⟩
  have quiet : ∀ state, assessLiveQuota input (assessOverlay env input (assessQuotaCache input state)) = state := by
    intro state
    simp [assessLiveQuota,assessOverlay,assessQuotaCache,overlayReason,isQuotaCacheEntryExhausted,plain.liveQuota,plain.quotaEntry,
      plain.runtimeOverlay]
  have refreshed : ∀ state, assessRefreshFailure text input state = state := by
    intro state
    simp [assessRefreshFailure,plain.refreshFailure]
  simp only [assess]
  rw [quiet,refreshed]
  simp only [last,assessRateLimit,assessCooldown,assessInvalidation,assessEnabled]
  cases disabled : isDisabled input.account <;> cases Record.number input.account "authInvalidatedAt" <;>
    cases cooldownRemaining input <;> cases rateLimitResetAt env input <;>
    simp [Assessment.unavailable,Assessment.wait,Assessment.delay,Assessment.risk,Assessment.note]

theorem evaluateForecastAccount_plain (plain : Plain input) :
    isCandidate (evaluateForecastAccount text env input) = decide ((evaluateForecastAccount text env input).availability ≠ .unavailable) := by
  obtain ⟨availability,hard,exhausted⟩ := assess_plain text env input plain
  have disabled : isDisabled input.account = true → (assess text env input).availability = .unavailable := by
    intro disabled
    rw [availability,if_pos (.inl disabled)]
  simp only [isCandidate,evaluateForecastAccount,hard,exhausted]
  cases isOff : isDisabled input.account with
  | false => simp
  | true => simp [disabled isOff]

end

def storedInput (env : Runtime) (family : ModelFamily) (model : String) (isCurrent : Nat → Bool) (index : Nat) (row : AccountMetadataV3) :
    ForecastAccountInput where
  index := index
  account := row
  isCurrent := isCurrent index
  now := env.now
  family := some family
  model := some model

def storedSkipReason [Host] (env : Runtime) (family : ModelFamily) (model : String) (index : Nat) (row : AccountMetadataV3) : Option String :=
  getManagedAccountRuntimeSkipReason env (managedAccount env.now none row index) family (some model)

def storedForecast [Host] (text : ForecastText) (env : Runtime) (family : ModelFamily) (model : String) (isCurrent : Nat → Bool)
    (index : Nat) (row : AccountMetadataV3) : ForecastAccountResult :=
  evaluateForecastAccount text env (storedInput env family model isCurrent index row)

theorem storedInput_plain (env : Runtime) (family : ModelFamily) (model : String) (isCurrent : Nat → Bool) (index : Nat) (row : AccountMetadataV3) :
    Plain (storedInput env family model isCurrent index row) := ⟨rfl,rfl,rfl,rfl⟩

def storedWorkspaces (row : AccountMetadataV3) : Bool :=
  match Record.records row "workspaces" with
  | none => true
  | some [] => true
  | some workspaces => workspaces.any isEnabledWorkspace

section
variable [Host] (text : ForecastText) {env : Runtime} (written : env.workspaceQuotaKey = CodexMultiAuth.workspaceQuotaKey) (start : 0 ≤ env.now)
variable (closed : ∀ ref, env.isCircuitAvailable ref = true)
variable (family : ModelFamily) {model : String} (named : model ≠ "") (isCurrent : Nat → Bool)
variable {row : AccountMetadataV3} (limits : StoredLimits row)
variable (positive : ∀ time, Record.number row "authInvalidatedAt" = some time → 0 < time) (index : Nat)
include written start closed named limits positive

/-- Selection can pick the account of a row exactly when the forecast is ready and it has a workspace. -/
theorem storedSkipReason_eq_none_iff :
    storedSkipReason env family model index row = none ↔
      (storedForecast text env family model isCurrent index row).availability = .ready ∧ storedWorkspaces row = true := by
  have limited := isRateLimitedForFamily_iff written start limits index family named
  have given : nonEmpty model = some model := by simp [nonEmpty,named]
  have resets : rateLimitResetAt env (storedInput env family model isCurrent index row) =
      getRateLimitResetTimeForModel env row env.now family model := by
    simp [rateLimitResetAt,storedInput,given]
  have workspaces : hasEnabledWorkspaces (managedAccount env.now none row index) = storedWorkspaces row := rfl
  have enabled : (managedAccount env.now none row index).enabled = !isDisabled row := by
    simp [managedAccount,isDisabled]
  have invalidated : isAccountAuthInvalidated (managedAccount env.now none row index) = (Record.number row "authInvalidatedAt").isSome := by
    have held : (managedAccount env.now none row index).authInvalidatedAt = Record.number row "authInvalidatedAt" := rfl
    rw [isAccountAuthInvalidated,held]
    cases found : Record.number row "authInvalidatedAt" with
    | none => rfl
    | some time => simpa using positive time found
  have cooling : isAccountCoolingDown env (managedAccount env.now none row index) =
      (cooldownRemaining (storedInput env family model isCurrent index row)).isSome := by
    have held : (managedAccount env.now none row index).coolingDownUntil = Record.number row "coolingDownUntil" := rfl
    have stored : cooldownRemaining (storedInput env family model isCurrent index row) =
      (Record.number row "coolingDownUntil").bind (fun deadline => if env.now < deadline then some (deadline - env.now) else none) := rfl
    rw [isAccountCoolingDown,held,stored]
    cases Record.number row "coolingDownUntil" with
    | none => rfl
    | some deadline => by_cases live : env.now < deadline <;> simp [live]
  have availability := (assess_plain text env _ (storedInput_plain env family model isCurrent index row)).1
  have account : (storedInput env family model isCurrent index row).account = row := rfl
  rw [storedForecast,evaluateForecastAccount,availability,account,resets,storedSkipReason,getManagedAccountRuntimeSkipReason,enabled,workspaces,
    invalidated,cooling,closed]
  cases isDisabled row <;> cases storedWorkspaces row <;> cases (Record.number row "authInvalidatedAt").isSome <;>
    cases rated : (getRateLimitResetTimeForModel env row env.now family model).isSome <;>
    cases (cooldownRemaining (storedInput env family model isCurrent index row)).isSome <;>
    simp [limited,rated]
  all_goals split <;> simp

end

/-- What the order of results compares, in turn. -/
def forecastKey (result : ForecastAccountResult) : ℤ ×ₗ ℤ ×ₗ ℤ ×ₗ ℤ ×ₗ ℤ :=
  toLex (result.availability.rank,toLex (if result.availability = .delayed then result.waitMs else 0,
    toLex (result.riskScore,toLex (if result.isCurrent then 0 else 1,(result.index : ℤ)))))

theorem compareForecastResults_le (a b : ForecastAccountResult) : compareForecastResults a b ≤ 0 ↔ forecastKey a ≤ forecastKey b := by
  unfold compareForecastResults forecastKey
  simp only [Prod.Lex.toLex_le_toLex]
  by_cases availability : a.availability = b.availability
  · rw [if_neg (by simp [availability]),availability]
    by_cases wait : b.availability = .delayed ∧ b.availability = .delayed ∧ a.waitMs ≠ b.waitMs
    · have apart := wait.2.2
      rw [if_pos wait]
      simp only [wait.1,if_true]
      constructor
      · intro shorter
        exact .inr ⟨trivial,.inl (by omega)⟩
      · rintro (lower | ⟨-,shorter | ⟨same,-⟩⟩)
        · exact absurd lower (lt_irrefl _)
        · omega
        · exact absurd same apart
    · rw [if_neg wait]
      have same : (if b.availability = .delayed then a.waitMs else 0) = if b.availability = .delayed then b.waitMs else 0 := by
        by_cases delayed : b.availability = .delayed
        · simp only [delayed,true_and,not_not] at wait
          simp [wait]
        · simp [delayed]
      rw [same]
      by_cases risk : a.riskScore = b.riskScore
      · rw [if_neg (by simp [risk]),risk]
        cases left : a.isCurrent <;> cases right : b.isCurrent <;> simp
      · rw [if_pos risk]
        omega
  · have ranks : a.availability.rank ≠ b.availability.rank := by
      cases left : a.availability <;> cases right : b.availability <;> simp_all [ForecastAvailability.rank]
    rw [if_pos availability]
    omega

theorem recommendForecastAccount_some {results : List ForecastAccountResult} {index : Nat}
    (recommended : (recommendForecastAccount results).recommendedIndex = some index) :
    ∃ best ∈ results, isCandidate best = true ∧ best.index = index ∧
      ∀ other ∈ results, isCandidate other = true → best.availability.rank ≤ other.availability.rank := by
  have sorted : ((results.filter isCandidate).mergeSort (fun a b => decide (compareForecastResults a b ≤ 0))).Pairwise
      (fun a b => decide (compareForecastResults a b ≤ 0) = true) := List.pairwise_mergeSort
    (fun a b c => by simpa [compareForecastResults_le] using le_trans)
    (fun a b => by simpa [compareForecastResults_le] using le_total (forecastKey a) (forecastKey b)) (results.filter isCandidate)
  have members : ∀ result, result ∈ (results.filter isCandidate).mergeSort (fun a b => decide (compareForecastResults a b ≤ 0)) ↔
      result ∈ results ∧ isCandidate result = true := by
    intro result
    rw [List.mem_mergeSort,List.mem_filter]
  unfold recommendForecastAccount at recommended
  simp only at recommended
  cases order : (results.filter isCandidate).mergeSort (fun a b => decide (compareForecastResults a b ≤ 0)) with
  | nil => simp [order] at recommended
  | cons best rest =>
    rw [order] at recommended sorted members
    obtain ⟨inside,candidate⟩ := (members best).mp List.mem_cons_self
    refine ⟨best,inside,candidate,Option.some.inj recommended,fun other member open_ => ?_⟩
    rcases List.mem_cons.mp ((members other).mpr ⟨member,open_⟩) with rfl | later
    · exact le_rfl
    · have before := (List.pairwise_cons.mp sorted).1 other later
      rw [decide_eq_true_iff,compareForecastResults_le] at before
      have first := Prod.Lex.toLex_le_toLex.mp before
      omega

theorem recommendForecastAccount_isSome {results : List ForecastAccountResult} {result : ForecastAccountResult} (member : result ∈ results)
    (candidate : isCandidate result = true) : ∃ index, (recommendForecastAccount results).recommendedIndex = some index := by
  have inside : result ∈ (results.filter isCandidate).mergeSort (fun a b => decide (compareForecastResults a b ≤ 0)) := by
    rw [List.mem_mergeSort,List.mem_filter]
    exact ⟨member,candidate⟩
  unfold recommendForecastAccount
  simp only
  split
  · rename_i empty
    rw [empty] at inside
    cases inside
  · exact ⟨_,rfl⟩

/-! ### A stored pool -/

theorem validAccount_positive {version now : ℚ} {raw : Json} (valid : validAccount version now raw = some row) :
    ∀ time, Record.number row "authInvalidatedAt" = some time → 0 < time := by
  unfold validAccount at valid
  split at valid
  · simp only at valid
    split_ifs at valid
    all_goals
      cases Option.some.inj valid
      intro time found
      unfold normalizeInvalidation at found
      split_ifs at found with positive
      · simpa [Record.number,found] using (by simpa [found] using positive : (0 : ℚ) < time)
      · exfalso
        simp [Record.number,OrderedMap.find_remove] at found
  · cases valid

theorem normalizeAccountStorage_valid [Host] {now : ℚ} {data : Json} {stored : AccountStorageV3} (loaded : normalizeAccountStorage now data = some stored) :
    ∀ row ∈ stored.accounts, ∃ version raw, validAccount version now raw = some row := by
  unfold normalizeAccountStorage at loaded
  split at loaded
  · simp only at loaded
    split at loaded
    · rename_i version rawAccounts _ _
      split_ifs at loaded
      cases Option.some.inj loaded
      intro row member
      obtain ⟨raw,-,valid⟩ := List.mem_filterMap.mp (mem_deduplicateAccounts member)
      exact ⟨version,raw,valid⟩
    · cases loaded
  · cases loaded

def poolForecast [Host] (text : ForecastText) (env : Runtime) (family : ModelFamily) (model : String) (isCurrent : Nat → Bool)
    (stored : AccountStorageV3) : List ForecastAccountResult :=
  stored.accounts.mapIdx (storedForecast text env family model isCurrent)

/-- Selection can pick an account exactly when the forecast is ready and the account
    has a workspace. In a pool whose accounts all have one, the recommended account is
    one that selection can pick if there is any, and a delayed one otherwise. -/
theorem forecast_agrees_with_selection [Host] (text : ForecastText) (env : Runtime)
    (written : env.workspaceQuotaKey = CodexMultiAuth.workspaceQuotaKey) (start : 0 ≤ env.now)
    (closed : ∀ ref, env.isCircuitAvailable ref = true) (family : ModelFamily) (model : String) (named : model ≠ "") (isCurrent : Nat → Bool)
    (loadedAt : ℚ) (data : Json) (stored : AccountStorageV3) (loaded : normalizeAccountStorage loadedAt data = some stored)
    (limits : ∀ row ∈ stored.accounts, StoredLimits row) :
    (∀ index row, stored.accounts[index]? = some row →
      (storedSkipReason env family model index row = none ↔
        (storedForecast text env family model isCurrent index row).availability = .ready ∧ storedWorkspaces row = true)) ∧
    ((∀ row ∈ stored.accounts, storedWorkspaces row = true) →
      (∀ index, (recommendForecastAccount (poolForecast text env family model isCurrent stored)).recommendedIndex = some index →
        ∃ row, stored.accounts[index]? = some row ∧
          (storedSkipReason env family model index row = none ∨
            (storedForecast text env family model isCurrent index row).availability = .delayed ∧
              ∀ other another, stored.accounts[other]? = some another → storedSkipReason env family model other another ≠ none)) ∧
      ((∃ index row, stored.accounts[index]? = some row ∧ storedSkipReason env family model index row = none) →
        ∃ index row, (recommendForecastAccount (poolForecast text env family model isCurrent stored)).recommendedIndex = some index ∧
          stored.accounts[index]? = some row ∧ storedSkipReason env family model index row = none)) := by
  have agrees : ∀ index row, stored.accounts[index]? = some row →
      (storedSkipReason env family model index row = none ↔
        (storedForecast text env family model isCurrent index row).availability = .ready ∧ storedWorkspaces row = true) := by
    intro index row found
    have member := List.mem_of_getElem? found
    obtain ⟨version,raw,valid⟩ := normalizeAccountStorage_valid loaded row member
    exact storedSkipReason_eq_none_iff text written start closed family named isCurrent (limits row member) (validAccount_positive valid) index
  have result_mem : ∀ index row, stored.accounts[index]? = some row →
      storedForecast text env family model isCurrent index row ∈ poolForecast text env family model isCurrent stored := by
    intro index row found
    refine List.mem_of_getElem? (i := index) ?_
    rw [poolForecast,List.getElem?_mapIdx,found]
    rfl
  have candidate : ∀ index row, isCandidate (storedForecast text env family model isCurrent index row) =
      decide ((storedForecast text env family model isCurrent index row).availability ≠ .unavailable) :=
    fun index row => evaluateForecastAccount_plain text env _ (storedInput_plain env family model isCurrent index row)
  have recommended : (∀ row ∈ stored.accounts, storedWorkspaces row = true) →
      ∀ index, (recommendForecastAccount (poolForecast text env family model isCurrent stored)).recommendedIndex = some index →
        ∃ row, stored.accounts[index]? = some row ∧
          (storedSkipReason env family model index row = none ∨
            (storedForecast text env family model isCurrent index row).availability = .delayed ∧
              ∀ other another, stored.accounts[other]? = some another → storedSkipReason env family model other another ≠ none) := by
    intro workspaces index picked
    obtain ⟨best,member,open_,rfl,first⟩ := recommendForecastAccount_some picked
    obtain ⟨place,at_place⟩ := List.getElem?_of_mem member
    rw [poolForecast,List.getElem?_mapIdx] at at_place
    obtain ⟨row,found,rfl⟩ := Option.map_eq_some_iff.mp at_place
    refine ⟨row,found,?_⟩
    rw [candidate,decide_eq_true_iff] at open_
    cases availability : (storedForecast text env family model isCurrent place row).availability with
    | ready => exact .inl ((agrees place row found).mpr ⟨availability,workspaces row (List.mem_of_getElem? found)⟩)
    | delayed =>
      refine .inr ⟨availability,fun other another there free => ?_⟩
      have ready := ((agrees other another there).mp free).1
      have rank := first _ (result_mem other another there) (by rw [candidate,ready]; rfl)
      rw [availability,ready] at rank
      exact absurd rank (by decide)
    | unavailable => exact absurd availability open_
  refine ⟨agrees,fun workspaces => ⟨recommended workspaces,?_⟩⟩
  rintro ⟨index,row,found,free⟩
  have ready := ((agrees index row found).mp free).1
  obtain ⟨picked,some_picked⟩ := recommendForecastAccount_isSome (result_mem index row found) (by rw [candidate,ready]; rfl)
  obtain ⟨chosen,there,either⟩ := recommended workspaces picked some_picked
  rcases either with clear | ⟨-,none_free⟩
  · exact ⟨picked,chosen,some_picked,there,clear⟩
  · exact absurd free (none_free index row found)

attribute [local instance] asciiHost

/-- A process at its first second, all circuits closed; a row's quota belongs to its
    selected workspace or else to its account. -/
def idleRuntime : Runtime where
  now := 1000
  isCircuitAvailable _ := true
  selectedQuotaWorkspace entity := ((entity.workspaces.bind List.head?).bind Workspace.id).or entity.accountId
  workspaceQuotaKey := CodexMultiAuth.workspaceQuotaKey

def plainText : ForecastText where
  label _ _ := "account"
  redactSensitiveReason reason := reason

def storedRow (token : String) (fields : Record) : AccountMetadataV3 := ("refreshToken",Json.str token) :: fields

def poolData (rows : List AccountMetadataV3) : Json := .obj [("version",.num 3),("accounts",.arr (rows.map Json.obj))]

def closedRow : AccountMetadataV3 := storedRow "closed" [("workspaces",.arr [.obj [("id",.str "ws"),("enabled",.bool false)]])]
def coolingRow : AccountMetadataV3 := storedRow "cooling" [("coolingDownUntil",.num 5000)]
def limitedRow : AccountMetadataV3 := storedRow "limited" [("rateLimitResetTimes",.obj [("codex",.num 900),("codex:gpt-5",.num 2000)])]
/-- A key that reads as one of the workspace's and is not the text that is written for it. -/
def oddRow : AccountMetadataV3 :=
  storedRow "odd" [("accountId",.str "acct"),("rateLimitResetTimes",.obj [("[\"workspace\",\"acct\", \"codex\"]",.num 2000)])]

theorem storedLimits_plain (distinct : (storedRateLimits row).keys.Nodup)
    (plain : ∀ entry ∈ storedRateLimits row, parseWorkspaceQuotaKey entry.1 = none) : StoredLimits row := by
  refine ⟨distinct,fun entry member workspaceId quotaKey parsed => ?_⟩
  rw [plain entry member] at parsed
  cases parsed

/-- Of a cooling and a limited account the forecast recommends neither, but the free one. -/
theorem free_account_recommended :
    ∃ stored, normalizeAccountStorage 0 (poolData [coolingRow,limitedRow,storedRow "free" []]) = some stored ∧
      ∃ index row, (recommendForecastAccount (poolForecast plainText idleRuntime .codex "gpt-5" (fun _ => false) stored)).recommendedIndex =
        some index ∧ stored.accounts[index]? = some row ∧ storedSkipReason idleRuntime .codex "gpt-5" index row = none := by
  obtain ⟨stored,loaded,rows⟩ : ∃ stored, normalizeAccountStorage 0 (poolData [coolingRow,limitedRow,storedRow "free" []]) = some stored ∧
      stored.accounts = [coolingRow,limitedRow,storedRow "free" []] := ⟨_,rfl,rfl⟩
  have limits : ∀ row ∈ stored.accounts, StoredLimits row := by
    have plain : ∀ row ∈ [coolingRow,limitedRow,storedRow "free" []], (storedRateLimits row).keys.Nodup ∧
        ∀ entry ∈ storedRateLimits row, parseWorkspaceQuotaKey entry.1 = none := by decide
    intro row member
    rw [rows] at member
    exact storedLimits_plain (plain row member).1 (plain row member).2
  have workspaces : ∀ row ∈ stored.accounts, storedWorkspaces row = true := by
    rw [rows]
    decide
  have agrees := forecast_agrees_with_selection plainText idleRuntime rfl (by decide) (fun _ => rfl) .codex "gpt-5" (by decide) (fun _ => false)
    0 _ stored loaded limits
  exact ⟨stored,loaded,(agrees.2 workspaces).2 ⟨2,storedRow "free" [],by rw [rows]; rfl,by decide⟩⟩

/-- The forecast takes an account for ready whose only workspace is disabled, counts a
    deadline under a key that selection does not look up, and recommends an account
    that is still cooling down where no other is left. -/
theorem forecast_recommends_skipped :
    (∃ stored row, normalizeAccountStorage 0 (poolData [closedRow]) = some stored ∧ stored.accounts[0]? = some row ∧
      (storedForecast plainText idleRuntime .codex "gpt-5" (fun _ => false) 0 row).availability = .ready ∧
      storedSkipReason idleRuntime .codex "gpt-5" 0 row = some "workspace-disabled") ∧
    (∃ stored row, normalizeAccountStorage 0 (poolData [oddRow]) = some stored ∧ stored.accounts[0]? = some row ∧
      (storedForecast plainText idleRuntime .codex "gpt-5" (fun _ => false) 0 row).availability = .delayed ∧
      storedSkipReason idleRuntime .codex "gpt-5" 0 row = none) ∧
    (∃ stored row, normalizeAccountStorage 0 (poolData [coolingRow]) = some stored ∧ stored.accounts[0]? = some row ∧
      (recommendForecastAccount (poolForecast plainText idleRuntime .codex "gpt-5" (fun _ => false) stored)).recommendedIndex = some 0 ∧
      storedSkipReason idleRuntime .codex "gpt-5" 0 row = some "cooling-down") :=
  ⟨⟨_,closedRow,rfl,rfl,by decide,by decide⟩,⟨_,oddRow,rfl,rfl,by decide,by decide⟩,
    ⟨_,coolingRow,rfl,rfl,by decide +kernel,by decide +kernel⟩⟩

end CodexMultiAuth.Forecast
