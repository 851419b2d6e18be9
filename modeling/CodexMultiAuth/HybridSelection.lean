import Mathlib.Data.List.MinMax
import Mathlib.Data.List.Sort
import CodexMultiAuth.Lists
import CodexMultiAuth.FailurePolicy

/-!
The hybrid selection among accounts and its trace for diagnostics. The selector keeps
the best account while it goes through the available ones; the trace scores all of them,
sorts them and takes the first that is available.
-/
namespace CodexMultiAuth.HybridSelection
open PluginHost List

inductive TrackerKey where
  | number (index : ℤ)
  | text (key : String)
  deriving DecidableEq

/-- The account and the quota of an entry. -/
abbrev EntryKey := String × Option String

def normalizeTrackerKey (accountKey : TrackerKey) (quotaKey : Option String) : EntryKey :=
  match accountKey with
  | .number index => (toString index,quotaKey)
  | .text key => (key,quotaKey)

structure HealthEntry where
  score : ℚ
  lastUpdated : ℚ

structure HealthScoreTracker where
  maxScore : ℚ := 100
  passiveRecoveryPerHour : ℚ := 2
  entries : EntryKey → Option HealthEntry := fun _ => none

namespace HealthScoreTracker
variable (tracker : HealthScoreTracker) (now : ℚ)

def applyPassiveRecovery (entry : HealthEntry) : ℚ :=
  min (entry.score + (now - entry.lastUpdated) / (1000 * 60 * 60) * tracker.passiveRecoveryPerHour) tracker.maxScore

def getScore (accountKey : TrackerKey) (quotaKey : Option String) : ℚ :=
  match tracker.entries (normalizeTrackerKey accountKey quotaKey) with
  | none => tracker.maxScore
  | some entry => tracker.applyPassiveRecovery now entry

end HealthScoreTracker

structure TokenBucketTracker where
  config : TokenBucketConfig := {}
  buckets : Buckets EntryKey := fun _ => none

def TokenBucketTracker.getTokens (tracker : TokenBucketTracker) (now : ℚ) (accountKey : TrackerKey) (quotaKey : Option String) : ℚ :=
  currentTokens tracker.config now tracker.buckets (normalizeTrackerKey accountKey quotaKey)

structure AccountWithMetrics where
  index : ℤ
  trackerKey : Option TrackerKey := none
  isAvailable : Bool
  unavailableReason : Option String := none
  lastUsed : ℚ
  deriving DecidableEq

structure HybridSelectionConfig where
  healthWeight : ℚ := 2
  tokenWeight : ℚ := 5
  freshnessWeight : ℚ := 2

/-- The weights that a caller gives. -/
structure PartialConfig where
  healthWeight : Option ℚ := none
  tokenWeight : Option ℚ := none
  freshnessWeight : Option ℚ := none

def withDefaults (given : PartialConfig) : HybridSelectionConfig where
  healthWeight := given.healthWeight.getD 2
  tokenWeight := given.tokenWeight.getD 5
  freshnessWeight := given.freshnessWeight.getD 2

/-- What a record of boosts has for an account. -/
inductive ScoreBoost where
  | finite (value : ℚ)
  | notFinite
  | notNumber

structure HybridSelectionOptions where
  pidOffsetEnabled : Bool := false
  scoreBoostByAccount : ℤ → Option ScoreBoost := fun _ => none
  blockedAccountIndexes : List ℤ := []
  blockedReasonByAccount : ℤ → Option String := fun _ => none

structure SelectHybridAccountParams where
  accounts : List AccountWithMetrics
  healthTracker : HealthScoreTracker
  tokenTracker : TokenBucketTracker
  quotaKey : Option String := none
  config : PartialConfig := {}
  options : HybridSelectionOptions := {}

/-- The process that selects, and when. -/
structure Process where
  pid : ℕ
  now : ℚ

/-- The remainder of a division by one, with the sign of the dividend. -/
def remOne (value : ℚ) : ℚ := if 0 ≤ value then value - ⌊value⌋ else value - ⌈value⌉

section
variable (process : Process) (params : SelectHybridAccountParams)

def isBlocked (account : AccountWithMetrics) : Bool := params.options.blockedAccountIndexes.contains account.index

def availableAccounts : List AccountWithMetrics :=
  params.accounts.filter (fun account => account.isAvailable && !isBlocked params account)

def pidBonus : ℚ := if params.options.pidOffsetEnabled then (process.pid % 100 : ℕ) * (1 / 100) else 0

def hoursSinceUsed (account : AccountWithMetrics) : ℚ := (process.now - account.lastUsed) / (1000 * 60 * 60)

def capabilityBoost (account : AccountWithMetrics) : ℚ :=
  match params.options.scoreBoostByAccount account.index with
  | some (.finite value) => value
  | _ => 0

/-- The score of an account as the loop of the selector computes it. -/
def selectorScore (account : AccountWithMetrics) : ℚ :=
  let cfg := withDefaults params.config
  let trackerKey := account.trackerKey.getD (.number account.index)
  let health := params.healthTracker.getScore process.now trackerKey params.quotaKey
  let tokens := params.tokenTracker.getTokens process.now trackerKey params.quotaKey
  let score := health * cfg.healthWeight + tokens * cfg.tokenWeight + hoursSinceUsed process account * cfg.freshnessWeight +
    capabilityBoost params account
  if params.options.pidOffsetEnabled then
    score + remOne (account.index * (131 / 1000) + pidBonus process params) * cfg.freshnessWeight * (1 / 10)
  else score

def bestAccount : Option (AccountWithMetrics × ℚ) → List AccountWithMetrics → Option AccountWithMetrics
  | best,[] => best.map Prod.fst
  | none,account :: rest => bestAccount (some (account,selectorScore process params account)) rest
  | some (best,bestScore),account :: rest =>
    if bestScore < selectorScore process params account then bestAccount (some (account,selectorScore process params account)) rest
    else bestAccount (some (best,bestScore)) rest

def selectHybridAccount : Option AccountWithMetrics :=
  match availableAccounts params with
  | [] => none
  | [only] => some only
  | available => bestAccount process params none available

structure HybridSelectionCandidateTrace where
  index : ℤ
  trackerKey : TrackerKey
  isAvailable : Bool
  lastUsed : ℚ
  health : ℚ
  tokens : ℚ
  hoursSinceUsed : ℚ
  capabilityBoost : ℚ
  pidBonus : ℚ
  score : ℚ
  reason : Option String

structure HybridSelectionTraceResult where
  selected : Option AccountWithMetrics
  selectedIndex : Option ℤ
  selectionReason : String
  candidates : List HybridSelectionCandidateTrace
  config : HybridSelectionConfig
  quotaKey : Option String
  availableCount : ℕ

def candidate (account : AccountWithMetrics) : HybridSelectionCandidateTrace :=
  let cfg := withDefaults params.config
  let trackerKey := account.trackerKey.getD (.number account.index)
  let health := params.healthTracker.getScore process.now trackerKey params.quotaKey
  let tokens := params.tokenTracker.getTokens process.now trackerKey params.quotaKey
  let hours := hoursSinceUsed process account
  let boost := capabilityBoost params account
  let score := health * cfg.healthWeight + tokens * cfg.tokenWeight + hours * cfg.freshnessWeight + boost
  let blocked := isBlocked params account
  { index := account.index
    trackerKey := trackerKey
    isAvailable := account.isAvailable && !blocked
    lastUsed := account.lastUsed
    health := health
    tokens := tokens
    hoursSinceUsed := hours
    capabilityBoost := boost
    pidBonus := if params.options.pidOffsetEnabled then pidBonus process params else 0
    score := if params.options.pidOffsetEnabled then
        score + remOne (account.index * (131 / 1000) + pidBonus process params) * cfg.freshnessWeight * (1 / 10)
      else score
    reason := if blocked then some ((params.options.blockedReasonByAccount account.index).getD "policy-blocked")
      else if account.isAvailable then none
      else some (account.unavailableReason.getD "unavailable (rate-limited, cooling down, or circuit open)") }

/-- Stays in order where the scores are equal. -/
def sortByScore (candidates : List HybridSelectionCandidateTrace) : List HybridSelectionCandidateTrace :=
  candidates.insertionSort (fun a b => b.score ≤ a.score)

/-- A number, below 10²¹, with two digits after the point. -/
def toFixed2 (value : ℚ) : String :=
  let hundredths := ⌊|value| * 100 + 1 / 2⌋.toNat
  (if value < 0 then "-" else "") ++ toString (hundredths / 100) ++ "." ++ toString (hundredths % 100 / 10) ++ toString (hundredths % 10)

def selectHybridAccountTraced : HybridSelectionTraceResult :=
  let available := availableAccounts params
  let candidates := sortByScore (params.accounts.map (candidate process params))
  let outcome : Option AccountWithMetrics × String :=
    match params.accounts,available with
    | [],_ => (none,"no accounts configured")
    | _,[] => (none,"all accounts unavailable (rate-limited, cooling down, or circuit open)")
    | _,[only] => (some only,"single available account")
    | accounts,_ =>
      match candidates.find? HybridSelectionCandidateTrace.isAvailable with
      | none => (none,"no accounts provided")
      | some best =>
        (accounts.find? (fun account => decide (account.index = best.index)),
          "highest hybrid score (" ++ toFixed2 best.score ++ ") across " ++ toString available.length ++ " available account(s)")
  { selected := outcome.1
    selectedIndex := outcome.1.map AccountWithMetrics.index
    selectionReason := outcome.2
    candidates := candidates
    config := withDefaults params.config
    quotaKey := params.quotaKey
    availableCount := available.length }

section
variable {α β : Type} [LinearOrder β] (score : α → β)

theorem find?_orderedInsert (counts : α → Bool) (inserted : α) {sorted : List α} (falling : sorted.Pairwise (fun a b => score b ≤ score a)) :
    (sorted.orderedInsert (fun a b => score b ≤ score a) inserted).find? counts =
      if counts inserted then
        match sorted.find? counts with
        | none => some inserted
        | some best => if score inserted < score best then some best else some inserted
      else sorted.find? counts := by
  induction sorted with
  | nil => cases counting : counts inserted <;> simp [List.find?,counting]
  | cons head rest ih =>
    obtain ⟨below,falling⟩ := pairwise_cons.mp falling
    rw [orderedInsert_cons]
    by_cases before : score head ≤ score inserted
    · rw [if_pos before]
      cases counting : counts inserted with
      | false => rw [List.find?_cons_of_neg (by simp [counting])]; rfl
      | true =>
        rw [List.find?_cons_of_pos counting,if_pos rfl]
        cases found : (head :: rest).find? counts with
        | none => rfl
        | some best =>
          have least : score best ≤ score inserted := by
            rcases mem_cons.mp (mem_of_find?_eq_some found) with rfl | member
            · exact before
            · exact le_trans (below best member) before
          exact (if_neg (not_lt.mpr least)).symm
    · rw [if_neg before]
      cases counting : counts head with
      | true =>
        rw [List.find?_cons_of_pos counting,List.find?_cons_of_pos counting]
        have above : score inserted < score head := not_le.mp before
        split
        · exact (if_pos above).symm
        · rfl
      | false =>
        rw [List.find?_cons_of_neg (by simp [counting]),List.find?_cons_of_neg (by simp [counting]),ih falling]

theorem find?_insertionSort (counts : α → Bool) (l : List α) :
    (l.insertionSort (fun a b => score b ≤ score a)).find? counts = (l.filter counts).argmax score := by
  induction l with
  | nil => rfl
  | cons head rest ih =>
    have falling : (rest.insertionSort (fun a b => score b ≤ score a)).Pairwise (fun a b => score b ≤ score a) := by
      have : Std.Total (fun a b : α => score b ≤ score a) := ⟨fun a b => le_total (score b) (score a)⟩
      have : IsTrans α (fun a b : α => score b ≤ score a) := ⟨fun a b c first second => le_trans second first⟩
      exact pairwise_insertionSort _ rest
    rw [insertionSort_cons,find?_orderedInsert score counts head falling,ih,filter_cons]
    split
    · rw [argmax_cons]
      cases (rest.filter counts).argmax score <;> rfl
    · rfl

theorem argmax_map {γ : Type} (f : γ → α) (l : List γ) : (l.map f).argmax score = (l.argmax (fun a => score (f a))).map f := by
  induction l with
  | nil => rfl
  | cons head rest ih =>
    rw [map_cons,argmax_cons,argmax_cons,ih]
    cases rest.argmax (fun a => score (f a)) with
    | none => rfl
    | some best =>
      dsimp only [Option.map_some]
      split <;> rfl

end

variable {process params}

theorem bestAccount_eq (best : Option AccountWithMetrics) (accounts : List AccountWithMetrics) :
    bestAccount process params (best.map (fun account => (account,selectorScore process params account))) accounts =
      accounts.foldl (List.argAux (fun b c => selectorScore process params c < selectorScore process params b)) best := by
  induction accounts generalizing best with
  | nil => cases best <;> rfl
  | cons account rest ih =>
    cases best with
    | none => exact ih (some account)
    | some best =>
      show (if selectorScore process params best < selectorScore process params account then
          bestAccount process params (some (account,selectorScore process params account)) rest
        else bestAccount process params (some (best,selectorScore process params best)) rest) = _
      rw [foldl_cons]
      show _ = rest.foldl _ (if selectorScore process params best < selectorScore process params account then some account else some best)
      split
      · exact ih (some account)
      · exact ih (some best)

theorem selectHybridAccount_eq_argmax :
    selectHybridAccount process params = (availableAccounts params).argmax (selectorScore process params) := by
  unfold selectHybridAccount
  split
  case h_1 none_ => rw [none_]; rfl
  case h_2 only one => rw [one]; rfl
  case h_3 => exact bestAccount_eq none _

/-- The first available candidate of the trace is that of the first of the best accounts. -/
theorem traced_candidate :
    (sortByScore (params.accounts.map (candidate process params))).find? HybridSelectionCandidateTrace.isAvailable =
      ((availableAccounts params).argmax (selectorScore process params)).map (candidate process params) := by
  have available : (params.accounts.map (candidate process params)).filter HybridSelectionCandidateTrace.isAvailable =
      (availableAccounts params).map (candidate process params) := filter_map
  unfold sortByScore
  rw [find?_insertionSort HybridSelectionCandidateTrace.score,available,argmax_map]
  rfl

end

/-- The trace selects what the selector does, whatever the accounts, as long as no two of them
    have one index. -/
theorem traced_selected (process : Process) (params : SelectHybridAccountParams) (distinct : (params.accounts.map AccountWithMetrics.index).Nodup) :
    (selectHybridAccountTraced process params).selected = selectHybridAccount process params := by
  rw [selectHybridAccount_eq_argmax]
  unfold selectHybridAccountTraced
  dsimp only
  split
  case h_1 none_ =>
    unfold availableAccounts
    rw [none_]
    rfl
  case h_2 none_ _ => rw [none_]; rfl
  case h_3 only one _ => rw [one]; rfl
  case h_4 =>
    rw [traced_candidate]
    cases won : (availableAccounts params).argmax (selectorScore process params) with
    | none => rfl
    | some winner =>
      have member : winner ∈ params.accounts := mem_of_mem_filter (argmax_mem (Option.mem_def.mpr won))
      exact find?_of_key AccountWithMetrics.index distinct member

/-- Two accounts of the same score and one that is not available. -/
def tiedPool : SelectHybridAccountParams where
  accounts := [⟨0,none,false,none,0⟩,⟨1,none,true,none,0⟩,⟨2,none,true,none,0⟩]
  healthTracker := {}
  tokenTracker := {}

theorem tiedPool_traced : (selectHybridAccountTraced ⟨7,3600000⟩ tiedPool).selected = selectHybridAccount ⟨7,3600000⟩ tiedPool :=
  traced_selected ⟨7,3600000⟩ tiedPool (by decide)

/-- The selector takes the first of the available accounts with the highest score. -/
theorem selectHybridAccount_first_best (process : Process) (params : SelectHybridAccountParams) (best : AccountWithMetrics) :
    selectHybridAccount process params = some best ↔ best ∈ availableAccounts params ∧
      ∀ other ∈ availableAccounts params, selectorScore process params other ≤ selectorScore process params best ∧
        (selectorScore process params best ≤ selectorScore process params other →
          (availableAccounts params).idxOf best ≤ (availableAccounts params).idxOf other) := by
  rw [selectHybridAccount_eq_argmax,argmax_eq_some_iff]
  exact and_congr_right fun _ => forall₂_and.symm

end CodexMultiAuth.HybridSelection
