import Mathlib.Algebra.Order.Ring.Rat
import Mathlib.Order.WithBot

/-!
Merging quota observations of one account. The figures are those of the newer observation;
the outcome of a first use is dated on its own, and counts as long as no newer figures have
come after it.
-/
namespace CodexMultiAuth.QuotaCache

structure QuotaCacheWindow where
  usedPercent : Option ℚ
  windowMinutes : Option ℚ
  resetAtMs : Option ℚ
  deriving DecidableEq

inductive PrimingFailure where
  | timedOut
  | streamEndedEarly
  | upstreamFailed
  | responseTooLarge
  | networkError
  deriving DecidableEq

structure QuotaCacheEntry where
  ordinaryUsageAllowed : Option (Option Bool)
  ordinaryUsageCheckedAt : Option ℚ
  primingCompleted : Bool
  primingObservedAt : Option ℚ
  primingFailure : Option PrimingFailure
  updatedAt : ℚ
  status : ℚ
  model : String
  planType : Option String
  primary : QuotaCacheWindow
  secondary : QuotaCacheWindow
  deriving DecidableEq

namespace QuotaCacheEntry

def primed (entry : QuotaCacheEntry) : Bool := entry.primingCompleted || entry.primingFailure.isSome

/-- When the outcome was observed; before all times without one. -/
def outcomeTime (entry : QuotaCacheEntry) : WithBot ℚ :=
  if entry.primed then ((entry.primingObservedAt.getD entry.updatedAt : ℚ) : WithBot ℚ) else ⊥

def figures (entry : QuotaCacheEntry) : QuotaCacheEntry :=
  { entry with primingCompleted := false,primingFailure := none,primingObservedAt := none }

/-- The figures with the outcome of another entry. -/
def withOutcome (entry evidence : QuotaCacheEntry) : QuotaCacheEntry :=
  { entry with
    primingCompleted := evidence.primingCompleted
    primingFailure := if evidence.primingCompleted then none else evidence.primingFailure
    primingObservedAt := evidence.primingObservedAt }

end QuotaCacheEntry

open QuotaCacheEntry

def newer (latest update : QuotaCacheEntry) : QuotaCacheEntry := if latest.updatedAt ≤ update.updatedAt then update else latest

/-- The later completion that the figures have not outlived. -/
def completionOf (latest update : QuotaCacheEntry) : Option QuotaCacheEntry :=
  (([update,latest].filter fun entry => entry.primingCompleted && decide (((newer latest update).updatedAt : WithBot ℚ) ≤ entry.outcomeTime)).mergeSort
    fun one other => decide (other.outcomeTime ≤ one.outcomeTime)).head?

/-- A failure does not undo a completion. -/
def evidenceOf (latest update : QuotaCacheEntry) : QuotaCacheEntry :=
  (completionOf latest update).getD (if latest.outcomeTime ≤ update.outcomeTime then update else latest)

def mergeQuotaCacheEntry (latest : Option QuotaCacheEntry) (update : QuotaCacheEntry) : QuotaCacheEntry :=
  match latest with
  | none => update
  | some latest =>
    let quota := newer latest update
    let evidence := evidenceOf latest update
    if (quota.updatedAt : WithBot ℚ) ≤ evidence.outcomeTime then quota.figures.withOutcome evidence else quota.figures

def fold (observations : List QuotaCacheEntry) : Option QuotaCacheEntry :=
  observations.foldl (fun latest update => some (mergeQuotaCacheEntry latest update)) none

section
variable (latest update : QuotaCacheEntry)

theorem newer_updatedAt : (newer latest update).updatedAt = max latest.updatedAt update.updatedAt := by
  unfold newer
  split
  case isTrue later => exact (max_eq_right later).symm
  case isFalse earlier => exact (max_eq_left (le_of_not_ge earlier)).symm

def Counts (since : ℚ) (entry : QuotaCacheEntry) : Prop := entry.primingCompleted = true ∧ (since : WithBot ℚ) ≤ entry.outcomeTime

variable {entry : QuotaCacheEntry}

theorem mem_completions {since : ℚ} :
    entry ∈ ([update,latest].filter fun entry => entry.primingCompleted && decide ((since : WithBot ℚ) ≤ entry.outcomeTime)) ↔
      (entry = update ∨ entry = latest) ∧ Counts since entry := by
  rw [List.mem_filter,List.mem_cons,List.mem_singleton,Bool.and_eq_true,decide_eq_true_eq]
  exact Iff.rfl

theorem evidenceOf_completed (among : entry = update ∨ entry = latest)
    (counts : Counts (newer latest update).updatedAt entry) :
    (evidenceOf latest update = update ∨ evidenceOf latest update = latest) ∧ Counts (newer latest update).updatedAt (evidenceOf latest update) ∧
      entry.outcomeTime ≤ (evidenceOf latest update).outcomeTime := by
  have sorted := @List.pairwise_mergeSort _ (fun one other : QuotaCacheEntry => decide (other.outcomeTime ≤ one.outcomeTime))
    (fun _ _ _ first second => decide_eq_true ((of_decide_eq_true second).trans (of_decide_eq_true first)))
    (fun one other => by
      rcases le_total other.outcomeTime one.outcomeTime with less | more
      · rw [decide_eq_true less,Bool.true_or]
      · rw [decide_eq_true more,Bool.or_true])
    ([update,latest].filter fun entry => entry.primingCompleted && decide (((newer latest update).updatedAt : WithBot ℚ) ≤ entry.outcomeTime))
  have member := (@List.mem_mergeSort _ (fun one other : QuotaCacheEntry => decide (other.outcomeTime ≤ one.outcomeTime)) _ _).mpr
    ((mem_completions latest update).mpr ⟨among,counts⟩)
  unfold evidenceOf completionOf
  cases list : List.mergeSort ([update,latest].filter fun entry =>
      entry.primingCompleted && decide (((newer latest update).updatedAt : WithBot ℚ) ≤ entry.outcomeTime))
      fun one other => decide (other.outcomeTime ≤ one.outcomeTime) with
  | nil =>
    rw [list] at member
    nomatch member
  | cons first rest =>
    rw [list] at member sorted
    obtain ⟨one,holds⟩ := (mem_completions latest update).mp (List.mem_mergeSort.mp (list ▸ List.mem_cons_self : first ∈ _))
    refine ⟨one,holds,?_⟩
    rcases List.mem_cons.mp member with rfl | later
    · exact le_refl _
    · exact of_decide_eq_true (List.rel_of_pairwise_cons sorted later)

theorem evidenceOf_plain (none_ : ∀ entry, entry = update ∨ entry = latest → ¬ Counts (newer latest update).updatedAt entry) :
    (evidenceOf latest update = update ∨ evidenceOf latest update = latest) ∧
      latest.outcomeTime ≤ (evidenceOf latest update).outcomeTime ∧ update.outcomeTime ≤ (evidenceOf latest update).outcomeTime := by
  have empty : ([update,latest].filter fun entry =>
      entry.primingCompleted && decide (((newer latest update).updatedAt : WithBot ℚ) ≤ entry.outcomeTime)) = [] := by
    refine List.eq_nil_iff_forall_not_mem.mpr fun entry member => ?_
    obtain ⟨among,counts⟩ := (mem_completions latest update).mp member
    exact none_ entry among counts
  unfold evidenceOf completionOf
  rw [empty,List.mergeSort_nil,List.head?_nil,Option.getD_none]
  split
  case isTrue later => exact ⟨Or.inl rfl,later,le_refl _⟩
  case isFalse earlier => exact ⟨Or.inr rfl,le_refl _,le_of_not_ge earlier⟩

theorem evidenceOf_cases : evidenceOf latest update = update ∨ evidenceOf latest update = latest := by
  by_cases some_ : ∃ entry, (entry = update ∨ entry = latest) ∧ Counts (newer latest update).updatedAt entry
  · obtain ⟨entry,among,counts⟩ := some_
    exact (evidenceOf_completed latest update among counts).1
  · exact (evidenceOf_plain latest update fun entry among counts => some_ ⟨entry,among,counts⟩).1

/-- What an entry says of a first use. -/
structure Outcome where
  completed : Bool
  failure : Option PrimingFailure
  observedAt : Option ℚ
  deriving DecidableEq

def outcome (entry : QuotaCacheEntry) : Outcome where
  completed := entry.primingCompleted
  failure := if entry.primingCompleted then none else entry.primingFailure
  observedAt := entry.primingObservedAt

/-- A merge takes the newer figures, and the outcome of the evidence unless they outlived it. -/
theorem merge_some :
    (mergeQuotaCacheEntry (some latest) update).figures = (newer latest update).figures ∧
      (mergeQuotaCacheEntry (some latest) update).updatedAt = max latest.updatedAt update.updatedAt := by
  rw [mergeQuotaCacheEntry]
  split
  all_goals exact ⟨rfl,newer_updatedAt latest update⟩

theorem merge_outlived (outlived : ¬ ((newer latest update).updatedAt : WithBot ℚ) ≤ (evidenceOf latest update).outcomeTime) :
    mergeQuotaCacheEntry (some latest) update = (newer latest update).figures := if_neg outlived

theorem figures_outcomeTime (entry : QuotaCacheEntry) : entry.figures.outcomeTime = ⊥ := if_neg Bool.false_ne_true

theorem outcomeTime_primed (primed : entry.primed = true) :
    entry.outcomeTime = ((entry.primingObservedAt.getD entry.updatedAt : ℚ) : WithBot ℚ) := if_pos primed

theorem primed_of_le {since : ℚ} (counts : (since : WithBot ℚ) ≤ entry.outcomeTime) : entry.primed = true := by
  by_contra plain
  rw [outcomeTime,if_neg plain,WithBot.le_bot_iff] at counts
  exact WithBot.coe_ne_bot counts

theorem merge_kept (kept : ((newer latest update).updatedAt : WithBot ℚ) ≤ (evidenceOf latest update).outcomeTime) :
    outcome (mergeQuotaCacheEntry (some latest) update) = outcome (evidenceOf latest update) ∧
      (mergeQuotaCacheEntry (some latest) update).primingCompleted = (evidenceOf latest update).primingCompleted ∧
      (mergeQuotaCacheEntry (some latest) update).outcomeTime = (evidenceOf latest update).outcomeTime := by
  have merged : mergeQuotaCacheEntry (some latest) update = (newer latest update).figures.withOutcome (evidenceOf latest update) := if_pos kept
  have primed := primed_of_le kept
  have same : ((newer latest update).figures.withOutcome (evidenceOf latest update)).primed = true := by
    rw [QuotaCacheEntry.primed] at primed ⊢
    cases completed : (evidenceOf latest update).primingCompleted with
    | true => simp [withOutcome,completed]
    | false =>
      rw [completed] at primed
      simpa [withOutcome,completed] using primed
  rw [merged]
  refine ⟨?_,rfl,?_⟩
  · cases completed : (evidenceOf latest update).primingCompleted <;> simp [outcome,withOutcome,completed]
  · rw [outcomeTime_primed same,outcomeTime_primed primed]
    cases observed : (evidenceOf latest update).primingObservedAt with
    | some time => simp [withOutcome,observed]
    | none =>
      rw [outcomeTime_primed primed,observed,WithBot.coe_le_coe,Option.getD_none,newer_updatedAt] at kept
      have below : (evidenceOf latest update).updatedAt ≤ max latest.updatedAt update.updatedAt := by
        rcases evidenceOf_cases latest update with first | second
        · rw [first]; exact le_max_right _ _
        · rw [second]; exact le_max_left _ _
      have equal : (newer latest update).updatedAt = (evidenceOf latest update).updatedAt := (newer_updatedAt latest update).trans (le_antisymm kept below)
      simp [withOutcome,observed,figures,equal]

end
end CodexMultiAuth.QuotaCache
