import Mathlib.Data.Finset.Max
import Mathlib.Data.List.Pairwise
import Mathlib.Tactic.Linarith
import CodexMultiAuth.QuotaCache

/-!
Quota observations merged in any order. The outcome depends on it where a completion
that the newest figures have outlived hides the failure that counts (`Masked`).
-/
namespace CodexMultiAuth.QuotaCache
open QuotaCacheEntry List

/-- Observations at times of their own. -/
structure Distinct (observations : List QuotaCacheEntry) : Prop where
  updated : observations.Pairwise fun one other => one.updatedAt ≠ other.updatedAt
  outcomes : observations.Pairwise fun one other => one.outcomeTime = other.outcomeTime → one.outcomeTime = ⊥

def Newest (observations : List QuotaCacheEntry) (entry : QuotaCacheEntry) : Prop :=
  entry ∈ observations ∧ ∀ other ∈ observations, other.updatedAt ≤ entry.updatedAt

/-- Both figures are no younger than the completion. -/
def Masks (completed failed : QuotaCacheEntry) : Prop :=
  completed.primingCompleted = true ∧ ((max failed.updatedAt completed.updatedAt : ℚ) : WithBot ℚ) ≤ completed.outcomeTime

/-- The failure that counts at the end is masked by a completion that does not. -/
def Masked (observations : List QuotaCacheEntry) : Prop :=
  ∃ newest failed completed, Newest observations newest ∧ failed ∈ observations ∧ completed ∈ observations ∧
    (newest.updatedAt : WithBot ℚ) ≤ failed.outcomeTime ∧
    (∀ other ∈ observations, (newest.updatedAt : WithBot ℚ) ≤ other.outcomeTime → other.outcomeTime ≤ failed.outcomeTime) ∧
    (∀ other ∈ observations, ¬ Counts newest.updatedAt other) ∧ Masks completed failed

/-- What an entry owes the observations it was merged from. -/
structure Inv (observations : List QuotaCacheEntry) (entry : QuotaCacheEntry) : Prop where
  figures : ∃ newest, Newest observations newest ∧ entry.figures = newest.figures
  source : (entry.updatedAt : WithBot ℚ) ≤ entry.outcomeTime →
    ∃ evidence ∈ observations, outcome entry = outcome evidence ∧ entry.outcomeTime = evidence.outcomeTime
  completed : ∀ other ∈ observations, Counts entry.updatedAt other → Counts entry.updatedAt entry ∧ other.outcomeTime ≤ entry.outcomeTime
  failed : (∀ other ∈ observations, ¬ Counts entry.updatedAt other) → ∀ other ∈ observations, (entry.updatedAt : WithBot ℚ) ≤ other.outcomeTime →
    other.outcomeTime ≤ entry.outcomeTime ∨ ∃ completed ∈ observations, Masks completed other

theorem updatedAt_of_figures {one other : QuotaCacheEntry} (same : one.figures = other.figures) : one.updatedAt = other.updatedAt := by
  show one.figures.updatedAt = other.figures.updatedAt
  rw [same]

variable {observations : List QuotaCacheEntry} {entry : QuotaCacheEntry}

theorem Inv.updated (inv : Inv observations entry) :
    ∀ other ∈ observations, other.updatedAt ≤ entry.updatedAt := by
  obtain ⟨newest,⟨-,latest⟩,same⟩ := inv.figures
  rw [updatedAt_of_figures same]
  exact latest

theorem inv_first (entry : QuotaCacheEntry) : Inv [entry] entry where
  figures := ⟨entry,⟨mem_cons_self,fun other member => by rw [mem_singleton.mp member]⟩,rfl⟩
  source _ := ⟨entry,mem_cons_self,rfl,rfl⟩
  completed other member counts := by
    obtain rfl := mem_singleton.mp member
    exact ⟨counts,le_refl _⟩
  failed _ other member _ := by
    rw [mem_singleton.mp member]
    exact Or.inl (le_refl _)

theorem Counts.earlier {since before : ℚ} (counts : Counts since entry) (earlier : before ≤ since) : Counts before entry :=
  ⟨counts.1,(WithBot.coe_le_coe.mpr earlier).trans counts.2⟩

section
variable {observations : List QuotaCacheEntry} {entry : QuotaCacheEntry} (inv : Inv observations entry) (update : QuotaCacheEntry)
include inv

theorem Inv.counts {since : ℚ} (later : entry.updatedAt ≤ since) (counts : Counts since entry) : ∃ other ∈ observations, Counts since other := by
  obtain ⟨evidence,member,same,time⟩ := inv.source (counts.earlier later).2
  have completed : entry.primingCompleted = evidence.primingCompleted := congrArg Outcome.completed same
  exact ⟨evidence,member,completed ▸ counts.1,time ▸ counts.2⟩

theorem Inv.merge_figures : ∃ newest, Newest (observations ++ [update]) newest ∧ (mergeQuotaCacheEntry (some entry) update).figures = newest.figures := by
  rw [(merge_some entry update).1]
  unfold newer
  split
  case isTrue later =>
    refine ⟨update,⟨mem_append_right _ mem_cons_self,fun other member => ?_⟩,rfl⟩
    rcases mem_append.mp member with before | last
    · exact (inv.updated other before).trans later
    · rw [mem_singleton.mp last]
  case isFalse earlier =>
    obtain ⟨newest,⟨among,latest⟩,same⟩ := inv.figures
    refine ⟨newest,⟨mem_append_left _ among,fun other member => ?_⟩,same⟩
    rcases mem_append.mp member with before | last
    · exact latest other before
    · rw [mem_singleton.mp last,← updatedAt_of_figures same]
      exact le_of_not_ge earlier

theorem Inv.plain (none_ : ∀ other ∈ observations ++ [update], ¬ Counts (newer entry update).updatedAt other) :
    ∀ candidate, candidate = update ∨ candidate = entry → ¬ Counts (newer entry update).updatedAt candidate := by
  have before : entry.updatedAt ≤ (newer entry update).updatedAt := by
    rw [newer_updatedAt]
    exact le_max_left _ _
  rintro candidate (rfl | rfl) holds
  · exact none_ candidate (mem_append_right _ mem_cons_self) holds
  · obtain ⟨evidence,early,also_⟩ := inv.counts before holds
    exact none_ evidence (mem_append_left _ early) also_

omit inv in
/-- An outcome that counts and is no later than the evidence is no later than what is kept. -/
theorem merge_reaches {time : WithBot ℚ} (counts : ((newer entry update).updatedAt : WithBot ℚ) ≤ time)
    (later : time ≤ (evidenceOf entry update).outcomeTime) : time ≤ (mergeQuotaCacheEntry (some entry) update).outcomeTime :=
  later.trans (merge_kept entry update (counts.trans later)).2.2.ge

theorem Inv.merge : Inv (observations ++ [update]) (mergeQuotaCacheEntry (some entry) update) := by
  have time : (mergeQuotaCacheEntry (some entry) update).updatedAt = (newer entry update).updatedAt :=
    (merge_some entry update).2.trans (newer_updatedAt entry update).symm
  have before : entry.updatedAt ≤ (newer entry update).updatedAt := by
    rw [newer_updatedAt]
    exact le_max_left _ _
  refine ⟨inv.merge_figures update,?_,?_,?_⟩
  · rw [time]
    intro counts
    have kept : ((newer entry update).updatedAt : WithBot ℚ) ≤ (evidenceOf entry update).outcomeTime := by
      by_contra outlived
      rw [merge_outlived entry update outlived,figures_outcomeTime,WithBot.le_bot_iff] at counts
      exact WithBot.coe_ne_bot counts
    obtain ⟨same,-,at_⟩ := merge_kept entry update kept
    rcases evidenceOf_cases entry update with first | second
    · rw [first] at same at_
      exact ⟨update,mem_append_right _ mem_cons_self,same,at_⟩
    · rw [second] at same at_ kept
      obtain ⟨evidence,member,alike,dated⟩ := inv.source ((WithBot.coe_le_coe.mpr before).trans kept)
      exact ⟨evidence,mem_append_left _ member,same.trans alike,at_.trans dated⟩
  · rw [time]
    intro other member counts
    obtain ⟨candidate,among,holds,later⟩ : ∃ candidate, (candidate = update ∨ candidate = entry) ∧ Counts (newer entry update).updatedAt candidate ∧
        other.outcomeTime ≤ candidate.outcomeTime := by
      rcases mem_append.mp member with early | last
      · obtain ⟨completed,later⟩ := inv.completed other early (counts.earlier before)
        exact ⟨entry,Or.inr rfl,⟨completed.1,counts.2.trans later⟩,later⟩
      · obtain rfl := mem_singleton.mp last
        exact ⟨other,Or.inl rfl,counts,le_refl _⟩
    obtain ⟨-,kept,latest⟩ := evidenceOf_completed entry update among holds
    obtain ⟨-,completed,at_⟩ := merge_kept entry update kept.2
    rw [Counts,completed,at_]
    exact ⟨kept,later.trans latest⟩
  · rw [time]
    intro none_ other member counts
    obtain ⟨-,fromEntry,fromUpdate⟩ := evidenceOf_plain entry update (inv.plain update none_)
    rcases mem_append.mp member with early | last
    · by_cases some_ : ∃ completed ∈ observations, Counts entry.updatedAt completed
      · obtain ⟨completed,among,holds⟩ := some_
        -- As long as the completion counted, it hid the failure.
        have both : max other.updatedAt completed.updatedAt ≤ entry.updatedAt := max_le (inv.updated other early) (inv.updated completed among)
        exact Or.inr ⟨completed,mem_append_left _ among,holds.1,(WithBot.coe_le_coe.mpr both).trans holds.2⟩
      · rcases inv.failed (fun completed among holds => some_ ⟨completed,among,holds⟩) other early ((WithBot.coe_le_coe.mpr before).trans counts) with
          seen | ⟨completed,among,masks⟩
        · exact Or.inl (merge_reaches update counts (seen.trans fromEntry))
        · exact Or.inr ⟨completed,mem_append_left _ among,masks⟩
    · rw [mem_singleton.mp last] at counts ⊢
      exact Or.inl (merge_reaches update counts fromUpdate)

end

theorem fold_append (observations : List QuotaCacheEntry) (update : QuotaCacheEntry) :
    fold (observations ++ [update]) = some (mergeQuotaCacheEntry (fold observations) update) := by
  rw [fold,foldl_append]
  rfl

theorem fold_inv (some_ : observations ≠ []) : ∃ entry, fold observations = some entry ∧ Inv observations entry := by
  induction observations using List.reverseRecOn with
  | nil => exact absurd rfl some_
  | append_singleton before update ih =>
    by_cases first : before = []
    · rw [first]
      exact ⟨update,rfl,inv_first update⟩
    · obtain ⟨entry,folded,inv⟩ := ih first
      exact ⟨_,by rw [fold_append,folded],inv.merge update⟩

/-- An outcome that does not count is not kept. -/
def Settled (entry : QuotaCacheEntry) : Prop :=
  entry = if (entry.updatedAt : WithBot ℚ) ≤ entry.outcomeTime then entry.figures.withOutcome entry else entry.figures

theorem withOutcome_congr {entry one other : QuotaCacheEntry} (same : outcome one = outcome other) : entry.withOutcome one = entry.withOutcome other := by
  have completed : one.primingCompleted = other.primingCompleted := congrArg Outcome.completed same
  have failure : (if one.primingCompleted then none else one.primingFailure) = if other.primingCompleted then none else other.primingFailure :=
    congrArg Outcome.failure same
  have observed : one.primingObservedAt = other.primingObservedAt := congrArg Outcome.observedAt same
  rw [withOutcome,withOutcome,failure,completed,observed]

theorem merge_settled (latest update : QuotaCacheEntry) : Settled (mergeQuotaCacheEntry (some latest) update) := by
  have time : (mergeQuotaCacheEntry (some latest) update).updatedAt = (newer latest update).updatedAt :=
    (merge_some latest update).2.trans (newer_updatedAt latest update).symm
  rw [Settled,time,(merge_some latest update).1]
  by_cases kept : ((newer latest update).updatedAt : WithBot ℚ) ≤ (evidenceOf latest update).outcomeTime
  · obtain ⟨same,-,at_⟩ := merge_kept latest update kept
    rw [at_,if_pos kept,withOutcome_congr same]
    exact if_pos kept
  · rw [merge_outlived latest update kept,figures_outcomeTime,if_neg fun counts => WithBot.coe_ne_bot (WithBot.le_bot_iff.mp counts)]

theorem fold_settled {first second : QuotaCacheEntry} {rest : List QuotaCacheEntry}
    (folded : fold (first :: second :: rest) = some entry) : Settled entry := by
  rcases eq_nil_or_concat (second :: rest) with none_ | ⟨before,update,same⟩
  · nomatch none_
  · rw [concat_eq_append] at same
    rw [same,← cons_append,fold_append] at folded
    obtain ⟨latest,there,-⟩ := fold_inv (cons_ne_nil first before)
    rw [there] at folded
    rw [← Option.some.inj folded]
    exact merge_settled latest update

theorem settled_same {one other : QuotaCacheEntry} (first : Settled one) (second : Settled other) (figures_ : one.figures = other.figures)
    (counts : (one.updatedAt : WithBot ℚ) ≤ one.outcomeTime ↔ (other.updatedAt : WithBot ℚ) ≤ other.outcomeTime)
    (outcome_ : (one.updatedAt : WithBot ℚ) ≤ one.outcomeTime → outcome one = outcome other) : one = other := by
  rw [Settled] at first second
  by_cases kept : (one.updatedAt : WithBot ℚ) ≤ one.outcomeTime
  · rw [if_pos kept] at first
    rw [if_pos (counts.mp kept)] at second
    rw [first,second,figures_,withOutcome_congr (outcome_ kept)]
  · rw [if_neg kept] at first
    rw [if_neg fun also_ => kept (counts.mpr also_)] at second
    rw [first,second,figures_]

/-! ### Orders -/

section
variable {observations : List QuotaCacheEntry} (distinct : Distinct observations)
include distinct

variable {one other : QuotaCacheEntry}

theorem Distinct.same_updated (first : one ∈ observations) (second : other ∈ observations)
    (same : one.updatedAt = other.updatedAt) : one = other := by
  have symmetric : Std.Symm fun one other : QuotaCacheEntry => one.updatedAt ≠ other.updatedAt := ⟨fun _ _ unlike => unlike.symm⟩
  by_contra differ
  exact distinct.updated.forall first second differ same

theorem Distinct.same_outcome (first : one ∈ observations) (second : other ∈ observations) {since : ℚ}
    (counts : (since : WithBot ℚ) ≤ one.outcomeTime) (same : one.outcomeTime = other.outcomeTime) : one = other := by
  have symmetric : Std.Symm fun one other : QuotaCacheEntry => one.outcomeTime = other.outcomeTime → one.outcomeTime = ⊥ :=
    ⟨fun _ _ unlike same => same.trans (unlike same.symm)⟩
  by_contra differ
  have none_ := distinct.outcomes.forall first second differ same
  rw [none_,WithBot.le_bot_iff] at counts
  exact WithBot.coe_ne_bot counts

theorem Distinct.newest_unique (first : Newest observations one) (second : Newest observations other) : one = other :=
  distinct.same_updated first.1 second.1 (le_antisymm (second.2 one first.1) (first.2 other second.1))

theorem Inv.latest {entry : QuotaCacheEntry} (inv : Inv observations entry) (unmasked : ¬ Masked observations)
    (none_ : ∀ other ∈ observations, ¬ Counts entry.updatedAt other) {failed : QuotaCacheEntry} (member : failed ∈ observations)
    (counts : (entry.updatedAt : WithBot ℚ) ≤ failed.outcomeTime)
    (latest : ∀ other ∈ observations, (entry.updatedAt : WithBot ℚ) ≤ other.outcomeTime → other.outcomeTime ≤ failed.outcomeTime) :
    outcome entry = outcome failed ∧ entry.outcomeTime = failed.outcomeTime := by
  obtain ⟨newest,isNewest,same⟩ := inv.figures
  have time := updatedAt_of_figures same
  rcases inv.failed none_ failed member counts with reached | ⟨completed,among,masks⟩
  · obtain ⟨evidence,inside,alike,dated⟩ := inv.source (counts.trans reached)
    have back := latest evidence inside (dated ▸ counts.trans reached)
    have equal : evidence.outcomeTime = failed.outcomeTime := le_antisymm back (dated ▸ reached)
    have one := distinct.same_outcome inside member (equal ▸ counts) equal
    rw [one] at alike
    exact ⟨alike,dated.trans equal⟩
  · rw [time] at counts none_ latest
    exact absurd ⟨newest,failed,completed,isNewest,member,among,counts,latest,none_,masks⟩ unmasked

theorem inv_same (unmasked : ¬ Masked observations) (first : Inv observations one) (second : Inv observations other)
    (settled : Settled one) (also_ : Settled other) : one = other := by
  obtain ⟨newest,isNewest,figured⟩ := first.figures
  obtain ⟨last,isLast,figuredToo⟩ := second.figures
  obtain rfl := distinct.newest_unique isNewest isLast
  have same : one.figures = other.figures := figured.trans figuredToo.symm
  have time : one.updatedAt = other.updatedAt := updatedAt_of_figures same
  by_cases some_ : ∃ completed ∈ observations, Counts one.updatedAt completed
  · obtain ⟨completed,member,counts⟩ := some_
    have here := (first.completed completed member counts).1
    have there := (second.completed completed member (time ▸ counts)).1
    obtain ⟨evidence,inside,alike,dated⟩ := first.source here.2
    obtain ⟨witness,within,alikeToo,datedToo⟩ := second.source there.2
    have completed_ : one.primingCompleted = evidence.primingCompleted := congrArg Outcome.completed alike
    have completedToo : other.primingCompleted = witness.primingCompleted := congrArg Outcome.completed alikeToo
    have completes : Counts one.updatedAt evidence := ⟨completed_ ▸ here.1,dated ▸ here.2⟩
    have completesToo : Counts one.updatedAt witness := ⟨completedToo ▸ there.1,by rw [time,← datedToo]; exact there.2⟩
    have below : evidence.outcomeTime ≤ witness.outcomeTime := datedToo ▸ (second.completed evidence inside (time ▸ completes)).2
    have above : witness.outcomeTime ≤ evidence.outcomeTime := dated ▸ (first.completed witness within completesToo).2
    have equal := distinct.same_outcome inside within completes.2 (le_antisymm below above)
    rw [← equal] at alikeToo
    exact settled_same settled also_ same ⟨fun _ => there.2,fun _ => here.2⟩ fun _ => alike.trans alikeToo.symm
  · have none_ : ∀ completed ∈ observations, ¬ Counts one.updatedAt completed := fun completed member counts => some_ ⟨completed,member,counts⟩
    have noneToo : ∀ completed ∈ observations, ¬ Counts other.updatedAt completed := time ▸ none_
    by_cases any_ : ∃ failed ∈ observations, (one.updatedAt : WithBot ℚ) ≤ failed.outcomeTime
    · obtain ⟨failed,member,latest⟩ := (observations.toFinset.filter fun entry => (one.updatedAt : WithBot ℚ) ≤ entry.outcomeTime).exists_max_image
        QuotaCacheEntry.outcomeTime (by
          obtain ⟨failed,member,counts⟩ := any_
          exact ⟨failed,Finset.mem_filter.mpr ⟨mem_toFinset.mpr member,counts⟩⟩)
      obtain ⟨inside,counts⟩ := Finset.mem_filter.mp member
      have latest_ : ∀ other ∈ observations, (one.updatedAt : WithBot ℚ) ≤ other.outcomeTime → other.outcomeTime ≤ failed.outcomeTime :=
        fun other within later => latest other (Finset.mem_filter.mpr ⟨mem_toFinset.mpr within,later⟩)
      obtain ⟨alike,dated⟩ := first.latest distinct unmasked none_ (mem_toFinset.mp inside) counts latest_
      obtain ⟨alikeToo,datedToo⟩ := second.latest distinct unmasked noneToo (mem_toFinset.mp inside) (time ▸ counts) (time ▸ latest_)
      refine settled_same settled also_ same ?_ fun _ => alike.trans alikeToo.symm
      rw [time,dated,datedToo]
    · have outlived : ∀ entry, Inv observations entry → entry.updatedAt = one.updatedAt → ¬ (entry.updatedAt : WithBot ℚ) ≤ entry.outcomeTime := by
        intro entry inv at_ counts
        obtain ⟨evidence,inside,-,dated⟩ := inv.source counts
        exact any_ ⟨evidence,inside,by rw [← at_,← dated]; exact counts⟩
      exact settled_same settled also_ same ⟨fun counts => absurd counts (outlived one first rfl),fun counts => absurd counts (outlived other second time.symm)⟩
        fun counts => absurd counts (outlived one first rfl)

end

variable {observations order : List QuotaCacheEntry}

theorem Inv.perm (inv : Inv order entry) (same : order.Perm observations) :
    Inv observations entry where
  figures := by
    obtain ⟨newest,⟨member,latest⟩,figured⟩ := inv.figures
    exact ⟨newest,⟨same.mem_iff.mp member,fun other inside => latest other (same.mem_iff.mpr inside)⟩,figured⟩
  source counts := by
    obtain ⟨evidence,member,alike⟩ := inv.source counts
    exact ⟨evidence,same.mem_iff.mp member,alike⟩
  completed other member := inv.completed other (same.mem_iff.mpr member)
  failed none_ other member counts := by
    rcases inv.failed (fun completed inside => none_ completed (same.mem_iff.mp inside)) other (same.mem_iff.mpr member) counts with
      reached | ⟨completed,inside,masks⟩
    · exact Or.inl reached
    · exact Or.inr ⟨completed,same.mem_iff.mp inside,masks⟩

theorem fold_perm (distinct : Distinct observations) (unmasked : ¬ Masked observations)
    (same : order.Perm observations) : fold order = fold observations := by
  match observations,same with
  | [],same => rw [same.eq_nil]
  | [entry],same => rw [perm_singleton.mp same]
  | first :: second :: rest,same =>
    match order,same with
    | [],same => exact absurd same.symm.eq_nil (cons_ne_nil _ _)
    | [entry],same => exact absurd same.length_eq (by simp)
    | one :: other :: others,same =>
      obtain ⟨before,folded,inv⟩ := fold_inv (cons_ne_nil one (other :: others))
      obtain ⟨after,foldedToo,invToo⟩ := fold_inv (cons_ne_nil first (second :: rest))
      rw [folded,foldedToo,inv_same distinct unmasked (inv.perm same) invToo (fold_settled folded) (fold_settled foldedToo)]

theorem fold_figures (distinct : Distinct observations) (same : order.Perm observations)
    {newest : QuotaCacheEntry} (isNewest : Newest observations newest) : (fold order).map figures = some newest.figures := by
  have some_ : order ≠ [] := by
    rintro rfl
    rw [same.symm.eq_nil] at isNewest
    nomatch isNewest.1
  obtain ⟨entry,folded,inv⟩ := fold_inv some_
  obtain ⟨last,isLast,figured⟩ := (inv.perm same).figures
  rw [folded,Option.map_some,figured,distinct.newest_unique isLast isNewest]

theorem merge_forgets (latest update : QuotaCacheEntry) {time : WithBot ℚ} (some_ : time ≠ ⊥) (before : latest.outcomeTime ≠ time)
    (now : update.outcomeTime ≠ time) : (mergeQuotaCacheEntry (some latest) update).outcomeTime ≠ time := by
  by_cases kept : ((newer latest update).updatedAt : WithBot ℚ) ≤ (evidenceOf latest update).outcomeTime
  · rw [(merge_kept latest update kept).2.2]
    rcases evidenceOf_cases latest update with first | second
    · rwa [first]
    · rwa [second]
  · rw [merge_outlived latest update kept,figures_outcomeTime]
    exact some_.symm

theorem fold_forgets {first : QuotaCacheEntry} {time : WithBot ℚ} (some_ : time ≠ ⊥) (before : first.outcomeTime ≠ time) (rest : List QuotaCacheEntry)
    (others : ∀ other ∈ rest, other.outcomeTime ≠ time) :
    ∃ entry, rest.foldl (fun latest update => some (mergeQuotaCacheEntry latest update)) (some first) = some entry ∧ entry.outcomeTime ≠ time := by
  induction rest generalizing first with
  | nil => exact ⟨first,rfl,before⟩
  | cons update rest ih =>
    exact ih (merge_forgets first update some_ before (others update mem_cons_self)) fun other member => others other (mem_cons_of_mem _ member)

theorem merge_masked {completed failed : QuotaCacheEntry} (plain : failed.primingCompleted = false) (masks : Masks completed failed) :
    (mergeQuotaCacheEntry (some completed) failed).outcomeTime = completed.outcomeTime := by
  have counts : Counts (newer completed failed).updatedAt completed := by
    rw [newer_updatedAt,max_comm]
    exact masks
  obtain ⟨among,holds,-⟩ := evidenceOf_completed completed failed (Or.inr rfl) counts
  rw [(merge_kept completed failed holds.2).2.2]
  rcases among with first | second
  · rw [first] at holds
    exact absurd holds.1 (by simp [plain])
  · rw [second]

theorem merge_last {before : List QuotaCacheEntry} {failed newest : QuotaCacheEntry} (isNewest : Newest (before ++ [failed]) newest)
    (counts : (newest.updatedAt : WithBot ℚ) ≤ failed.outcomeTime)
    (latest : ∀ other ∈ before ++ [failed], (newest.updatedAt : WithBot ℚ) ≤ other.outcomeTime → other.outcomeTime ≤ failed.outcomeTime)
    (none_ : ∀ other ∈ before ++ [failed], ¬ Counts newest.updatedAt other) (some_ : before ≠ []) :
    ∃ entry, fold (before ++ [failed]) = some entry ∧ entry.outcomeTime = failed.outcomeTime := by
  obtain ⟨entry,folded,inv⟩ := fold_inv some_
  have merged := inv.merge failed
  have time : (newer entry failed).updatedAt = newest.updatedAt := by
    obtain ⟨last,isLast,figured⟩ := merged.figures
    rw [newer_updatedAt,← (merge_some entry failed).2,updatedAt_of_figures figured]
    exact le_antisymm (isNewest.2 last isLast.1) (isLast.2 newest isNewest.1)
  have timed : (mergeQuotaCacheEntry (some entry) failed).updatedAt = newest.updatedAt :=
    ((merge_some entry failed).2.trans (newer_updatedAt entry failed).symm).trans time
  obtain ⟨-,-,reached⟩ := evidenceOf_plain entry failed (inv.plain failed (time ▸ none_))
  have above := merge_reaches failed (time ▸ counts) reached
  obtain ⟨evidence,inside,-,dated⟩ := merged.source (by rw [timed]; exact counts.trans above)
  refine ⟨_,by rw [fold_append,folded],le_antisymm ?_ above⟩
  rw [dated] at above ⊢
  exact latest evidence inside (counts.trans above)

theorem Distinct.perm (distinct : Distinct observations) (same : observations.Perm order) : Distinct order where
  updated := distinct.updated.perm same fun unlike => unlike.symm
  outcomes := distinct.outcomes.perm same fun unlike same => same.trans (unlike same.symm)

theorem masked_differs (distinct : Distinct observations) (masked : Masked observations) :
    ∃ one other, one.Perm observations ∧ other.Perm observations ∧ fold one ≠ fold other := by
  obtain ⟨newest,failed,completed,isNewest,member,among,counts,latest,none_,masks⟩ := masked
  have plain : failed.primingCompleted = false := by
    by_contra completes
    exact none_ failed member ⟨Bool.not_eq_false _ ▸ completes,counts⟩
  have differ : failed ≠ completed := by
    rintro rfl
    exact Bool.false_ne_true (plain.symm.trans masks.1)
  have inside : failed ∈ observations.erase completed := (mem_erase_of_ne differ).mpr member
  obtain ⟨rest,same⟩ : ∃ rest, observations.Perm (completed :: failed :: rest) :=
    ⟨_,(perm_cons_erase among).trans ((perm_cons_erase inside).cons completed)⟩
  have turned : ((completed :: rest) ++ [failed]).Perm observations :=
    ((perm_append_singleton failed rest).cons completed).trans same.symm
  refine ⟨completed :: failed :: rest,(completed :: rest) ++ [failed],same.symm,turned,?_⟩
  have some_ : failed.outcomeTime ≠ ⊥ := fun none_ => by
    rw [none_,WithBot.le_bot_iff] at counts
    exact WithBot.coe_ne_bot counts
  have apart := distinct.perm same
  have unlike : completed.outcomeTime ≠ failed.outcomeTime := fun equal =>
    some_ (equal ▸ rel_of_pairwise_cons apart.outcomes mem_cons_self equal)
  have others : ∀ other ∈ rest, other.outcomeTime ≠ failed.outcomeTime := fun other later equal =>
    some_ (rel_of_pairwise_cons apart.outcomes.of_cons later equal.symm)
  obtain ⟨lost,foldedLost,forgotten⟩ := fold_forgets some_ ((merge_masked plain masks).symm ▸ unlike) rest others
  obtain ⟨told,foldedTold,remembered⟩ := merge_last
    ⟨turned.mem_iff.mpr isNewest.1,fun other inside => isNewest.2 other (turned.mem_iff.mp inside)⟩ counts
    (fun other inside => latest other (turned.mem_iff.mp inside)) (fun other inside => none_ other (turned.mem_iff.mp inside))
    (cons_ne_nil completed rest)
  intro equal
  have joined : fold (completed :: failed :: rest) = some lost := foldedLost
  rw [joined,foldedTold] at equal
  obtain rfl := Option.some.inj equal
  exact forgotten remembered

/-- All orders fold to one entry, with the figures of the newest observation. -/
def OrderFree (observations : List QuotaCacheEntry) : Prop :=
  ∀ order : List QuotaCacheEntry,order.Perm observations →
    fold order = fold observations ∧ ∀ newest, Newest observations newest → (fold order).map figures = some newest.figures

theorem merged_in_any_order (observations : List QuotaCacheEntry) (distinct : Distinct observations) : OrderFree observations ↔ ¬ Masked observations := by
  constructor
  · intro free masked
    obtain ⟨one,other,same,also_,differ⟩ := masked_differs distinct masked
    exact differ ((free one same).1.trans (free other also_).1.symm)
  · intro unmasked order same
    exact ⟨fold_perm distinct unmasked same,fun newest isNewest => fold_figures distinct same isNewest⟩

def observedAt (time : ℚ) : QuotaCacheEntry where
  ordinaryUsageAllowed := none
  ordinaryUsageCheckedAt := none
  primingCompleted := false
  primingObservedAt := none
  primingFailure := none
  updatedAt := time
  status := 200
  model := "gpt-5-codex"
  planType := none
  primary := ⟨some 40,some 300,none⟩
  secondary := ⟨none,none,none⟩

def completedAt (time outcome : ℚ) : QuotaCacheEntry := { observedAt time with primingCompleted := true,primingObservedAt := some outcome }

def failedAt (time outcome : ℚ) : QuotaCacheEntry := { observedAt time with primingFailure := some .timedOut,primingObservedAt := some outcome }

@[simp] theorem observed_updatedAt (time : ℚ) : (observedAt time).updatedAt = time := rfl

variable (time outcome : ℚ)

@[simp] theorem completed_updatedAt : (completedAt time outcome).updatedAt = time := rfl

@[simp] theorem failed_updatedAt : (failedAt time outcome).updatedAt = time := rfl

@[simp] theorem observed_outcomeTime (time : ℚ) : (observedAt time).outcomeTime = ⊥ := rfl

@[simp] theorem completed_outcomeTime : (completedAt time outcome).outcomeTime = (outcome : WithBot ℚ) := rfl

@[simp] theorem failed_outcomeTime : (failedAt time outcome).outcomeTime = (outcome : WithBot ℚ) := rfl

/-- A completion at 1, seen at 3, a failure at 4, seen at 5, and plain figures at 2. -/
theorem outcomes_and_figures_in_any_order : OrderFree [completedAt 1 3,failedAt 4 5,observedAt 2] := by
  refine (merged_in_any_order _ ⟨by simp,by simp⟩).mpr ?_
  rintro ⟨newest,failed,completed,⟨-,latest⟩,among,done,counts,-,-,finished,masks⟩
  have four : 4 ≤ newest.updatedAt := latest (failedAt 4 5) (by simp)
  have three : completed.outcomeTime = (3 : ℚ) := by
    rcases mem_cons.mp done with rfl | rest
    · rfl
    · rcases mem_pair.mp rest with rfl | rfl <;> cases finished
  rw [three,WithBot.coe_le_coe] at masks
  rcases mem_cons.mp among with rfl | rest
  · rw [completed_outcomeTime,WithBot.coe_le_coe] at counts
    linarith
  · rcases mem_pair.mp rest with rfl | rfl
    · linarith [le_max_left (failedAt 4 5).updatedAt completed.updatedAt,failed_updatedAt 4 5]
    · simp at counts

/-- A completion at 1, seen at 3, a failure at 2, seen at 6, and plain figures at 5. -/
theorem outlived_completion_hides_a_failure :
    ¬ ∀ observations : List QuotaCacheEntry,Distinct observations → OrderFree observations := by
  intro free
  have distinct : Distinct [completedAt 1 3,failedAt 2 6,observedAt 5] := ⟨by simp,by simp⟩
  have masked : Masked [completedAt 1 3,failedAt 2 6,observedAt 5] := by
    refine ⟨observedAt 5,failedAt 2 6,completedAt 1 3,⟨by simp,?_⟩,by simp,by simp,?_,?_,?_,rfl,?_⟩
    · norm_num
    · rw [observed_updatedAt,failed_outcomeTime,WithBot.coe_le_coe]
      norm_num
    · simp only [forall_mem_cons,observed_updatedAt,completed_outcomeTime,failed_outcomeTime,observed_outcomeTime,WithBot.coe_le_coe]
      norm_num
    · simp only [forall_mem_cons,Counts,observed_updatedAt,completed_outcomeTime,failed_outcomeTime,observed_outcomeTime,WithBot.coe_le_coe]
      exact ⟨by norm_num,fun counts => Bool.false_ne_true counts.1,fun counts => Bool.false_ne_true counts.1,by simp⟩
    · rw [completed_updatedAt,failed_updatedAt,completed_outcomeTime,WithBot.coe_le_coe]
      norm_num
  obtain ⟨one,other,same,also_,differ⟩ := masked_differs distinct masked
  exact differ ((free _ distinct one same).1.trans (free _ distinct other also_).1.symm)

end CodexMultiAuth.QuotaCache
