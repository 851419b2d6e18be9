import CodexMultiAuth.SelectionLimits
import CodexMultiAuth.Runs
import Mathlib.Tactic.Linarith

/-!
Every local deadline is that of a loaded or recorded entry and at most an hour
after it, and a selection clears only what was there before it was observed. The
invariant says for each account where its deadlines and its unsequenced limits
come from.
-/
namespace CodexMultiAuth.SelectionLimits
open List OrderedMap
set_option linter.unusedSectionVars false

section
variable (resetAt : ℚ)

def raiseAll (keys : List QuotaKey) (limits : OrderedMap QuotaKey ℚ) : OrderedMap QuotaKey ℚ :=
  keys.foldl (fun limits key => raiseDeadline limits key resetAt) limits

theorem find_raiseAll (keys : List QuotaKey) (limits : OrderedMap QuotaKey ℚ) (key : QuotaKey) :
    (raiseAll resetAt keys limits).find key =
      if key ∈ keys then some (max ((limits.find key).getD 0) resetAt) else limits.find key := by
  unfold raiseAll
  induction keys generalizing limits with
  | nil => simp
  | cons first rest ih =>
    rw [foldl_cons,ih]
    simp only [raiseDeadline,find_put,mem_cons]
    by_cases here : first = key
    · subst here
      simp
    · simp [here,Ne.symm here]

theorem mem_raiseAll {keys : List QuotaKey} {limits : OrderedMap QuotaKey ℚ} {entry : QuotaKey × ℚ} (positive : 0 ≤ resetAt)
    (member : entry ∈ raiseAll resetAt keys limits) : entry ∈ limits ∨ entry.1 ∈ keys ∧ entry.2 = resetAt := by
  unfold raiseAll at member
  induction keys generalizing limits with
  | nil => exact .inl member
  | cons first rest ih =>
    rw [foldl_cons] at member
    rcases ih member with raised | ⟨among,same⟩
    · rcases mem_put raised with old | new
      · exact .inl old
      · subst new
        cases found : limits.find first with
        | none => exact .inr ⟨mem_cons_self,by simp [positive]⟩
        | some deadline =>
          rcases le_total resetAt deadline with later | sooner
          · left
            simpa [later] using mem_of_find found
          · exact .inr ⟨mem_cons_self,by simp [sooner]⟩
    · exact .inr ⟨mem_cons_of_mem _ among,same⟩

theorem nodup_raiseAll {keys : List QuotaKey} {limits : OrderedMap QuotaKey ℚ} (distinct : limits.keys.Nodup) :
    (raiseAll resetAt keys limits).keys.Nodup := by
  unfold raiseAll
  induction keys generalizing limits with
  | nil => exact distinct
  | cons first rest ih => exact ih (nodup_put distinct _ _)
end

theorem retryTime_bounds (retryAfterMs : ℚ) : 0 ≤ retryTime retryAfterMs ∧ retryTime retryAfterMs ≤ RATE_LIMIT_CACHE_TTL_MS := by
  refine ⟨le_min (le_max_left _ _) ?_,min_le_right _ _⟩
  norm_num [RATE_LIMIT_CACHE_TTL_MS]

theorem recordLimits_limits (account : LimitedAccount) (carried : OrderedMap QuotaKey ℚ) (rejectionSequence : Nat) (rejected : Rejected)
    (now : ℚ) :
    (recordLimits account carried rejectionSequence rejected.retryAfterMs rejected.family rejected.reason rejected.model rejected.scopeId
        rejected.observation now).account.rateLimitResetTimes = raiseAll (rejected.resetAt now) rejected.keys account.rateLimitResetTimes ∧
      (recordLimits account carried rejectionSequence rejected.retryAfterMs rejected.family rejected.reason rejected.model rejected.scopeId
        rejected.observation now).newLimits = raiseAll (rejected.resetAt now) rejected.keys carried := by
  have general : ∀ keys : List String, ∀ limiting : Limiting,
      (keys.foldl (limitKey rejected.scopeId rejected.observation now (rejected.resetAt now) rejected.reason)
          limiting).account.rateLimitResetTimes =
        raiseAll (rejected.resetAt now) (keys.map (deadlineKey rejected.observation)) limiting.account.rateLimitResetTimes ∧
      (keys.foldl (limitKey rejected.scopeId rejected.observation now (rejected.resetAt now) rejected.reason) limiting).newLimits =
        raiseAll (rejected.resetAt now) (keys.map (deadlineKey rejected.observation)) limiting.newLimits := by
    intro keys
    induction keys with
    | nil => exact fun limiting => ⟨rfl,rfl⟩
    | cons key rest ih => exact fun limiting => ih (limitKey rejected.scopeId rejected.observation now (rejected.resetAt now)
        rejected.reason limiting key)
  exact general _ ⟨account,carried,rejectionSequence⟩

/-- The entry that a rejection carries over. -/
def carriedLimits (tracked : TrackedAccount) (now : ℚ) : OrderedMap QuotaKey ℚ :=
  ((replayable tracked.unsequenced now).map UnsequencedRateLimit.limits).getD []

/-- What a recording makes of its account. -/
def markAccount (rejectionSequence : Nat) (rejected : Rejected) (readable : Bool) (now : ℚ) (tracked : TrackedAccount) : TrackedAccount :=
  let recorded := recordLimits tracked.account (carriedLimits tracked now) rejectionSequence rejected.retryAfterMs rejected.family
    rejected.reason rejected.model rejected.scopeId rejected.observation now
  { account := recorded.account
    unsequenced := if readable then none else some { limits := recorded.newLimits,reason := rejected.reason,recordedAtMs := now } }

def recorded (s : State) (rejected : Rejected) (readable : Bool) (now : ℚ) : State :=
  let entries := rejected.entries now s.manager.affinityGeneration
  { s with
    manager := { s.manager with
      accounts := s.manager.accounts.modify rejected.position (markAccount s.rejectionSequence rejected readable now) }
    clock := now
    rejectionSequence := s.rejectionSequence + rejected.keys.length
    entries := s.entries ++ entries
    unordered := if readable then s.unordered.filter (fun entry => decide (entry.position ≠ rejected.position))
      else s.unordered ++ entries }

/-- The state when the selection was observed, or could not be. -/
def observed (s : State) (selection : Option SelectionMeta) (now : ℚ) : State :=
  match selection with
  | some selection => observe s now selection
  | none => { s with clock := now }

theorem mark_eq (s : State) (rejected : Rejected) (selection : Option SelectionMeta) (now : ℚ) :
    mark s rejected selection now = recorded (observed s selection now) rejected selection.isSome now := by
  cases selection <;> rfl

theorem markAccount_limits (rejectionSequence : Nat) (rejected : Rejected) (readable : Bool) (now : ℚ) (tracked : TrackedAccount) :
    (markAccount rejectionSequence rejected readable now tracked).account.rateLimitResetTimes =
      raiseAll (rejected.resetAt now) rejected.keys tracked.account.rateLimitResetTimes :=
  (recordLimits_limits _ _ _ _ _).1

theorem markAccount_unsequenced (rejectionSequence : Nat) (rejected : Rejected) (readable : Bool) (now : ℚ) (tracked : TrackedAccount) :
    (markAccount rejectionSequence rejected readable now tracked).unsequenced =
      if readable then none
      else some ⟨raiseAll (rejected.resetAt now) rejected.keys (carriedLimits tracked now),rejected.reason,now⟩ := by
  have limits := (recordLimits_limits tracked.account (carriedLimits tracked now) rejectionSequence rejected now).2
  unfold markAccount
  simp only
  rw [limits]

/-- The deadlines of an account are entries, its unsequenced limits are unordered
    entries of their time, and every unordered entry that is recent is among them. -/
structure Sourced (s : State) (position : Nat) (tracked : TrackedAccount) : Prop where
  limits : ∀ limit ∈ tracked.account.rateLimitResetTimes, ∃ entry ∈ s.entries,
    entry.position = position ∧ entry.key = limit.1 ∧ entry.deadline = limit.2
  distinct : ∀ pending, tracked.unsequenced = some pending → pending.limits.keys.Nodup
  buffered : ∀ pending, tracked.unsequenced = some pending → ∀ key deadline, pending.limits.find key = some deadline →
    ∃ entry ∈ s.unordered, entry.position = position ∧ entry.key = key ∧ entry.deadline = deadline ∧ entry.time = pending.recordedAtMs
  kept : ∀ entry ∈ s.unordered, entry.position = position → UNSEQUENCED_RATE_LIMIT_TTL_MS < s.clock - entry.time ∨
    ∃ pending, tracked.unsequenced = some pending ∧ entry.time ≤ pending.recordedAtMs ∧
      ∃ deadline, pending.limits.find entry.key = some deadline ∧ entry.deadline ≤ deadline

structure Inv (s : State) : Prop where
  clock : 0 ≤ s.clock
  accounts : ∀ position tracked, s.manager.accounts[position]? = some tracked → Sourced s position tracked
  dated : ∀ entry ∈ s.entries, entry.time ≤ s.clock ∧ entry.deadline ≤ entry.time + RATE_LIMIT_CACHE_TTL_MS ∧
    entry.generation ≤ s.manager.affinityGeneration
  unordered : ∀ entry ∈ s.unordered, entry ∈ s.entries
  once : s.applied.Nodup
  behind : ∀ generation ∈ s.applied, generation ≤ s.manager.affinityGeneration

theorem getElem_modify_eq_some {α : Type} {l : List α} {index position : Nat} {f : α → α} {after : α}
    (found : (l.modify index f)[position]? = some after) :
    ∃ before, l[position]? = some before ∧ after = if index = position then f before else before := by
  rw [List.getElem?_modify] at found
  obtain ⟨before,here,same⟩ := Option.map_eq_some_iff.mp found
  exact ⟨before,here,same.symm⟩

/-! ### An observed selection -/

variable {now : ℚ}

theorem replayable_eq_some {pending : Option UnsequencedRateLimit} {entry : UnsequencedRateLimit} :
    replayable pending now = some entry ↔ pending = some entry ∧ now - entry.recordedAtMs ≤ UNSEQUENCED_RATE_LIMIT_TTL_MS := by
  simp [replayable,Option.filter_eq_some_iff]

variable {s : State} {tracked : TrackedAccount}
variable {position : Nat}

theorem Sourced.later (sourced : Sourced s position tracked)
    (forward : s.clock ≤ now) : Sourced { s with clock := now } position tracked := by
  refine ⟨sourced.limits,sourced.distinct,sourced.buffered,?_⟩
  intro entry member here
  rcases sourced.kept entry member here with old | buffered
  · left
    simp only
    linarith
  · exact .inr buffered

theorem Inv.later (inv : Inv s) (forward : s.clock ≤ now) : Inv { s with clock := now } where
  clock := le_trans inv.clock forward
  accounts position tracked found := (inv.accounts position tracked found).later forward
  dated entry member := ⟨le_trans (inv.dated entry member).1 forward,(inv.dated entry member).2⟩
  unordered := inv.unordered
  once := inv.once
  behind := inv.behind

/-- An unordered entry that is still recent is among the unsequenced limits that are replayed. -/
theorem Sourced.replays (sourced : Sourced s position tracked)
    (forward : s.clock ≤ now) {entry : Entry} (member : entry ∈ s.unordered) (here : entry.position = position)
    (recent : now - entry.time ≤ UNSEQUENCED_RATE_LIMIT_TTL_MS) :
    ∃ deadline, (carriedLimits tracked now).find entry.key = some deadline ∧ entry.deadline ≤ deadline := by
  rcases sourced.kept entry member here with old | ⟨pending,unsequenced,later,deadline,found,covers⟩
  · linarith
  · have replayed : replayable tracked.unsequenced now = some pending :=
      replayable_eq_some.mpr ⟨unsequenced,by linarith⟩
    refine ⟨deadline,?_,covers⟩
    rw [carriedLimits,replayed]
    exact found

theorem Sourced.carried (sourced : Sourced s position tracked)
    {limit : QuotaKey × ℚ} (member : limit ∈ carriedLimits tracked now) :
    ∃ entry ∈ s.unordered, entry.position = position ∧ entry.key = limit.1 ∧ entry.deadline = limit.2 ∧
      now - entry.time ≤ UNSEQUENCED_RATE_LIMIT_TTL_MS := by
  unfold carriedLimits at member
  cases replayed : replayable tracked.unsequenced now with
  | none =>
    rw [replayed] at member
    exact absurd member not_mem_nil
  | some pending =>
    rw [replayed] at member
    obtain ⟨unsequenced,recent⟩ := replayable_eq_some.mp replayed
    have found := find_of_mem (sourced.distinct pending unsequenced) member
    obtain ⟨entry,among,here,same_key,same_deadline,same_time⟩ := sourced.buffered pending unsequenced _ _ found
    exact ⟨entry,among,here,same_key,same_deadline,by rw [same_time]; exact recent⟩

theorem clearSelected_limits (now : ℚ) (tracked : TrackedAccount) :
    (clearSelected now tracked).account.rateLimitResetTimes = carriedLimits tracked now := rfl

theorem observe_stale {selection : SelectionMeta}
    (stale : selection.affinityGeneration ≤ s.manager.affinityGeneration) : observe s now selection = { s with clock := now } := by
  simp [observe,LimitManager.applyManualSelection,stale]

theorem observe_newer (now : ℚ) {selection : SelectionMeta}
    (newer : ¬ selection.affinityGeneration ≤ s.manager.affinityGeneration) :
    (observe s now selection).manager.affinityGeneration = selection.affinityGeneration ∧
      (observe s now selection).unordered = s.unordered.filter (fun entry => decide (selection.pinnedAccountIndex ≠ some entry.position)) ∧
      (observe s now selection).applied = s.applied ++ [selection.affinityGeneration] ∧
      ∀ position after, (observe s now selection).manager.accounts[position]? = some after →
        ∃ before, s.manager.accounts[position]? = some before ∧
          after = if selection.pinnedAccountIndex = some position then clearSelected now before else before := by
  refine ⟨?_,?_,?_,?_⟩
  · simp [observe,LimitManager.applyManualSelection,newer]
  · simp [observe,newer]
  · simp [observe,newer]
  · intro position after found
    simp only [observe,LimitManager.applyManualSelection,if_neg newer] at found
    cases pinned : selection.pinnedAccountIndex with
    | none =>
      rw [pinned] at found
      exact ⟨after,found,by simp⟩
    | some index =>
      rw [pinned] at found
      obtain ⟨before,here,same⟩ := getElem_modify_eq_some found
      exact ⟨before,here,by rw [same]; simp only [Option.some.injEq]⟩

theorem Inv.observe (inv : Inv s) (forward : s.clock ≤ now) (selection : SelectionMeta) :
    Inv (observe s now selection) := by
  by_cases stale : selection.affinityGeneration ≤ s.manager.affinityGeneration
  · rw [observe_stale stale]
    exact inv.later forward
  · obtain ⟨generation,unordered,applied,accounts⟩ := observe_newer now stale
    refine ⟨le_trans inv.clock forward,?_,?_,?_,?_,?_⟩
    · intro position after found
      obtain ⟨before,here,same⟩ := accounts position after found
      have sourced := (inv.accounts position before here).later forward
      by_cases pinned : selection.pinnedAccountIndex = some position
      · rw [if_pos pinned] at same
        subst same
        refine ⟨?_,by simp [clearSelected],by simp [clearSelected],?_⟩
        · intro limit member
          rw [clearSelected_limits] at member
          obtain ⟨entry,among,at_position,same_key,same_deadline,-⟩ := sourced.carried member
          exact ⟨entry,inv.unordered entry among,at_position,same_key,same_deadline⟩
        · intro entry member at_position
          rw [unordered,mem_filter] at member
          have other := of_decide_eq_true member.2
          rw [at_position] at other
          exact absurd pinned other
      · rw [if_neg pinned] at same
        subst same
        refine ⟨sourced.limits,sourced.distinct,?_,?_⟩
        · intro pending unsequenced key deadline replayed
          obtain ⟨entry,among,at_position,rest⟩ := sourced.buffered pending unsequenced key deadline replayed
          refine ⟨entry,?_,at_position,rest⟩
          rw [unordered,mem_filter]
          refine ⟨among,?_⟩
          rw [at_position]
          exact decide_eq_true pinned
        · intro entry member at_position
          rw [unordered] at member
          exact sourced.kept entry (mem_filter.mp member).1 at_position
    · intro entry member
      obtain ⟨past,bounded,seen⟩ := inv.dated entry member
      refine ⟨le_trans past forward,bounded,?_⟩
      rw [generation]
      omega
    · intro entry member
      rw [unordered] at member
      exact inv.unordered entry (mem_filter.mp member).1
    · rw [applied]
      refine List.Nodup.append inv.once (nodup_singleton _) ?_
      intro earlier member new
      have seen := inv.behind earlier member
      rw [mem_singleton.mp new] at seen
      exact stale seen
    · intro earlier member
      rw [applied,mem_append,mem_singleton] at member
      rw [generation]
      rcases member with old | new
      · have seen := inv.behind earlier old
        omega
      · exact le_of_eq new

/-! ### A recorded rejection -/

theorem Rejected.resetAt_bounds (rejected : Rejected) (epoch : 0 ≤ now) :
    0 ≤ rejected.resetAt now ∧ rejected.resetAt now ≤ now + RATE_LIMIT_CACHE_TTL_MS := by
  obtain ⟨low,high⟩ := retryTime_bounds rejected.retryAfterMs
  unfold Rejected.resetAt
  exact ⟨by linarith,by linarith⟩

variable {rejected : Rejected}

theorem Rejected.mem_entries {generation : Nat} {entry : Entry} :
    entry ∈ rejected.entries now generation ↔
      ∃ key ∈ rejected.keys, entry = ⟨rejected.position,key,rejected.resetAt now,now,generation⟩ := by
  simp [Rejected.entries,eq_comm]

/-- The account's own part of `Undated`. -/
def CoversCarried (rejected : Rejected) (now : ℚ) (tracked : TrackedAccount) : Prop :=
  ∀ pending, replayable tracked.unsequenced now = some pending →
    ∀ key deadline, pending.limits.find key = some deadline → key ∈ rejected.keys ∧ deadline ≤ rejected.resetAt now

theorem Sourced.mark (sourced : Sourced s rejected.position tracked)
    (epoch : 0 ≤ s.clock) (past : ∀ entry ∈ s.unordered, entry.time ≤ s.clock) {readable : Bool}
    (covers : readable = false → CoversCarried rejected s.clock tracked) :
    Sourced (recorded s rejected readable s.clock) rejected.position
      (markAccount s.rejectionSequence rejected readable s.clock tracked) := by
  have positive := (rejected.resetAt_bounds epoch).1
  have new : ∀ key ∈ rejected.keys,
      (⟨rejected.position,key,rejected.resetAt s.clock,s.clock,s.manager.affinityGeneration⟩ : Entry) ∈
        rejected.entries s.clock s.manager.affinityGeneration := by
    intro key among
    exact Rejected.mem_entries.mpr ⟨key,among,rfl⟩
  refine ⟨?_,?_,?_,?_⟩
  · intro limit member
    rw [markAccount_limits] at member
    rcases mem_raiseAll _ positive member with old | ⟨among,same⟩
    · obtain ⟨entry,recorded,origin⟩ := sourced.limits limit old
      exact ⟨entry,mem_append_left _ recorded,origin⟩
    · exact ⟨_,mem_append_right _ (new limit.1 among),rfl,rfl,same.symm⟩
  · intro pending unsequenced
    rw [markAccount_unsequenced] at unsequenced
    cases readable with
    | true => cases unsequenced
    | false =>
      obtain rfl := Option.some.inj unsequenced
      refine nodup_raiseAll _ ?_
      unfold carriedLimits
      cases replayed : replayable tracked.unsequenced s.clock with
      | none => exact nodup_nil
      | some pending => exact sourced.distinct pending (replayable_eq_some.mp replayed).1
  · intro pending unsequenced key deadline found
    rw [markAccount_unsequenced] at unsequenced
    cases readable with
    | true => cases unsequenced
    | false =>
      obtain rfl := Option.some.inj unsequenced
      have covered : ∀ older, (carriedLimits tracked s.clock).find key = some older →
          key ∈ rejected.keys ∧ older ≤ rejected.resetAt s.clock := by
        intro older carried
        unfold carriedLimits at carried
        cases replayed : replayable tracked.unsequenced s.clock with
        | none =>
          rw [replayed] at carried
          cases carried
        | some pending =>
          rw [replayed] at carried
          exact covers rfl pending replayed key older carried
      simp only [find_raiseAll] at found
      by_cases among : key ∈ rejected.keys
      · rw [if_pos among] at found
        refine ⟨_,mem_append_right _ (new key among),rfl,rfl,?_,rfl⟩
        rw [← Option.some.inj found]
        cases carried : (carriedLimits tracked s.clock).find key with
        | none => exact (max_eq_right positive).symm
        | some older => exact (max_eq_right (covered older carried).2).symm
      · rw [if_neg among] at found
        exact absurd (covered deadline found).1 among
  · intro entry member here
    cases readable with
    | true =>
      have other := of_decide_eq_true (mem_filter.mp member).2
      exact absurd here other
    | false =>
      rcases mem_append.mp member with old | added
      · by_cases recent : s.clock - entry.time ≤ UNSEQUENCED_RATE_LIMIT_TTL_MS
        · right
          obtain ⟨deadline,found,covers⟩ := sourced.replays (le_refl _) old here recent
          refine ⟨_,markAccount_unsequenced _ _ _ _ _,past entry old,?_⟩
          simp only [find_raiseAll]
          by_cases among : entry.key ∈ rejected.keys
          · rw [if_pos among,found]
            exact ⟨_,rfl,le_trans covers (le_max_left _ _)⟩
          · rw [if_neg among]
            exact ⟨deadline,found,covers⟩
        · exact .inl (not_le.mp recent)
      · right
        obtain ⟨key,among,rfl⟩ := Rejected.mem_entries.mp added
        refine ⟨_,markAccount_unsequenced _ _ _ _ _,le_refl _,?_⟩
        simp only [find_raiseAll,if_pos among]
        exact ⟨_,rfl,le_max_right _ _⟩

theorem Sourced.mark_other (sourced : Sourced s position tracked)
    (other : rejected.position ≠ position) (readable : Bool) :
    Sourced (recorded s rejected readable s.clock) position tracked := by
  have unordered : ∀ entry, entry.position = position →
      (entry ∈ (recorded s rejected readable s.clock).unordered ↔ entry ∈ s.unordered) := by
    intro entry here
    cases readable with
    | true =>
      simp only [recorded,if_true,mem_filter,decide_eq_true_eq]
      exact and_iff_left (by rw [here]; exact other.symm)
    | false =>
      simp only [recorded,Bool.false_eq_true,if_false,mem_append]
      refine or_iff_left ?_
      intro added
      obtain ⟨key,-,rfl⟩ := Rejected.mem_entries.mp added
      exact other here
  refine ⟨?_,sourced.distinct,?_,?_⟩
  · intro limit member
    obtain ⟨entry,among,origin⟩ := sourced.limits limit member
    exact ⟨entry,mem_append_left _ among,origin⟩
  · intro pending unsequenced key deadline found
    obtain ⟨entry,among,here,rest⟩ := sourced.buffered pending unsequenced key deadline found
    exact ⟨entry,(unordered entry here).mpr among,here,rest⟩
  · intro entry member here
    exact sourced.kept entry ((unordered entry here).mp member) here

theorem Inv.recorded (inv : Inv s) {readable : Bool}
    (covers : readable = false → ∀ tracked, s.manager.accounts[rejected.position]? = some tracked → CoversCarried rejected s.clock tracked) :
    Inv (recorded s rejected readable s.clock) := by
  have past : ∀ entry ∈ s.unordered, entry.time ≤ s.clock := fun entry member => (inv.dated entry (inv.unordered entry member)).1
  refine ⟨inv.clock,?_,?_,?_,inv.once,inv.behind⟩
  · intro position after found
    obtain ⟨before,here,same⟩ := getElem_modify_eq_some found
    have sourced := inv.accounts position before here
    by_cases at_position : rejected.position = position
    · rw [if_pos at_position] at same
      subst at_position
      subst same
      exact sourced.mark inv.clock past (fun unreadable => covers unreadable before here)
    · rw [if_neg at_position] at same
      subst same
      exact sourced.mark_other at_position readable
  · intro entry member
    rcases mem_append.mp member with old | added
    · exact inv.dated entry old
    · obtain ⟨key,-,rfl⟩ := Rejected.mem_entries.mp added
      exact ⟨le_refl _,(rejected.resetAt_bounds inv.clock).2,le_refl _⟩
  · intro entry member
    cases readable with
    | true => exact mem_append_left _ (inv.unordered entry (mem_filter.mp member).1)
    | false =>
      rcases mem_append.mp member with old | added
      · exact mem_append_left _ (inv.unordered entry old)
      · exact mem_append_right _ added

theorem Inv.mark (inv : Inv s) (rejected : Rejected) (selection : Option SelectionMeta) (forward : s.clock ≤ now)
    (undated : Undated s (.mark rejected selection now)) : Inv (mark s rejected selection now) := by
  rw [mark_eq]
  cases selection with
  | none =>
    refine Inv.recorded (s := { s with clock := now }) (inv.later forward) ?_
    intro _ tracked found pending replayed key deadline carried
    exact undated tracked found pending replayed key deadline carried
  | some selection =>
    refine Inv.recorded (s := SelectionLimits.observe s now selection) (inv.observe forward selection) ?_
    intro unreadable
    cases unreadable

/-! ### Clears, tests and loads -/

theorem Inv.clear (inv : Inv s) (forward : s.clock ≤ now) :
    Inv { s with manager := s.manager.clearAccountTransientState,clock := now } := by
  have later := inv.later forward
  refine ⟨later.clock,?_,later.dated,later.unordered,later.once,later.behind⟩
  intro position after found
  simp only [LimitManager.clearAccountTransientState,List.getElem?_map] at found
  obtain ⟨before,here,same⟩ := Option.map_eq_some_iff.mp found
  subst same
  have sourced := later.accounts position before here
  exact ⟨forall_mem_nil _,sourced.distinct,sourced.buffered,sourced.kept⟩

theorem Inv.test (inv : Inv s) (position : Nat) (forward : s.clock ≤ now) :
    Inv { s with
      manager := { s.manager with accounts := s.manager.accounts.modify position (fun tracked =>
        { tracked with account := clearExpiredRateLimits now tracked.account }) }
      clock := now } := by
  have later := inv.later forward
  refine ⟨later.clock,?_,later.dated,later.unordered,later.once,later.behind⟩
  intro other after found
  obtain ⟨before,here,same⟩ := getElem_modify_eq_some found
  have sourced := later.accounts other before here
  subst same
  split
  · refine ⟨?_,sourced.distinct,sourced.buffered,sourced.kept⟩
    intro limit member
    exact sourced.limits limit (mem_filter.mp member).1
  · exact ⟨sourced.limits,sourced.distinct,sourced.buffered,sourced.kept⟩

section
variable [Host] (readKey : String → QuotaKey)

theorem mem_loadedAccounts_limits {now : ℚ} {authFallback : Option OAuthAuthDetails} {rows : List AccountMetadataV3}
    {account : ManagedAccount} (member : account ∈ loadedAccounts now authFallback rows) {limit : String × ℚ}
    (among : limit ∈ account.rateLimitResetTimes) : limit.2 ≤ now + RATE_LIMIT_CACHE_TTL_MS := by
  have stored : ∀ auth : Option OAuthAuthDetails, ∀ row index, account = managedAccount now auth row index →
      limit.2 ≤ now + RATE_LIMIT_CACHE_TTL_MS := by
    rintro auth row index rfl
    obtain ⟨entry,-,same⟩ := mem_map.mp among
    rw [← same]
    exact min_le_right _ _
  unfold loadedAccounts at member
  simp only at member
  split at member
  · rcases mem_append.mp member with row | added
    · obtain ⟨entry,-,same⟩ := mem_map.mp row
      exact stored _ _ _ same.symm
    · rw [mem_singleton.mp added] at among
      exact absurd among not_mem_nil
  · obtain ⟨entry,-,same⟩ := mem_map.mp member
    exact stored _ _ _ same.symm

theorem load_limits {now : ℚ} {source : Source} {tracked : TrackedAccount} (member : tracked ∈ (load readKey now source).accounts) :
    tracked.unsequenced = none ∧ ∀ limit ∈ tracked.account.rateLimitResetTimes, limit.2 ≤ now + RATE_LIMIT_CACHE_TTL_MS := by
  obtain ⟨account,among,rfl⟩ := mem_map.mp member
  refine ⟨rfl,?_⟩
  intro limit found
  obtain ⟨stored,here,rfl⟩ := mem_map.mp found
  unfold newAccountPool at among
  split at among
  · exact mem_loadedAccounts_limits among here
  · rw [mem_singleton.mp among] at here
    exact absurd here not_mem_nil
  · exact absurd among not_mem_nil

theorem mem_loadedEntries {manager : LimitManager} {now : ℚ} {entry : Entry} :
    entry ∈ loadedEntries manager now ↔ ∃ tracked limit, manager.accounts[entry.position]? = some tracked ∧
      limit ∈ tracked.account.rateLimitResetTimes ∧
      entry = ⟨entry.position,limit.1,limit.2,now,manager.affinityGeneration⟩ := by
  unfold loadedEntries
  rw [mem_flatMap]
  constructor
  · rintro ⟨⟨tracked,position⟩,member,listed⟩
    obtain ⟨limit,among,rfl⟩ := mem_map.mp listed
    exact ⟨tracked,limit,mem_zipIdx_iff_getElem?.mp member,among,rfl⟩
  · rintro ⟨tracked,limit,found,among,same⟩
    refine ⟨⟨tracked,entry.position⟩,mem_zipIdx_iff_getElem?.mpr found,?_⟩
    rw [same]
    exact mem_map_of_mem among

theorem Inv.loaded {s : State} (source : Source) (epoch : 0 ≤ s.clock) (manager : s.manager = load readKey s.clock source)
    (entries : s.entries = loadedEntries s.manager s.clock) (unordered : s.unordered = []) (once : s.applied.Nodup)
    (behind : ∀ generation ∈ s.applied, generation ≤ s.manager.affinityGeneration) : Inv s := by
  refine ⟨epoch,?_,?_,?_,once,behind⟩
  · intro position tracked found
    obtain ⟨quiet,-⟩ := load_limits readKey (by rw [← manager]; exact mem_of_getElem? found)
    refine ⟨?_,?_,?_,?_⟩
    · intro limit member
      refine ⟨⟨position,limit.1,limit.2,s.clock,s.manager.affinityGeneration⟩,?_,rfl,rfl,rfl⟩
      rw [entries]
      exact mem_loadedEntries.mpr ⟨tracked,limit,found,member,rfl⟩
    · intro pending unsequenced
      rw [quiet] at unsequenced
      cases unsequenced
    · intro pending unsequenced
      rw [quiet] at unsequenced
      cases unsequenced
    · rw [unordered]
      exact forall_mem_nil _
  · intro entry member
    rw [entries] at member
    obtain ⟨tracked,limit,found,among,same⟩ := mem_loadedEntries.mp member
    rw [same]
    refine ⟨le_refl _,?_,le_refl _⟩
    exact (load_limits readKey (by rw [← manager]; exact mem_of_getElem? found)).2 limit among
  · rw [unordered]
    exact forall_mem_nil _

theorem Inv.reload {s : State} (inv : Inv s) (source : Source) {now : ℚ} (forward : s.clock ≤ now) :
    Inv (reload readKey s source now) := by
  refine Inv.loaded readKey source (le_trans inv.clock forward) rfl rfl rfl ?_ ?_
  · simp only [SelectionLimits.reload]
    split
    · exact inv.once
    · exact nodup_nil
  · intro generation member
    simp only [SelectionLimits.reload] at member ⊢
    split at member
    · next forward => exact le_trans (inv.behind generation member) forward
    · exact absurd member not_mem_nil

theorem step_inv (s : State) (action : Action) (may : Enabled s action ∧ Undated s action) (inv : Inv s) : Inv (step readKey s action) := by
  obtain ⟨⟨forward,-⟩,undated⟩ := may
  cases action with
  | mark rejected selection now => exact inv.mark rejected selection forward undated
  | select selection now => exact inv.observe forward selection
  | clear now => exact inv.clear forward
  | test position now => exact inv.test position forward
  | reload source now => exact inv.reload readKey source forward

theorem Start.inv {s : State} (start : Start readKey s) : Inv s := by
  obtain ⟨source,loaded⟩ := start.loaded
  refine Inv.loaded readKey source start.clock loaded start.entries start.unordered ?_ ?_
  · rw [start.applied]
    exact nodup_nil
  · rw [start.applied]
    exact forall_mem_nil _
end

/-! ### Bounds and order -/

/-- A recording lowers no deadline, and sets those of its rejection. -/
def Raises (before after : LimitManager) (rejected : Rejected) (now : ℚ) : Prop :=
  ∀ position tracked, before.accounts[position]? = some tracked → ∃ marked, after.accounts[position]? = some marked ∧
    (∀ key deadline, tracked.account.rateLimitResetTimes.find key = some deadline →
      ∃ later, marked.account.rateLimitResetTimes.find key = some later ∧ deadline ≤ later) ∧
    (position = rejected.position → ∀ key ∈ rejected.keys,
      ∃ deadline, marked.account.rateLimitResetTimes.find key = some deadline ∧ rejected.resetAt now ≤ deadline)

/-- What observing a selection clears: nothing but the limits of the selected
    account, by a generation that was not applied and that no rejection has seen.
    What could not be ordered is kept while it is recent, and nothing else stays. -/
structure Clears (s : State) (now : ℚ) (selection : SelectionMeta) (after : LimitManager) : Prop where
  unselected : ∀ position, selection.affinityGeneration ≤ s.manager.affinityGeneration ∨ selection.pinnedAccountIndex ≠ some position →
    after.accounts[position]? = s.manager.accounts[position]?
  once : s.manager.affinityGeneration < selection.affinityGeneration → selection.affinityGeneration ∉ s.applied
  newer : s.manager.affinityGeneration < selection.affinityGeneration →
    ∀ entry ∈ s.entries, entry.generation < selection.affinityGeneration
  survives : ∀ position tracked, after.accounts[position]? = some tracked → ∀ entry ∈ s.unordered, entry.position = position →
    s.manager.affinityGeneration < selection.affinityGeneration → selection.pinnedAccountIndex = some position →
    now - entry.time ≤ UNSEQUENCED_RATE_LIMIT_TTL_MS →
      ∃ deadline, tracked.account.rateLimitResetTimes.find entry.key = some deadline ∧ entry.deadline ≤ deadline
  replays : ∀ position tracked, after.accounts[position]? = some tracked →
    s.manager.affinityGeneration < selection.affinityGeneration → selection.pinnedAccountIndex = some position →
    ∀ key deadline, tracked.account.rateLimitResetTimes.find key = some deadline →
      ∃ entry ∈ s.unordered, entry.position = position ∧ entry.key = key ∧ entry.deadline = deadline ∧
        now - entry.time ≤ UNSEQUENCED_RATE_LIMIT_TTL_MS

def observedManager (s : State) (selection : Option SelectionMeta) (now : ℚ) : LimitManager :=
  match selection with
  | some selection => s.manager.applyManualSelection now selection
  | none => s.manager

structure Lawful (s : State) : Prop where
  bounded : ∀ position tracked, s.manager.accounts[position]? = some tracked →
    ∀ key deadline, tracked.account.rateLimitResetTimes.find key = some deadline →
      ∃ entry ∈ s.entries, entry.position = position ∧ entry.key = key ∧ entry.deadline = deadline ∧ entry.time ≤ s.clock ∧
        deadline ≤ entry.time + RATE_LIMIT_CACHE_TTL_MS
  raises : ∀ rejected selection now, s.clock ≤ now →
    Raises (observedManager s selection now) (mark s rejected selection now).manager rejected now
  once : s.applied.Nodup
  clears : ∀ selection now, s.clock ≤ now → Clears s now selection (s.manager.applyManualSelection now selection)

theorem mark_raises (s : State) (rejected : Rejected) (selection : Option SelectionMeta) (now : ℚ) :
    Raises (observedManager s selection now) (mark s rejected selection now).manager rejected now := by
  have accounts : (mark s rejected selection now).manager.accounts =
      (observedManager s selection now).accounts.modify rejected.position
        (markAccount s.rejectionSequence rejected selection.isSome now) := by
    rw [mark_eq]
    cases selection <;> rfl
  intro position tracked found
  by_cases here : rejected.position = position
  · refine ⟨markAccount s.rejectionSequence rejected selection.isSome now tracked,?_,?_,?_⟩
    · rw [accounts,List.getElem?_modify,found]
      simp [here]
    · intro key deadline limited
      rw [markAccount_limits,find_raiseAll,limited]
      split
      · exact ⟨_,rfl,le_max_left _ _⟩
      · exact ⟨deadline,rfl,le_refl _⟩
    · intro _ key among
      rw [markAccount_limits,find_raiseAll,if_pos among]
      exact ⟨_,rfl,le_max_right _ _⟩
  · refine ⟨tracked,?_,fun key deadline limited => ⟨deadline,limited,le_refl _⟩,fun same => absurd same.symm here⟩
    rw [accounts,List.getElem?_modify,found]
    simp [here]

theorem Inv.clears (inv : Inv s) (selection : SelectionMeta) (forward : s.clock ≤ now) :
    Clears s now selection (s.manager.applyManualSelection now selection) := by
  have selected : s.manager.affinityGeneration < selection.affinityGeneration →
      ∀ position tracked, (s.manager.applyManualSelection now selection).accounts[position]? = some tracked →
        selection.pinnedAccountIndex = some position →
        ∃ before, s.manager.accounts[position]? = some before ∧ tracked.account.rateLimitResetTimes = carriedLimits before now := by
    intro newer position tracked found pinned
    obtain ⟨-,-,-,accounts⟩ := observe_newer (s := s) now (not_le.mpr newer)
    obtain ⟨before,here,same⟩ := accounts position tracked found
    rw [if_pos pinned] at same
    exact ⟨before,here,by rw [same,clearSelected_limits]⟩
  refine ⟨?_,?_,?_,?_,?_⟩
  · intro position elsewhere
    unfold LimitManager.applyManualSelection
    split
    · rfl
    · next newer =>
      cases pinned : selection.pinnedAccountIndex with
      | none => rfl
      | some index =>
        have other : index ≠ position := by
          rintro rfl
          rcases elsewhere with stale | unpinned
          · exact newer stale
          · exact unpinned pinned
        simp [other]
  · intro newer member
    have seen := inv.behind _ member
    omega
  · intro newer entry member
    have seen := (inv.dated entry member).2.2
    omega
  · intro position tracked found entry member here newer pinned recent
    obtain ⟨before,loaded,limits⟩ := selected newer position tracked found pinned
    rw [limits]
    exact (inv.accounts position before loaded).replays forward member here recent
  · intro position tracked found newer pinned key deadline limited
    obtain ⟨before,loaded,limits⟩ := selected newer position tracked found pinned
    rw [limits] at limited
    exact (inv.accounts position before loaded).carried (mem_of_find limited)

/-- Throughout every run in which no rejection gives an older one its own date,
    deadlines are bounded and ordered against selections. -/
theorem limits_bounded_and_ordered [Host] (readKey : String → QuotaKey) {start s : State} (starts : Start readKey start)
    (run : Runs.Run (step readKey) (fun s action => Enabled s action ∧ Undated s action) start s) : Lawful s := by
  have inv : Inv s := run.invariant (step_inv readKey) (starts.inv readKey)
  refine ⟨?_,fun rejected selection now _ => mark_raises s rejected selection now,inv.once,
    fun selection now forward => inv.clears selection forward⟩
  intro position tracked found key deadline limited
  obtain ⟨entry,among,here,same_key,same_deadline⟩ := (inv.accounts position tracked found).limits _ (mem_of_find limited)
  obtain ⟨past,bounded,-⟩ := inv.dated entry among
  refine ⟨entry,among,here,same_key,same_deadline,past,?_⟩
  simp only at same_deadline
  rw [← same_deadline]
  exact bounded

section
attribute [local instance] asciiHost

private def oneRow : Source where
  authFallback := none
  stored := some { accounts := [[("refreshToken",.str "t"),("recordId",.str "a")]],activeIndex := 0 }

private def freshState : State where
  manager := load QuotaKey.quota 0 oneRow
  clock := 0
  rejectionSequence := 0
  entries := []
  unordered := []
  applied := []

private def familyRejected : Rejected where
  position := 0
  retryAfterMs := 3600000
  family := .gpt51
  reason := .quota

private def modelRejected : Rejected where
  position := 0
  retryAfterMs := 1000
  family := .gpt51
  reason := .tokens
  model := some "gpt-5.1"

/-- Two rejections under an unreadable selection, the second within the window of the first. -/
private def redating : List Action := [.mark familyRejected none 0,.mark modelRejected none 25000]

private def redated : State := redating.foldl (step QuotaKey.quota) freshState

private def switched : SelectionMeta := ⟨some 0,1⟩

private theorem freshState_start : Start QuotaKey.quota freshState := by
  refine ⟨⟨oneRow,rfl⟩,le_refl _,?_,rfl,rfl⟩
  decide

/-- A second unreadable rejection gives the first its own date, so a switch 50
    seconds after the first does not clear it. -/
theorem unreadable_rejection_redated :
    Start QuotaKey.quota freshState ∧ Runs.Run (step QuotaKey.quota) Enabled freshState redated ∧
      redated.clock ≤ 50000 ∧
      (∀ entry ∈ redated.entries, entry.key = .quota "gpt-5.1" → UNSEQUENCED_RATE_LIMIT_TTL_MS < 50000 - entry.time) ∧
      ((redated.manager.applyManualSelection 50000 switched).accounts[0]?.bind (fun tracked =>
        tracked.account.rateLimitResetTimes.find (.quota "gpt-5.1"))) = some 3600000 ∧
      ¬ Clears redated 50000 switched (redated.manager.applyManualSelection 50000 switched) := by
  have kept : ((redated.manager.applyManualSelection 50000 switched).accounts[0]?.bind (fun tracked =>
      tracked.account.rateLimitResetTimes.find (.quota "gpt-5.1"))) = some 3600000 := by decide +kernel
  have old : ∀ entry ∈ redated.unordered, entry.key = .quota "gpt-5.1" → UNSEQUENCED_RATE_LIMIT_TTL_MS < 50000 - entry.time := by
    decide +kernel
  refine ⟨freshState_start,?_,by decide,by decide +kernel,kept,?_⟩
  · refine (Runs.Run.nil freshState).ofList redating ⟨⟨?_,?_⟩,⟨?_,?_⟩,trivial⟩
    · decide
    · decide
    · decide
    · decide
  · intro clears
    obtain ⟨tracked,found,limited⟩ := Option.bind_eq_some_iff.mp kept
    obtain ⟨entry,among,-,same_key,-,recent⟩ := clears.replays 0 tracked found (by decide) rfl _ _ limited
    exact absurd recent (not_le.mpr (old entry among same_key))

theorem limits_bounded_and_ordered_switched : Lawful (step QuotaKey.quota (step QuotaKey.quota freshState (.mark familyRejected none 0))
    (.select switched 25000)) := by
  refine limits_bounded_and_ordered QuotaKey.quota freshState_start
    (((Runs.Run.nil freshState).snoc ⟨⟨le_refl _,by decide⟩,?_⟩).snoc ⟨⟨by decide,trivial⟩,trivial⟩)
  intro tracked found pending replayed
  have quiet : freshState.manager.accounts[0]?.all (fun tracked => tracked.unsequenced.isNone) = true := by decide
  rw [show familyRejected.position = 0 from rfl] at found
  rw [found,Option.all_some] at quiet
  rw [(replayable_eq_some.mp replayed).1] at quiet
  cases quiet
end

end CodexMultiAuth.SelectionLimits
