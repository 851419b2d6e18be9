import CodexMultiAuth.PreemptiveQuotaRuns

/-!
The quota scheduler over whole runs.
-/
namespace CodexMultiAuth.PreemptiveQuota
open PreemptiveQuotaScheduler List PreemptiveQuotaScheduler

/-- A call that brings only sound snapshots. -/
def Proper (settings : Settings) (now : ℚ) (call : Call) : Prop := ∀ key snapshot, call = .update key snapshot → Sound settings now snapshot

/-- Steps that answer from what is seen, and leave it as it should be. -/
structure Follows (settings : Settings) (step : PreemptiveQuotaScheduler → ℚ → Call → PreemptiveQuotaScheduler × Option Answer) : Prop where
  entries : ∀ scheduler now call, 0 ≤ now → Entries (Sound settings now) scheduler → Proper settings now call →
    Entries (Sound settings now) (step scheduler now call).1
  answer : ∀ scheduler now call, 0 ≤ now → Entries (Sound settings now) scheduler → Proper settings now call →
    (step scheduler now call).2 = (seenStep settings now (view now scheduler) call).2
  view : ∀ scheduler now call, 0 ≤ now → Entries (Sound settings now) scheduler → Proper settings now call →
    ∀ key, view now (step scheduler now call).1 key = (seenStep settings now (view now scheduler) call).1 key

section
variable {settings : Settings} {scheduler : PreemptiveQuotaScheduler} {now : ℚ}

theorem rateLimited_seen (old : 0 ≤ now) {existing : Option QuotaSchedulerSnapshot} (retryAfterMs : Option ℚ)
    (observed : ∀ snapshot, existing = some snapshot → snapshot.updatedAt ≤ now) : (rateLimited existing retryAfterMs now).updatedAt ≤ now := by
  refine max_le ?_ (le_refl _)
  cases existing with
  | none => exact old
  | some snapshot => exact observed snapshot rfl

theorem rateLimited_sound (old : 0 ≤ now) (entries : Entries (Sound settings now) scheduler) (key : String) (retryAfterMs : Option ℚ) :
    Sound settings now (rateLimited (scheduler.find key) retryAfterMs now) :=
  ⟨rateLimited_seen old retryAfterMs fun snapshot there => (entries key snapshot there).1,Or.inl rfl⟩

theorem view_markRateLimited (old : 0 ≤ now) (entries : Entries (Sound settings now) scheduler) (key : String) (retryAfterMs : Option ℚ) (other : String) :
    view now (scheduler.markRateLimited key retryAfterMs now) other =
      if key ≠ "" ∧ key = other then remnant now (rateLimited (view now scheduler key) retryAfterMs now) else view now scheduler other := by
  unfold markRateLimited
  by_cases blank : key = ""
  · rw [if_pos blank,if_neg fun both => both.1 blank]
  · rw [if_neg blank,view_set]
    by_cases same : key = other
    · rw [if_pos same,if_pos ⟨blank,same⟩]
      exact remnant_rateLimited old retryAfterMs fun snapshot there => (entries key snapshot there).1
    · rw [if_neg same,if_neg fun both => same both.2]

theorem view_stored (key : String) (snapshot : QuotaSchedulerSnapshot) (other : String) :
    view now (if key = "" then scheduler else scheduler.set key snapshot) other =
      if key ≠ "" ∧ key = other then remnant now snapshot else view now scheduler other := by
  by_cases blank : key = ""
  · rw [if_pos blank,if_neg fun both => both.1 blank]
  · rw [if_neg blank,view_set]
    by_cases same : key = other
    · rw [if_pos same,if_pos ⟨blank,same⟩]
    · rw [if_neg same,if_neg fun both => same both.2]

theorem view_update {key : String} {snapshot : QuotaSchedulerSnapshot} (seen : snapshot.updatedAt ≤ now) (other : String) :
    view now (scheduler.update key snapshot now) other =
      if key ≠ "" ∧ key = other then remnant now snapshot else view now scheduler other := by
  have past : (if snapshot.updatedAt = 0 then now else snapshot.updatedAt) ≤ now := by
    split
    · exact le_refl _
    · exact seen
  have pruned := @view_stored (scheduler.maybePrune (if snapshot.updatedAt = 0 then now else snapshot.updatedAt)) now key snapshot other
  rw [view_maybePrune past] at pruned
  rw [← pruned]
  unfold update
  by_cases blank : key = ""
  · rw [if_pos blank,if_pos blank,view_maybePrune past]
  · rw [if_neg blank,if_neg blank]

theorem view_clearByPrefix (start other : String) :
    view now (scheduler.clearByPrefix start) other = if start ≠ "" ∧ start.toList.isPrefixOf other.toList then none else view now scheduler other := by
  unfold clearByPrefix
  by_cases blank : start = ""
  · rw [if_pos blank,if_neg fun both => both.1 blank]
  · rw [if_neg blank,view_drop]
    by_cases starts : start.toList.isPrefixOf other.toList = true
    · rw [if_pos starts,if_pos ⟨blank,starts⟩]
    · rw [if_neg starts,if_neg fun both => starts both.2]

theorem view_clear (key other : String) : view now (scheduler.clear key) other = if other = key then none else view now scheduler other := by
  rw [clear,view_drop]
  simp

end

theorem step_follows (settings : Settings) : Follows settings (step settings) where
  entries scheduler now call old entries proper := entries.step settings proper (rateLimited_sound old entries)
  answer scheduler now call old entries proper := by
    cases call with
    | getDeferral key =>
      have same := answer_seen (entries.maybePrune now) key
      rw [view_maybePrune (le_refl now)] at same
      rw [step,seenStep,getDeferral,same]
    | update key snapshot => rfl
    | markRateLimited key retryAfterMs => rfl
    | prune => rfl
    | clear key => rfl
    | clearByPrefix start => rfl
    | clearAll => rfl
  view scheduler now call old entries proper other := by
    cases call with
    | update key snapshot => exact view_update (proper key snapshot rfl).1 other
    | markRateLimited key retryAfterMs => exact view_markRateLimited old entries key retryAfterMs other
    | prune => exact view_prune (le_refl now) scheduler other
    | clear key => exact view_clear key other
    | clearByPrefix start => exact view_clearByPrefix start other
    | clearAll => exact (view_drop now scheduler _ other).trans (if_pos rfl)
    | getDeferral key =>
      have same := @answer_view settings (scheduler.maybePrune now) now key other
      rw [view_maybePrune (le_refl now),view_maybePrune (le_refl now)] at same
      exact same

theorem unprunedStep_follows (settings : Settings) : Follows settings (unprunedStep settings) where
  entries scheduler now call old entries proper := entries.unprunedStep settings proper (rateLimited_sound old entries)
  answer scheduler now call old entries proper := by
    cases call with
    | getDeferral key => exact congrArg (fun decision => some (Answer.mk key now decision)) (answer_seen entries key)
    | update key snapshot => rfl
    | markRateLimited key retryAfterMs => rfl
    | prune => rfl
    | clear key => rfl
    | clearByPrefix start => rfl
    | clearAll => rfl
  view scheduler now call old entries proper other := by
    cases call with
    | update key snapshot => exact view_stored key snapshot other
    | prune => rfl
    | getDeferral key => exact answer_view key other
    | markRateLimited key retryAfterMs => exact (step_follows settings).view scheduler now _ old entries proper other
    | clear key => exact (step_follows settings).view scheduler now _ old entries proper other
    | clearByPrefix start => exact (step_follows settings).view scheduler now _ old entries proper other
    | clearAll => exact (step_follows settings).view scheduler now _ old entries proper other

variable {calls : List (ℚ × Call)}

theorem Clocked.head {start now : ℚ} {call : Call} (clock : Clocked start ((now,call) :: calls)) : start ≤ now :=
  rel_of_pairwise_cons clock mem_cons_self

theorem Clocked.tail {start now : ℚ} {call : Call} (clock : Clocked start ((now,call) :: calls)) : Clocked now calls :=
  (pairwise_cons.mp clock).2

theorem Clocked.withoutPrunes {start : ℚ} (clock : Clocked start calls) : Clocked start (withoutPrunes calls) :=
  clock.sublist ((filter_sublist.map _).cons_cons _)

theorem Clocked.append {start : ℚ} {before after : List (ℚ × Call)} (clock : Clocked start (before ++ after)) :
    ∃ now, start ≤ now ∧ (∀ call ∈ before, call.1 ≤ now) ∧ Clocked now after := by
  induction before generalizing start with
  | nil => exact ⟨start,le_refl _,forall_mem_nil _,clock⟩
  | cons call before ih =>
    obtain ⟨now,later,all_,rest⟩ := ih clock.tail
    refine ⟨now,clock.head.trans later,fun other member => ?_,rest⟩
    rcases mem_cons.mp member with rfl | member
    · exact later
    · exact all_ other member

variable {settings : Settings}

theorem Entries.later {scheduler : PreemptiveQuotaScheduler} {start now : ℚ} (entries : Entries (Sound settings start) scheduler)
    (later : start ≤ now) : Entries (Sound settings now) scheduler :=
  fun key snapshot there => ⟨(entries key snapshot there).1.trans later,(entries key snapshot there).2⟩

theorem seenStep_congr {now : ℚ} {one other : String → Option QuotaSchedulerSnapshot} (same : ∀ key, one key = other key) (call : Call) :
    seenStep settings now one call = seenStep settings now other call := by
  rw [funext same]

theorem follows_answers {step : PreemptiveQuotaScheduler → ℚ → Call → PreemptiveQuotaScheduler × Option Answer}
    (follows : Follows settings step) {start : ℚ} {scheduler : PreemptiveQuotaScheduler} {seen : String → Option QuotaSchedulerSnapshot}
    (old : 0 ≤ start) (clock : Clocked start calls) (proper : ∀ call ∈ calls, Proper settings call.1 call.2)
    (entries : Entries (Sound settings start) scheduler) (sees : ∀ key, view start scheduler key = seen key) :
    answers step scheduler calls = seenAnswers settings seen calls := by
  induction calls generalizing start scheduler seen with
  | nil => rfl
  | cons call calls ih =>
    obtain ⟨now,call⟩ := call
    have later := clock.head
    have new := old.trans later
    have aged := entries.later later
    have good := proper _ mem_cons_self
    have left : ∀ key, view now scheduler key = (seen key).bind (remnant now) := fun key => by rw [view_later old later,sees]
    have same := @seenStep_congr settings now _ _ left call
    rw [PreemptiveQuota.answers,seenAnswers,follows.answer scheduler now call new aged good,same]
    refine congrArg _ (ih new clock.tail (fun other member => proper other (mem_cons_of_mem _ member)) (follows.entries scheduler now call new aged good)
      fun key => ?_)
    rw [follows.view scheduler now call new aged good key,same]

theorem entries_empty (holds : QuotaSchedulerSnapshot → Prop) : Entries holds empty := fun _ _ there => nomatch there

theorem unpruned_withoutPrunes (settings : Settings) (scheduler : PreemptiveQuotaScheduler) (calls : List (ℚ × Call)) :
    answers (unprunedStep settings) scheduler (withoutPrunes calls) = answers (unprunedStep settings) scheduler calls := by
  induction calls generalizing scheduler with
  | nil => rfl
  | cons call calls ih =>
    obtain ⟨now,call⟩ := call
    by_cases prune : call = .prune
    · subst prune
      exact ih scheduler
    · have kept : withoutPrunes ((now,call) :: calls) = (now,call) :: withoutPrunes calls := filter_cons_of_pos (decide_eq_true prune)
      rw [kept,answers,answers,ih]

section
variable {settings : Settings} {scheduler : PreemptiveQuotaScheduler} {now : ℚ}
variable {key : String}

theorem getDeferral_bounded (defers : (getDeferral settings scheduler key now).2.defer_ = true) :
    ∃ snapshot, scheduler.find key = some snapshot ∧ 0 < cacheRemainingMs snapshot now ∧
      Bounded settings snapshot now (getDeferral settings scheduler key now).2 := by
  rw [getDeferral] at defers ⊢
  unfold answer at defers ⊢
  by_cases enabled : settings.enabled = true
  · rw [if_pos enabled] at defers ⊢
    cases there : (scheduler.maybePrune now).find key with
    | none =>
      rw [there] at defers
      exact absurd defers Bool.false_ne_true
    | some snapshot =>
      rw [there] at defers
      dsimp only at defers ⊢
      by_cases ended : cacheRemainingMs snapshot now ≤ 0
      · rw [if_pos ended] at defers
        exact absurd defers Bool.false_ne_true
      · rw [if_neg ended] at defers ⊢
        have cached := not_le.mp ended
        exact ⟨snapshot,maybePrune_some scheduler there,cached,deferralOf_bounded cached defers⟩
  · rw [if_neg enabled] at defers
    exact absurd defers Bool.false_ne_true

def Untouched (key : String) (calls : List (ℚ × Call)) : Prop :=
  ∀ call ∈ calls, (∀ snapshot, call.2 ≠ .update key snapshot) ∧ ∀ retryAfterMs, call.2 ≠ .markRateLimited key retryAfterMs

theorem set_untouched {key other : String} (differ : other ≠ key) {snapshot found : QuotaSchedulerSnapshot}
    (there : (scheduler.set other snapshot).find key = some found) : scheduler.find key = some found := by
  rwa [find_set,if_neg differ] at there

theorem drop_untouched {drops : String → Bool} {found : QuotaSchedulerSnapshot} (there : (scheduler.drop drops).find key = some found) :
    scheduler.find key = some found := by
  rw [find_drop] at there
  split at there
  · nomatch there
  · exact there

theorem step_untouched {call : Call} (updates : ∀ snapshot, call ≠ .update key snapshot)
    (limits : ∀ retryAfterMs, call ≠ .markRateLimited key retryAfterMs) {found : QuotaSchedulerSnapshot}
    (there : (step settings scheduler now call).1.find key = some found) : scheduler.find key = some found := by
  cases call with
  | update other snapshot =>
    have differ : other ≠ key := fun same => updates snapshot (same ▸ rfl)
    rw [step] at there
    unfold update at there
    split at there
    · exact there
    · exact maybePrune_some scheduler (set_untouched differ there)
  | markRateLimited other retryAfterMs =>
    have differ : other ≠ key := fun same => limits retryAfterMs (same ▸ rfl)
    rw [step] at there
    unfold markRateLimited at there
    split at there
    · exact there
    · exact set_untouched differ there
  | prune =>
    rw [step,find_prune] at there
    exact (Option.filter_eq_some_iff.mp there).1
  | clear other => exact drop_untouched there
  | clearByPrefix start =>
    rw [step] at there
    unfold clearByPrefix at there
    split at there
    · exact there
    · exact drop_untouched there
  | clearAll => exact drop_untouched there
  | getDeferral other =>
    rw [step,getDeferral] at there
    unfold answer at there
    split at there
    · split at there
      · exact maybePrune_some scheduler there
      · split at there
        · exact maybePrune_some scheduler (drop_untouched there)
        · exact maybePrune_some scheduler there
    · exact maybePrune_some scheduler there

def deferrals (key : String) (given : List Answer) : List Answer := given.filter fun answer => answer.key = key ∧ answer.decision.defer_ = true

/-- Each next is asked for when the wait of the one before is over. -/
def Waited (given : List Answer) : Prop := given.IsChain fun one other => one.now + one.decision.waitMs ≤ other.now

theorem deferrals_bounded {start : ℚ} {calls : List (ℚ × Call)} (clock : Clocked start calls) (untouched : Untouched key calls)
    {answer : Answer} (member : answer ∈ deferrals key (answers (step settings) scheduler calls)) :
    ∃ snapshot, scheduler.find key = some snapshot ∧ start ≤ answer.now ∧ 0 < cacheRemainingMs snapshot answer.now ∧
      Bounded settings snapshot answer.now answer.decision := by
  induction calls generalizing start scheduler with
  | nil => nomatch member
  | cons call calls ih =>
    obtain ⟨now,call⟩ := call
    obtain ⟨inside,same⟩ := mem_filter.mp member
    obtain ⟨ours,defers⟩ := of_decide_eq_true same
    rw [answers] at inside
    rcases mem_append.mp inside with here | later
    · cases call with
      | getDeferral other =>
        obtain rfl := mem_singleton.mp here
        have named : other = key := ours
        subst named
        obtain ⟨snapshot,there,cached,bounded⟩ := getDeferral_bounded defers
        exact ⟨snapshot,there,clock.head,cached,bounded⟩
      | update other snapshot => nomatch here
      | markRateLimited other retryAfterMs => nomatch here
      | prune => nomatch here
      | clear other => nomatch here
      | clearByPrefix other => nomatch here
      | clearAll => nomatch here
    · obtain ⟨updates,limits⟩ := untouched _ mem_cons_self
      obtain ⟨snapshot,there,after,rest⟩ := ih clock.tail (fun other among => untouched other (mem_cons_of_mem _ among)) (mem_filter.mpr ⟨later,same⟩)
      exact ⟨snapshot,step_untouched updates limits there,clock.head.trans after,rest⟩

end

/-! ### Chains of deferrals -/

section
variable {settings : Settings} {snapshot : QuotaSchedulerSnapshot}

/-- A second for each reset ahead. -/
def resetsAhead (snapshot : QuotaSchedulerSnapshot) (now : ℚ) : ℚ :=
  (if snapshot.primary.elapsed now then 0 else 1000) + if snapshot.secondary.elapsed now then 0 else 1000

theorem waits_sum {first : Answer} {rest : List Answer} (waited : Waited (first :: rest))
    (bounded : ∀ answer ∈ first :: rest, Bounded settings snapshot answer.now answer.decision) :
    ((first :: rest).map fun answer => answer.decision.waitMs).sum ≤ cacheRemainingMs snapshot first.now := by
  induction rest generalizing first with
  | nil =>
    rw [map_singleton,sum_singleton]
    exact (bounded first mem_cons_self).remaining
  | cons second rest ih =>
    have later := ih (isChain_cons_cons.mp waited).2 fun answer member => bounded answer (mem_cons_of_mem _ member)
    have next : first.now + first.decision.waitMs ≤ second.now := (isChain_cons_cons.mp waited).1
    rw [map_cons,sum_cons]
    rw [cacheRemainingMs] at later ⊢
    linarith

theorem window_ahead {now later : ℚ} (after : now ≤ later) (window : QuotaSchedulerWindow) :
    (if window.elapsed later then (0 : ℚ) else 1000) ≤ if window.elapsed now then 0 else 1000 := by
  by_cases elapsed : window.elapsed now = true
  · rw [if_pos elapsed,if_pos (elapsed_later after elapsed)]
  · rw [if_neg elapsed]
    split <;> norm_num

theorem window_passed {now later reset : ℚ} {window : QuotaSchedulerWindow} (some_ : window.resetAtMs = some reset) (ahead : now < reset)
    (passed : reset ≤ later) : (if window.elapsed later then (0 : ℚ) else 1000) + 1000 ≤ if window.elapsed now then 0 else 1000 := by
  have after : window.elapsed later = true := elapsed_iff.mpr fun other same => by
    rw [some_] at same
    exact Option.some.inj same ▸ passed
  have before : ¬ window.elapsed now = true := fun elapsed => absurd (elapsed_iff.mp elapsed reset some_) (not_le.mpr ahead)
  rw [if_pos after,if_neg before]
  norm_num

theorem wait_progress {first second : Answer} (bounded : Bounded settings snapshot first.now first.decision)
    (next : first.now + first.decision.waitMs ≤ second.now) (cached : 0 < cacheRemainingMs snapshot second.now) :
    cacheRemainingMs snapshot second.now + resetsAhead snapshot second.now + 1000 ≤ cacheRemainingMs snapshot first.now + resetsAhead snapshot first.now := by
  have after : first.now ≤ second.now := by
    have positive := bounded.positive
    linarith
  have primary := window_ahead after snapshot.primary
  have secondary := window_ahead after snapshot.secondary
  rw [cacheRemainingMs] at cached
  unfold resetsAhead
  rcases bounded.steady with whole | long | ⟨reset,⟨ahead,which⟩,wait⟩
  · rw [cacheRemainingMs] at whole
    linarith
  · rw [cacheRemainingMs,cacheRemainingMs]
    linarith
  · have passed : reset ≤ second.now := by linarith
    rw [cacheRemainingMs,cacheRemainingMs]
    rcases which with first_ | second_
    · have gone := window_passed first_ ahead passed
      linarith
    · have gone := window_passed second_ ahead passed
      linarith

theorem waits_length {first : Answer} {rest : List Answer} (waited : Waited (first :: rest))
    (bounded : ∀ answer ∈ first :: rest, 0 < cacheRemainingMs snapshot answer.now ∧ Bounded settings snapshot answer.now answer.decision) :
    1000 * (rest.length : ℚ) < cacheRemainingMs snapshot first.now + resetsAhead snapshot first.now := by
  induction rest generalizing first with
  | nil =>
    have cached := (bounded first mem_cons_self).1
    have some_ : 0 ≤ resetsAhead snapshot first.now := by
      unfold resetsAhead
      split <;> split <;> norm_num
    rw [length_nil,Nat.cast_zero,mul_zero]
    linarith
  | cons second rest ih =>
    have later := ih (isChain_cons_cons.mp waited).2 fun answer member => bounded answer (mem_cons_of_mem _ member)
    have next : first.now + first.decision.waitMs ≤ second.now := (isChain_cons_cons.mp waited).1
    have progress := wait_progress (bounded first mem_cons_self).2 next (bounded second (mem_cons_of_mem _ mem_cons_self)).1
    rw [length_cons,Nat.cast_succ]
    linarith

theorem chain_ends {given : List Answer} (waited : Waited given)
    (bounded : ∀ answer ∈ given, snapshot.updatedAt ≤ answer.now ∧ 0 < cacheRemainingMs snapshot answer.now ∧
      Bounded settings snapshot answer.now answer.decision) :
    (given.map fun answer => answer.decision.waitMs).sum ≤ RATE_LIMIT_CACHE_TTL_MS ∧ given.length ≤ 3602 := by
  cases given with
  | nil =>
    rw [map_nil,sum_nil,RATE_LIMIT_CACHE_TTL_MS]
    norm_num
  | cons first rest =>
    have seen := (bounded first mem_cons_self).1
    have sum := waits_sum waited fun answer member => (bounded answer member).2.2
    have count := waits_length waited fun answer member => (bounded answer member).2
    have resets : resetsAhead snapshot first.now ≤ 2000 := by
      unfold resetsAhead
      split <;> split <;> norm_num
    rw [cacheRemainingMs,RATE_LIMIT_CACHE_TTL_MS] at sum count
    constructor
    · rw [RATE_LIMIT_CACHE_TTL_MS]
      linarith
    · have few : (rest.length : ℚ) < 3602 := by linarith
      have few_ : rest.length < 3602 := by exact_mod_cast few
      rw [length_cons]
      omega

end

section
variable {settings : Settings}

theorem runs_seen {scheduler : PreemptiveQuotaScheduler} {start now : ℚ} {before : List (ℚ × Call)} (old : 0 ≤ start) (clock : Clocked start before)
    (observed : ∀ call ∈ before, ∀ key snapshot, call.2 = .update key snapshot → snapshot.updatedAt ≤ call.1)
    (entries : Entries (fun snapshot => snapshot.updatedAt ≤ start) scheduler) (later : start ≤ now) (until_ : ∀ call ∈ before, call.1 ≤ now) :
    Entries (fun snapshot => snapshot.updatedAt ≤ now) (runs (step settings) scheduler before) := by
  induction before generalizing start scheduler with
  | nil => exact fun key snapshot there => (entries key snapshot there).trans later
  | cons call before ih =>
    obtain ⟨time,call⟩ := call
    have next := clock.head
    have new := old.trans next
    have aged : Entries (fun snapshot => snapshot.updatedAt ≤ time) scheduler := fun key snapshot there => (entries key snapshot there).trans next
    refine ih new clock.tail (fun other member => observed other (mem_cons_of_mem _ member)) ?_ (until_ _ mem_cons_self)
      fun other member => until_ other (mem_cons_of_mem _ member)
    refine aged.step settings (fun key snapshot same => observed _ mem_cons_self key snapshot same) fun key retryAfterMs => ?_
    exact rateLimited_seen new retryAfterMs fun snapshot there => aged key snapshot there

end

/-- Every window that is nearly used up was observed with its reset, if any reset was. -/
def AllTold (settings : Settings) (calls : List (ℚ × Call)) : Prop :=
  ∀ call ∈ calls, ∀ key snapshot, call.2 = .update key snapshot → Told settings snapshot

/-- Snapshots are passed on no earlier than they were observed. -/
def AllObserved (calls : List (ℚ × Call)) : Prop := ∀ call ∈ calls, ∀ key snapshot, call.2 = .update key snapshot → snapshot.updatedAt ≤ call.1

/-- No answer tells of a prune, where all resets are told; every deferral keeps to its bounds; and
    a chain of deferrals without observations fits into an hour. -/
theorem prunes_unseen_and_deferrals_end (settings : Settings) (calls : List (ℚ × Call)) (clock : Clocked 0 calls) (observed : AllObserved calls) :
    (AllTold settings calls → answers (step settings) empty calls = answers (step settings) empty (withoutPrunes calls) ∧
        answers (step settings) empty calls = answers (unprunedStep settings) empty calls) ∧
      (∀ before key now after, calls = before ++ (now,.getDeferral key) :: after →
        (getDeferral settings (runs (step settings) empty before) key now).2.defer_ = true →
        ∃ snapshot, (runs (step settings) empty before).find key = some snapshot ∧
          Bounded settings snapshot now (getDeferral settings (runs (step settings) empty before) key now).2) ∧
      ∀ before after key, calls = before ++ after → Untouched key after →
        Waited (deferrals key (answers (step settings) (runs (step settings) empty before) after)) →
        ((deferrals key (answers (step settings) (runs (step settings) empty before) after)).map fun answer => answer.decision.waitMs).sum ≤
            RATE_LIMIT_CACHE_TTL_MS ∧
          (deferrals key (answers (step settings) (runs (step settings) empty before) after)).length ≤ 3602 := by
  refine ⟨fun told => ?_,fun before key now after same defers => ?_,fun before after key same untouched waited => ?_⟩
  · have proper : ∀ call ∈ calls, Proper settings call.1 call.2 :=
      fun call member key snapshot same => ⟨observed call member key snapshot same,told call member key snapshot same⟩
    have pruned := follows_answers (step_follows settings) (le_refl 0) clock proper (entries_empty _) fun key => rfl
    have unpruned := follows_answers (unprunedStep_follows settings) (le_refl 0) clock proper (entries_empty _) fun key => rfl
    have kept : ∀ call ∈ withoutPrunes calls, Proper settings call.1 call.2 := fun call member => proper call (mem_of_mem_filter member)
    have without := follows_answers (step_follows settings) (le_refl 0) clock.withoutPrunes kept (entries_empty _) fun key => rfl
    have never := follows_answers (unprunedStep_follows settings) (le_refl 0) clock.withoutPrunes kept (entries_empty _) fun key => rfl
    have removed := unpruned_withoutPrunes settings empty calls
    exact ⟨pruned.trans (unpruned.symm.trans (removed.symm.trans (never.trans without.symm))),pruned.trans unpruned.symm⟩
  · obtain ⟨snapshot,there,-,bounded⟩ := getDeferral_bounded defers
    exact ⟨snapshot,there,bounded⟩
  · subst same
    obtain ⟨now,later,until_,rest⟩ := clock.append
    have before_ : Clocked 0 before := clock.sublist (((sublist_append_left before after).map _).cons_cons _)
    have seen := @runs_seen settings empty 0 now before (le_refl 0) before_
      (fun call member => observed call (mem_append_left _ member)) (entries_empty _) later until_
    cases there : (runs (step settings) empty before).find key with
    | none =>
      have none_ : deferrals key (answers (step settings) (runs (step settings) empty before) after) = [] := by
        refine eq_nil_iff_forall_not_mem.mpr fun answer member => ?_
        obtain ⟨snapshot,some_,-⟩ := deferrals_bounded rest untouched member
        rw [there] at some_
        nomatch some_
      rw [none_,map_nil,sum_nil,RATE_LIMIT_CACHE_TTL_MS]
      norm_num
    | some snapshot =>
      refine @chain_ends settings snapshot _ waited fun answer member => ?_
      obtain ⟨other,some_,after_,cached,bounded⟩ := deferrals_bounded rest untouched member
      obtain rfl := Option.some.inj (there.symm.trans some_)
      exact ⟨(seen key snapshot there).trans after_,cached,bounded⟩

/-- A first window used up until the given time. -/
def usedUp (time reset : ℚ) : QuotaSchedulerSnapshot := ⟨200,⟨some 100,some reset⟩,⟨none,none⟩,time⟩

/-- A prune after the reset, and a question. -/
theorem prune_after_reset_unseen :
    answers (step defaults) empty [(1000,.update "account:model" (usedUp 1000 61000)),(62000,.prune),(63000,.getDeferral "account:model")] =
      answers (step defaults) empty [(1000,.update "account:model" (usedUp 1000 61000)),(63000,.getDeferral "account:model")] := by
  have clock : Clocked 0 [(1000,.update "account:model" (usedUp 1000 61000)),(62000,.prune),(63000,.getDeferral "account:model")] := by
    simp [Clocked]
    norm_num
  refine ((prunes_unseen_and_deferrals_end defaults _ clock ?_).1 ?_).1
  · rintro call member key snapshot same
    simp only [mem_cons,not_mem_nil,or_false] at member
    rcases member with rfl | rfl | rfl
    · cases same
      exact le_refl _
    · nomatch same
    · nomatch same
  · rintro call member key snapshot same
    simp only [mem_cons,not_mem_nil,or_false] at member
    rcases member with rfl | rfl | rfl
    · cases same
      exact Or.inr (Or.inr ⟨fun _ => rfl,fun near => nomatch near⟩)
    · nomatch same
    · nomatch same

/-- A first window used up until no time that is told, beside one that is open. -/
def timeless : QuotaSchedulerSnapshot := ⟨200,⟨some 100,none⟩,⟨some 0,some 2000⟩,1000⟩

theorem timeless_pruned :
    answers (step defaults) empty [(1000,.update "account:model" timeless),(3000,.prune),(4000,.getDeferral "account:model")] ≠
      answers (step defaults) empty [(1000,.update "account:model" timeless),(4000,.getDeferral "account:model")] := by
  decide +kernel

/-- A cap of one second, and a trusted reset after a minute; and a prune that takes a deferral away. -/
theorem trusted_reset_exceeds_cap :
    (¬ ∀ (settings : Settings) (calls : List (ℚ × Call)),Clocked 0 calls → AllObserved calls →
      ∀ answer ∈ answers (step settings) empty calls,answer.decision.waitMs ≤ settings.maxDeferralMs) ∧
    ¬ ∀ (settings : Settings) (calls : List (ℚ × Call)),Clocked 0 calls →
      answers (step settings) empty calls = answers (step settings) empty (withoutPrunes calls) := by
  refine ⟨fun capped => ?_,fun unseen => timeless_pruned (unseen defaults _ ?_)⟩
  case refine_2 =>
    simp [Clocked]
    norm_num
  have clock : Clocked 0 [(1000,.update "account:model" (usedUp 1000 61000)),(1000,.getDeferral "account:model")] := by
    simp [Clocked]
  have observed : AllObserved [(1000,.update "account:model" (usedUp 1000 61000)),(1000,.getDeferral "account:model")] := by
    rintro call member key snapshot same
    simp only [mem_cons,not_mem_nil,or_false] at member
    rcases member with rfl | rfl
    · cases same
      exact le_refl _
    · nomatch same
  have long := capped (configure defaults ⟨none,none,none,none,some 1000⟩) _ clock observed
    ⟨"account:model",1000,true,60000,some .quotaNearExhaustion⟩ (by decide +kernel)
  have cap : ((configure defaults ⟨none,none,none,none,some 1000⟩).maxDeferralMs : ℚ) = 1000 := by decide +kernel
  rw [cap] at long
  norm_num at long

end CodexMultiAuth.PreemptiveQuota
