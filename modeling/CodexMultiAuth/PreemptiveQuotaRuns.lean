import CodexMultiAuth.PreemptiveQuotaLaw

/-!
Runs of the quota scheduler. Its answers are those of a scheduler that never prunes, and
each deferral of a chain takes a second, or the time to one of two resets, or all the
time the snapshot is cached.
-/
namespace CodexMultiAuth.PreemptiveQuota
open PreemptiveQuotaScheduler List

def candidates (window : QuotaSchedulerWindow) (now : ℚ) : List ℚ :=
  ((([window].filter isRateLimitWindow).filterMap fun window => window.resetAtMs).filter fun value => now < value).map fun value => value - now

theorem waitCandidates_eq (snapshot : QuotaSchedulerSnapshot) (now : ℚ) :
    waitCandidates snapshot now = candidates snapshot.primary now ++ candidates snapshot.secondary now := by
  have two : [snapshot.primary,snapshot.secondary] = [snapshot.primary] ++ [snapshot.secondary] := rfl
  rw [waitCandidates,two,filter_append,filterMap_append,filter_append,map_append]
  rfl

theorem mem_candidates {window : QuotaSchedulerWindow} {now wait : ℚ} (member : wait ∈ candidates window now) :
    ∃ reset, window.resetAtMs = some reset ∧ now < reset ∧ wait = reset - now := by
  obtain ⟨reset,inside,rfl⟩ := mem_map.mp member
  obtain ⟨inside,ahead⟩ := mem_filter.mp inside
  obtain ⟨other,among,some_⟩ := mem_filterMap.mp inside
  obtain rfl := mem_singleton.mp (mem_of_mem_filter among)
  exact ⟨reset,some_,of_decide_eq_true ahead,rfl⟩

theorem candidates_elapsed {window : QuotaSchedulerWindow} {now : ℚ} (elapsed : window.elapsed now = true) : candidates window now = [] := by
  refine eq_nil_iff_forall_not_mem.mpr fun wait member => ?_
  obtain ⟨reset,some_,ahead,-⟩ := mem_candidates member
  exact absurd (elapsed_iff.mp elapsed reset some_) (not_le.mpr ahead)

theorem foldl_max_cases (start : ℚ) (waits : List ℚ) : waits.foldl max start = start ∨ waits.foldl max start ∈ waits := by
  induction waits generalizing start with
  | nil => exact Or.inl rfl
  | cons wait waits ih =>
    rw [foldl_cons]
    rcases ih (max start wait) with same | member
    · rcases max_choice start wait with first | second
      · exact Or.inl (same.trans first)
      · exact Or.inr (mem_cons.mpr (Or.inl (same.trans second)))
    · exact Or.inr (mem_cons_of_mem _ member)

theorem longestWait_reset {snapshot : QuotaSchedulerSnapshot} {now : ℚ} (some_ : 0 < longestWait snapshot now) :
    ∃ window ∈ [snapshot.primary,snapshot.secondary], ∃ reset, window.resetAtMs = some reset ∧ now < reset ∧ longestWait snapshot now = reset - now := by
  rcases foldl_max_cases 0 (waitCandidates snapshot now) with none_ | member
  · rw [longestWait,none_] at some_
    exact absurd some_ (lt_irrefl 0)
  · have inside := (congrArg (longestWait snapshot now ∈ ·) (waitCandidates_eq snapshot now)).mp member
    rcases mem_append.mp inside with first | second
    · exact ⟨snapshot.primary,mem_cons_self,mem_candidates first⟩
    · exact ⟨snapshot.secondary,mem_cons_of_mem _ mem_cons_self,mem_candidates second⟩

section
variable {settings : Settings} {snapshot : QuotaSchedulerSnapshot} {now : ℚ} {window : QuotaSchedulerWindow} {threshold : ℤ}

theorem nearWait_cases : nearWait settings snapshot now window threshold = 0 ∨ nearWait settings snapshot now window threshold = settings.maxDeferralMs ∨
    snapshot.status ≠ 429 ∧ ∃ reset, window.resetAtMs = some reset ∧ now < reset ∧
      nearWait settings snapshot now window threshold = min (reset - now) MAX_RATE_LIMIT_DELAY_MS := by
  unfold nearWait
  split
  case isTrue near =>
    unfold trustedResetWaitMs
    split
    case h_1 => exact Or.inr (Or.inl rfl)
    case h_2 reset some_ =>
      split
      case isTrue => exact Or.inr (Or.inl rfl)
      case isFalse =>
        split
        case isTrue => exact Or.inl rfl
        case isFalse ahead => exact Or.inr (Or.inr ⟨near.2,reset,some_,not_le.mp ahead,rfl⟩)
  case isFalse => exact Or.inl rfl

theorem nearWait_elapsed (seen : snapshot.updatedAt ≤ now) (cached : 0 < cacheRemainingMs snapshot now) (elapsed : window.elapsed now = true)
    (told : nearExhausted window threshold = true → window.resetAtMs.isSome = true) : nearWait settings snapshot now window threshold = 0 := by
  unfold nearWait
  split
  case isTrue near =>
    obtain ⟨reset,some_⟩ := Option.isSome_iff_exists.mp (told near.1)
    have recent : ¬ MAX_RATE_LIMIT_DELAY_MS < now - snapshot.updatedAt := by
      rw [cacheRemainingMs,RATE_LIMIT_CACHE_TTL_MS] at cached
      rw [MAX_RATE_LIMIT_DELAY_MS]
      intro long
      linarith
    have trusted : trustedResetWaitMs window snapshot now = some 0 := by
      rw [trustedResetWaitMs,some_]
      exact (if_neg (not_or.mpr ⟨not_lt.mpr seen,recent⟩)).trans (if_pos (elapsed_iff.mp elapsed reset some_))
    rw [trusted,Option.getD_some]
  case isFalse => rfl

theorem nearWait_limited (limited : snapshot.status = 429) : nearWait settings snapshot now window threshold = 0 :=
  if_neg fun near => near.2 limited

end

/-! ### One deferral -/

section
variable {settings : Settings} {snapshot : QuotaSchedulerSnapshot} {now : ℚ}

def Ahead (snapshot : QuotaSchedulerSnapshot) (now reset : ℚ) : Prop :=
  now < reset ∧ (snapshot.primary.resetAtMs = some reset ∨ snapshot.secondary.resetAtMs = some reset)

/-- What a deferral keeps to. -/
structure Bounded (settings : Settings) (snapshot : QuotaSchedulerSnapshot) (now : ℚ) (decision : QuotaDeferralDecision) : Prop where
  positive : 0 < decision.waitMs
  remaining : decision.waitMs ≤ cacheRemainingMs snapshot now
  /-- Beyond the cap only towards a trusted reset, and not under a rate limit. -/
  capped : decision.waitMs ≤ settings.maxDeferralMs ∨
    decision.reason = some .quotaNearExhaustion ∧ snapshot.status ≠ 429 ∧
      ∃ reset, Ahead snapshot now reset ∧ decision.waitMs ≤ min (reset - now) MAX_RATE_LIMIT_DELAY_MS
  steady : decision.waitMs = cacheRemainingMs snapshot now ∨ 1000 ≤ decision.waitMs ∨ ∃ reset, Ahead snapshot now reset ∧ decision.waitMs = reset - now

theorem cap_ge (settings : Settings) : (1000 : ℚ) ≤ settings.maxDeferralMs := by
  exact_mod_cast settings.floor_deferral

theorem ahead_of_mem {window : QuotaSchedulerWindow} (member : window ∈ [snapshot.primary,snapshot.secondary]) {reset : ℚ}
    (some_ : window.resetAtMs = some reset) (ahead : now < reset) : Ahead snapshot now reset := by
  rcases mem_pair.mp member with rfl | rfl
  · exact ⟨ahead,Or.inl some_⟩
  · exact ⟨ahead,Or.inr some_⟩

theorem nearExhaustedWait_cases (some_ : 0 < nearExhaustedWait settings snapshot now) :
    nearExhaustedWait settings snapshot now = settings.maxDeferralMs ∨
      snapshot.status ≠ 429 ∧ ∃ reset, Ahead snapshot now reset ∧ nearExhaustedWait settings snapshot now = min (reset - now) MAX_RATE_LIMIT_DELAY_MS := by
  obtain ⟨window,threshold,member,same⟩ : ∃ window threshold, window ∈ [snapshot.primary,snapshot.secondary] ∧
      nearExhaustedWait settings snapshot now = nearWait settings snapshot now window threshold := by
    rcases max_choice (nearWait settings snapshot now snapshot.primary settings.primaryRemainingPercentThreshold)
      (nearWait settings snapshot now snapshot.secondary settings.secondaryRemainingPercentThreshold) with first | second
    · exact ⟨snapshot.primary,_,mem_cons_self,first⟩
    · exact ⟨snapshot.secondary,_,mem_cons_of_mem _ mem_cons_self,second⟩
  rw [same] at some_ ⊢
  rcases @nearWait_cases settings snapshot now window threshold with
    none_ | capped | ⟨plain,reset,known,ahead,wait⟩
  · exact absurd none_ some_.ne'
  · exact Or.inl capped
  · exact Or.inr ⟨plain,reset,ahead_of_mem member known ahead,wait⟩

theorem deferralOf_bounded (cached : 0 < cacheRemainingMs snapshot now) (defers : (deferralOf settings snapshot now).defer_ = true) :
    Bounded settings snapshot now (deferralOf settings snapshot now) := by
  have cap := cap_ge settings
  unfold deferralOf at defers ⊢
  dsimp only at defers ⊢
  split
  case isTrue limited =>
    obtain ⟨-,longest,positive⟩ := limited
    refine ⟨positive,min_le_right _ _,Or.inl ((min_le_left _ _).trans (min_le_right _ _)),?_⟩
    rcases min_choice (min (longestWait snapshot now) settings.maxDeferralMs) (cacheRemainingMs snapshot now) with inner | whole
    · rcases min_choice (longestWait snapshot now) (settings.maxDeferralMs : ℚ) with wait | capped
      · obtain ⟨window,member,reset,some_,ahead,same⟩ := longestWait_reset longest
        exact Or.inr (Or.inr ⟨reset,ahead_of_mem member some_ ahead,(inner.trans wait).trans same⟩)
      · exact Or.inr (Or.inl (cap.trans (inner.trans capped).ge))
    · exact Or.inl whole
  case isFalse other =>
    rw [if_neg other] at defers
    split
    case isTrue near =>
      refine ⟨lt_min near cached,min_le_right _ _,?_,?_⟩
      · rcases nearExhaustedWait_cases near with capped | ⟨plain,reset,ahead,wait⟩
        · exact Or.inl ((min_le_left _ _).trans capped.le)
        · exact Or.inr ⟨rfl,plain,reset,ahead,(min_le_left _ _).trans wait.le⟩
      · rcases min_choice (nearExhaustedWait settings snapshot now) (cacheRemainingMs snapshot now) with inner | whole
        · rcases nearExhaustedWait_cases near with capped | ⟨-,reset,ahead,wait⟩
          · exact Or.inr (Or.inl (cap.trans (inner.trans capped).ge))
          · rcases min_choice (reset - now) MAX_RATE_LIMIT_DELAY_MS with toReset | long
            · exact Or.inr (Or.inr ⟨reset,ahead,(inner.trans wait).trans toReset⟩)
            · refine Or.inr (Or.inl (le_trans ?_ ((inner.trans wait).trans long).ge))
              rw [MAX_RATE_LIMIT_DELAY_MS]
              norm_num
        · exact Or.inl whole
    case isFalse none_ =>
      rw [if_neg none_] at defers
      exact absurd defers Bool.false_ne_true

/-- Every window that is nearly used up has a reset, if any has. -/
def Told (settings : Settings) (snapshot : QuotaSchedulerSnapshot) : Prop :=
  snapshot.status = 429 ∨ latestReset snapshot ≤ 0 ∨
    (nearExhausted snapshot.primary settings.primaryRemainingPercentThreshold = true → snapshot.primary.resetAtMs.isSome = true) ∧
      (nearExhausted snapshot.secondary settings.secondaryRemainingPercentThreshold = true → snapshot.secondary.resetAtMs.isSome = true)

theorem deferralOf_none (limited : longestWait snapshot now = 0) (near : nearExhaustedWait settings snapshot now = 0) :
    deferralOf settings snapshot now = proceed := by
  unfold deferralOf
  rw [limited,near]
  simp

theorem deferralOf_expired (seen : snapshot.updatedAt ≤ now) (cached : 0 < cacheRemainingMs snapshot now) (told : Told settings snapshot)
    (gone : expired now snapshot = true) : deferralOf settings snapshot now = proceed := by
  obtain ⟨first,second⟩ := expired_elapsed gone
  refine deferralOf_none ?_ ?_
  · rw [longestWait,waitCandidates_eq,candidates_elapsed first,candidates_elapsed second]
    rfl
  · rw [nearExhaustedWait]
    rcases told with limited | never | ⟨primary,secondary⟩
    · rw [nearWait_limited limited,nearWait_limited limited,max_self]
    · exact absurd (expired_iff.mp gone).1 (not_lt.mpr never)
    · rw [nearWait_elapsed seen cached first primary,nearWait_elapsed seen cached second secondary,max_self]

theorem deferralOf_first (limited : snapshot.status = 429) (elapsed : snapshot.secondary.elapsed now = true) :
    deferralOf settings snapshot.first now = deferralOf settings snapshot now := by
  have longest : longestWait snapshot.first now = longestWait snapshot now := by
    have none_ : candidates snapshot.first.secondary now = [] := candidates_elapsed rfl
    rw [longestWait,longestWait,waitCandidates_eq,waitCandidates_eq,candidates_elapsed elapsed,none_]
    rfl
  have near : nearExhaustedWait settings snapshot.first now = nearExhaustedWait settings snapshot now := by
    have limited_ : snapshot.first.status = 429 := limited
    rw [nearExhaustedWait,nearExhaustedWait,nearWait_limited limited,nearWait_limited limited,nearWait_limited limited_,nearWait_limited limited_]
  unfold deferralOf
  rw [longest,near]
  rfl

end

def Entries (holds : QuotaSchedulerSnapshot → Prop) (scheduler : PreemptiveQuotaScheduler) : Prop :=
  ∀ key snapshot, scheduler.find key = some snapshot → holds snapshot

section
variable {holds : QuotaSchedulerSnapshot → Prop} {scheduler : PreemptiveQuotaScheduler}

section
variable (entries : Entries holds scheduler)
include entries

theorem Entries.maybePrune (now : ℚ) : Entries holds (scheduler.maybePrune now) :=
  fun key snapshot there => entries key snapshot (maybePrune_some scheduler there)

theorem Entries.set (key : String) {snapshot : QuotaSchedulerSnapshot} (new : holds snapshot) :
    Entries holds (scheduler.set key snapshot) := by
  intro other found there
  rw [find_set] at there
  split at there
  case isTrue => exact Option.some.inj there ▸ new
  case isFalse => exact entries other found there

theorem Entries.drop (drops : String → Bool) : Entries holds (scheduler.drop drops) := by
  intro key snapshot there
  rw [find_drop] at there
  split at there
  case isTrue => nomatch there
  case isFalse => exact entries key snapshot there

theorem Entries.prune (now : ℚ) : Entries holds (scheduler.prune now).1 := by
  intro key snapshot there
  rw [find_prune] at there
  exact entries key snapshot (Option.filter_eq_some_iff.mp there).1

theorem Entries.clearByPrefix (start : String) : Entries holds (scheduler.clearByPrefix start) := by
  unfold PreemptiveQuotaScheduler.clearByPrefix
  split
  case isTrue => exact entries
  case isFalse => exact entries.drop _

theorem Entries.answer (settings : Settings) (key : String) (now : ℚ) :
    Entries holds (scheduler.answer settings key now).1 := by
  unfold PreemptiveQuotaScheduler.answer
  split
  · split
    · exact entries
    · split
      · exact entries.drop _
      · exact entries
  · exact entries

theorem Entries.markRateLimited (key : String) (retryAfterMs : Option ℚ) {now : ℚ}
    (new : holds (rateLimited (scheduler.find key) retryAfterMs now)) : Entries holds (scheduler.markRateLimited key retryAfterMs now) := by
  unfold PreemptiveQuotaScheduler.markRateLimited
  split
  case isTrue => exact entries
  case isFalse => exact entries.set key new

theorem Entries.update (key : String) {snapshot : QuotaSchedulerSnapshot} {now : ℚ} (new : holds snapshot) :
    Entries holds (scheduler.update key snapshot now) := by
  unfold PreemptiveQuotaScheduler.update
  split
  case isTrue => exact entries
  case isFalse => exact (entries.maybePrune _).set key new

theorem Entries.step (settings : Settings) {now : ℚ} {call : Call}
    (updates : ∀ key snapshot, call = .update key snapshot → holds snapshot)
    (limits : ∀ key retryAfterMs, holds (rateLimited (scheduler.find key) retryAfterMs now)) : Entries holds (step settings scheduler now call).1 := by
  cases call with
  | update key snapshot => exact entries.update key (updates key snapshot rfl)
  | markRateLimited key retryAfterMs => exact entries.markRateLimited key retryAfterMs (limits key retryAfterMs)
  | prune => exact entries.prune now
  | clear key => exact entries.drop _
  | clearByPrefix start => exact entries.clearByPrefix start
  | clearAll => exact entries.drop _
  | getDeferral key => exact (entries.maybePrune now).answer settings key now

theorem Entries.unprunedStep (settings : Settings) {now : ℚ} {call : Call}
    (updates : ∀ key snapshot, call = .update key snapshot → holds snapshot)
    (limits : ∀ key retryAfterMs, holds (rateLimited (scheduler.find key) retryAfterMs now)) :
    Entries holds (unprunedStep settings scheduler now call).1 := by
  cases call with
  | update key snapshot =>
    rw [PreemptiveQuota.unprunedStep]
    split
    case isTrue => exact entries
    case isFalse => exact entries.set key (updates key snapshot rfl)
  | prune => exact entries
  | getDeferral key => exact entries.answer settings key now
  | markRateLimited key retryAfterMs => exact entries.step settings updates limits
  | clear key => exact entries.step settings updates limits
  | clearByPrefix start => exact entries.step settings updates limits
  | clearAll => exact entries.step settings updates limits

end

end

/-! ### What calls see -/

/-- The decision from what is seen of a snapshot. -/
def heard (settings : Settings) (now : ℚ) (seen : Option QuotaSchedulerSnapshot) : QuotaDeferralDecision :=
  if settings.enabled then
    match seen with
    | none => proceed
    | some snapshot => if cacheRemainingMs snapshot now ≤ 0 then proceed else deferralOf settings snapshot now
  else proceed

def outlived (settings : Settings) (now : ℚ) (seen : Option QuotaSchedulerSnapshot) : Bool :=
  settings.enabled && seen.any fun snapshot => cacheRemainingMs snapshot now ≤ 0

/-- A call to the remnants. -/
def seenStep (settings : Settings) (now : ℚ) (seen : String → Option QuotaSchedulerSnapshot) :
    Call → (String → Option QuotaSchedulerSnapshot) × Option Answer
  | .update key snapshot => (fun other => if key ≠ "" ∧ key = other then remnant now snapshot else seen other,none)
  | .markRateLimited key retryAfterMs =>
    (fun other => if key ≠ "" ∧ key = other then remnant now (rateLimited (seen key) retryAfterMs now) else seen other,none)
  | .prune => (seen,none)
  | .clear key => (fun other => if other = key then none else seen other,none)
  | .clearByPrefix start => (fun other => if start ≠ "" ∧ start.toList.isPrefixOf other.toList then none else seen other,none)
  | .clearAll => (fun _ => none,none)
  | .getDeferral key =>
    (fun other => if outlived settings now (seen key) ∧ other = key then none else seen other,some ⟨key,now,heard settings now (seen key)⟩)

/-- Answers from remnants, which grow less with time. -/
def seenAnswers (settings : Settings) (seen : String → Option QuotaSchedulerSnapshot) : List (ℚ × Call) → List Answer
  | [] => []
  | (now,call) :: calls =>
    let left := seenStep settings now (fun key => (seen key).bind (remnant now)) call
    left.2.toList ++ seenAnswers settings left.1 calls

/-- Seen by now, with the resets it should have. -/
def Sound (settings : Settings) (now : ℚ) (snapshot : QuotaSchedulerSnapshot) : Prop := snapshot.updatedAt ≤ now ∧ Told settings snapshot

section
variable {settings : Settings} {scheduler : PreemptiveQuotaScheduler} {now : ℚ}

theorem remnant_updatedAt {snapshot left : QuotaSchedulerSnapshot} (seen : remnant now snapshot = some left) : left.updatedAt = snapshot.updatedAt := by
  unfold remnant at seen
  split at seen
  · nomatch seen
  · split at seen
    · rw [← Option.some.inj seen]
      rfl
    · rw [← Option.some.inj seen]

theorem heard_remnant {snapshot : QuotaSchedulerSnapshot} (sound : Sound settings now snapshot) :
    heard settings now (some snapshot) = heard settings now (remnant now snapshot) := by
  unfold heard
  split
  case isFalse => rfl
  case isTrue =>
    by_cases over_ : cacheRemainingMs snapshot now ≤ 0
    · cases seen : remnant now snapshot with
      | none => exact if_pos over_
      | some left =>
        have same : cacheRemainingMs left now = cacheRemainingMs snapshot now := by rw [cacheRemainingMs,cacheRemainingMs,remnant_updatedAt seen]
        exact (if_pos over_).trans (if_pos (same ▸ over_)).symm
    · by_cases gone : expired now snapshot = true
      · rw [remnant_expired gone]
        exact (if_neg over_).trans (deferralOf_expired sound.1 (not_le.mp over_) sound.2 gone)
      · by_cases limited : snapshot.status = 429 ∧ snapshot.secondary.elapsed now = true
        · rw [remnant_first gone limited]
          exact (if_neg over_).trans ((if_neg over_).trans (deferralOf_first limited.1 limited.2)).symm
        · rw [remnant_whole gone limited]

theorem answer_seen (entries : Entries (Sound settings now) scheduler) (key : String) :
    (scheduler.answer settings key now).2 = heard settings now (view now scheduler key) := by
  have stored : (scheduler.answer settings key now).2 = heard settings now (scheduler.find key) := by
    unfold PreemptiveQuotaScheduler.answer heard
    cases scheduler.find key with
    | none => split <;> rfl
    | some snapshot =>
      dsimp only
      split
      · split <;> rfl
      · rfl
  rw [stored,view]
  cases there : scheduler.find key with
  | none => rfl
  | some snapshot => exact heard_remnant (entries key snapshot there)

theorem answer_view (key other : String) :
    view now (scheduler.answer settings key now).1 other =
      if outlived settings now (view now scheduler key) ∧ other = key then none else view now scheduler other := by
  by_cases same : other = key
  · subst same
    cases there : scheduler.find other with
    | none =>
      have none_ : view now scheduler other = none := by rw [view,there,Option.bind_none]
      have unchanged : (scheduler.answer settings other now).1 = scheduler := by
        rw [PreemptiveQuotaScheduler.answer,there]
        split <;> rfl
      rw [unchanged,none_,ite_self]
    | some snapshot =>
      have seen : view now scheduler other = remnant now snapshot := by rw [view,there,Option.bind_some]
      by_cases over_ : settings.enabled = true ∧ cacheRemainingMs snapshot now ≤ 0
      · have cleared : (scheduler.answer settings other now).1 = scheduler.clear other := by
          simp [PreemptiveQuotaScheduler.answer,there,over_.1,over_.2]
        rw [cleared,PreemptiveQuotaScheduler.clear,view_drop,decide_eq_true rfl,if_pos rfl]
        split
        case isTrue => rfl
        case isFalse keeps =>
          rw [seen] at keeps ⊢
          cases left : remnant now snapshot with
          | none => rfl
          | some left_ =>
            have same : cacheRemainingMs left_ now = cacheRemainingMs snapshot now := by rw [cacheRemainingMs,cacheRemainingMs,remnant_updatedAt left]
            exact absurd ⟨by simp [left,outlived,over_.1,same,over_.2],rfl⟩ keeps
      · have unchanged : (scheduler.answer settings other now).1 = scheduler := by
          rw [PreemptiveQuotaScheduler.answer,there]
          split
          case isTrue enabled => exact congrArg Prod.fst (if_neg fun gone => over_ ⟨enabled,gone⟩)
          case isFalse => rfl
        rw [unchanged,if_neg]
        rintro ⟨gone,-⟩
        rw [outlived,seen,Bool.and_eq_true,Option.any_eq_true] at gone
        obtain ⟨enabled,left_,left,ended⟩ := gone
        have same : cacheRemainingMs left_ now = cacheRemainingMs snapshot now := by rw [cacheRemainingMs,cacheRemainingMs,remnant_updatedAt left]
        exact over_ ⟨enabled,same ▸ of_decide_eq_true ended⟩
  · rw [if_neg fun both => same both.2]
    unfold PreemptiveQuotaScheduler.answer
    split
    · split
      · rfl
      · split
        · rw [PreemptiveQuotaScheduler.clear,view_drop,decide_eq_false same]
          rfl
        · rfl
    · rfl

end

end CodexMultiAuth.PreemptiveQuota
