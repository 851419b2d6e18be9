import CodexMultiAuth.PreemptiveQuota

/-!
What pruning leaves unseen. Of a snapshot only its remnant matters: nothing once all resets
have passed, and no second window whose reset has passed where there is a rate limit. Two
schedulers with the same remnants answer alike, and a prune keeps all remnants.
-/
namespace CodexMultiAuth.PreemptiveQuota
open PreemptiveQuotaScheduler

theorem find_filter {snapshots : OrderedMap String QuotaSchedulerSnapshot} (distinct : snapshots.keys.Nodup)
    (keeps : String × QuotaSchedulerSnapshot → Bool) (key : String) :
    OrderedMap.find (snapshots.filter keeps) key = (snapshots.find key).filter fun snapshot => keeps (key,snapshot) := by
  induction snapshots with
  | nil => rfl
  | cons entry snapshots ih =>
    obtain ⟨name,snapshot⟩ := entry
    obtain ⟨fresh,rest⟩ := List.nodup_cons.mp distinct
    have later := ih rest
    rw [OrderedMap.find_cons]
    by_cases same : name = key
    · have absent : OrderedMap.find snapshots key = none := OrderedMap.find_eq_none.mpr (same ▸ fresh)
      rw [absent] at later
      rw [if_pos same,← same]
      rw [← same] at later
      cases kept : keeps (name,snapshot) with
      | true => simp [kept,OrderedMap.find_cons,Option.filter]
      | false => simpa [List.filter_cons,kept,Option.filter] using later
    · rw [if_neg same,← later]
      cases kept : keeps (name,snapshot) <;> simp [kept,OrderedMap.find_cons,same]

section
variable (scheduler : PreemptiveQuotaScheduler)

@[simp] theorem find_set (key other : String) (snapshot : QuotaSchedulerSnapshot) :
    (scheduler.set key snapshot).find other = if key = other then some snapshot else scheduler.find other :=
  OrderedMap.find_put _ _ _ _

@[simp] theorem find_drop (drops : String → Bool) (key : String) :
    (scheduler.drop drops).find key = if drops key then none else scheduler.find key := by
  rw [find,drop,find_filter scheduler.distinct]
  cases dropped : drops key <;> cases there : scheduler.snapshots.find key <;> simp [find,there,Option.filter,dropped]

@[simp] theorem find_prune (now : ℚ) (key : String) :
    (scheduler.prune now).1.find key = (scheduler.find key).filter fun snapshot => !expired now snapshot :=
  find_filter scheduler.distinct _ _

theorem find_maybePrune (now : ℚ) (key : String) :
    (scheduler.maybePrune now).find key = scheduler.find key ∨
      (scheduler.maybePrune now).find key = (scheduler.find key).filter fun snapshot => !expired now snapshot := by
  unfold maybePrune
  split
  case isTrue => exact Or.inl rfl
  case isFalse => exact Or.inr (find_prune scheduler now key)

theorem maybePrune_some {now : ℚ} {key : String} {snapshot : QuotaSchedulerSnapshot} (there : (scheduler.maybePrune now).find key = some snapshot) :
    scheduler.find key = some snapshot := by
  rcases find_maybePrune scheduler now key with same | kept
  · exact same ▸ there
  · rw [kept] at there
    exact (Option.filter_eq_some_iff.mp there).1

end

/-! ### Remnants -/

/-- No reset is ahead. -/
def QuotaSchedulerWindow.elapsed (now : ℚ) (window : QuotaSchedulerWindow) : Bool := window.resetAtMs.all fun reset => reset ≤ now

/-- A snapshot without its second window. -/
def QuotaSchedulerSnapshot.first (snapshot : QuotaSchedulerSnapshot) : QuotaSchedulerSnapshot := { snapshot with secondary := ⟨none,none⟩ }

/-- What a snapshot still has to say. -/
def remnant (now : ℚ) (snapshot : QuotaSchedulerSnapshot) : Option QuotaSchedulerSnapshot :=
  if expired now snapshot then none
  else if snapshot.status = 429 ∧ snapshot.secondary.elapsed now then some snapshot.first
  else some snapshot

def view (now : ℚ) (scheduler : PreemptiveQuotaScheduler) (key : String) : Option QuotaSchedulerSnapshot := (scheduler.find key).bind (remnant now)

variable {now : ℚ} {snapshot : QuotaSchedulerSnapshot}

theorem remnant_expired (gone : expired now snapshot = true) : remnant now snapshot = none := if_pos gone

theorem remnant_first (stays : ¬ expired now snapshot = true)
    (limited : snapshot.status = 429 ∧ snapshot.secondary.elapsed now = true) : remnant now snapshot = some snapshot.first :=
  (if_neg stays).trans (if_pos limited)

theorem remnant_whole (stays : ¬ expired now snapshot = true)
    (whole : ¬ (snapshot.status = 429 ∧ snapshot.secondary.elapsed now = true)) : remnant now snapshot = some snapshot :=
  (if_neg stays).trans (if_neg whole)

variable {window : QuotaSchedulerWindow}

theorem elapsed_iff : window.elapsed now = true ↔ ∀ reset, window.resetAtMs = some reset → reset ≤ now := by
  rw [QuotaSchedulerWindow.elapsed,Option.all_eq_true]
  exact forall_congr' fun reset => by rw [decide_eq_true_eq]

theorem elapsed_getD (old : 0 ≤ now) (elapsed : window.elapsed now = true) : window.resetAtMs.getD 0 ≤ now := by
  cases some_ : window.resetAtMs with
  | none => exact old
  | some reset => exact elapsed_iff.mp elapsed reset some_

variable {now later : ℚ}

theorem elapsed_later (after_ : now ≤ later) (elapsed : window.elapsed now = true) :
    window.elapsed later = true := elapsed_iff.mpr fun reset some_ => (elapsed_iff.mp elapsed reset some_).trans after_

theorem expired_iff : expired now snapshot = true ↔ 0 < latestReset snapshot ∧ latestReset snapshot ≤ now := by
  simp [expired]

theorem expired_later (after_ : now ≤ later) (old : expired now snapshot = true) :
    expired later snapshot = true := by
  obtain ⟨positive,passed⟩ := expired_iff.mp old
  exact expired_iff.mpr ⟨positive,passed.trans after_⟩

theorem expired_first (old : 0 ≤ now) (fresh : ¬ expired now snapshot = true)
    (elapsed : snapshot.secondary.elapsed now = true) :
    (expired later snapshot.first = true ↔ expired later snapshot = true) := by
  have passed := elapsed_getD old elapsed
  rw [expired_iff] at fresh
  rw [expired_iff,expired_iff]
  by_cases ahead : now < latestReset snapshot
  · have first : latestReset snapshot = snapshot.primary.resetAtMs.getD 0 := by
      rcases max_choice (snapshot.primary.resetAtMs.getD 0) (snapshot.secondary.resetAtMs.getD 0) with one | other
      · exact one
      · have equal : latestReset snapshot = snapshot.secondary.resetAtMs.getD 0 := other
        rw [equal] at ahead
        exact absurd passed (not_le.mpr ahead)
    have same : latestReset snapshot.first = latestReset snapshot := by
      rw [first]
      rw [first] at ahead
      exact max_eq_left (old.trans ahead.le)
    rw [same]
  · have never : ¬ 0 < latestReset snapshot := fun positive => fresh ⟨positive,not_lt.mp ahead⟩
    have below : snapshot.primary.resetAtMs.getD 0 ≤ 0 := (le_max_left _ _).trans (not_lt.mp never)
    have zero : latestReset snapshot.first = 0 := max_eq_right below
    rw [zero]
    exact ⟨fun holds => absurd holds.1 (lt_irrefl 0),fun holds => absurd holds.1 never⟩

theorem remnant_later (old : 0 ≤ now) (after_ : now ≤ later) (snapshot : QuotaSchedulerSnapshot) :
    (remnant now snapshot).bind (remnant later) = remnant later snapshot := by
  by_cases gone : expired now snapshot = true
  · rw [remnant_expired gone,remnant_expired (expired_later after_ gone),Option.bind_none]
  · by_cases limited : snapshot.status = 429 ∧ snapshot.secondary.elapsed now = true
    · have alike := @expired_first snapshot now later old gone limited.2
      rw [remnant_first gone limited,Option.bind_some]
      by_cases goes : expired later snapshot = true
      · rw [remnant_expired goes,remnant_expired (alike.mpr goes)]
      · rw [remnant_first goes ⟨limited.1,elapsed_later after_ limited.2⟩]
        exact remnant_first (fun also_ => goes (alike.mp also_)) ⟨limited.1,rfl⟩
    · rw [remnant_whole gone limited,Option.bind_some]

theorem view_later (old : 0 ≤ now) (after_ : now ≤ later) (scheduler : PreemptiveQuotaScheduler) (key : String) :
    view later scheduler key = (view now scheduler key).bind (remnant later) := by
  rw [view,view]
  cases scheduler.find key with
  | none => rfl
  | some snapshot => exact (remnant_later old after_ snapshot).symm

theorem view_prune (after_ : now ≤ later) (scheduler : PreemptiveQuotaScheduler) (key : String) :
    view later (scheduler.prune now).1 key = view later scheduler key := by
  rw [view,view,find_prune]
  cases scheduler.find key with
  | none => rfl
  | some snapshot =>
    cases gone : expired now snapshot with
    | false => simp [Option.filter,gone]
    | true =>
      have still := remnant_expired (expired_later after_ gone)
      simp [Option.filter,gone,still]

theorem view_maybePrune (after_ : now ≤ later) (scheduler : PreemptiveQuotaScheduler) (key : String) :
    view later (scheduler.maybePrune now) key = view later scheduler key := by
  unfold maybePrune
  split
  case isTrue => rfl
  case isFalse => exact view_prune after_ scheduler key

@[simp] theorem view_set (now : ℚ) (scheduler : PreemptiveQuotaScheduler) (key other : String) (snapshot : QuotaSchedulerSnapshot) :
    view now (scheduler.set key snapshot) other = if key = other then remnant now snapshot else view now scheduler other := by
  rw [view,find_set]
  split
  case isTrue => rfl
  case isFalse => rfl

@[simp] theorem view_drop (now : ℚ) (scheduler : PreemptiveQuotaScheduler) (drops : String → Bool) (key : String) :
    view now (scheduler.drop drops) key = if drops key then none else view now scheduler key := by
  rw [view,find_drop]
  split
  case isTrue => rfl
  case isFalse => rfl

theorem remnant_alone (old : 0 ≤ now) (limited : snapshot.status = 429)
    (elapsed : snapshot.secondary.elapsed now = true) (ahead : now ≤ snapshot.primary.resetAtMs.getD 0) :
    remnant now snapshot = remnant now snapshot.first := by
  have one : latestReset snapshot = snapshot.primary.resetAtMs.getD 0 := max_eq_left ((elapsed_getD old elapsed).trans ahead)
  have other : latestReset snapshot.first = snapshot.primary.resetAtMs.getD 0 := max_eq_left (old.trans ahead)
  have alike : expired now snapshot.first = expired now snapshot := by rw [expired,expired,one,other]
  by_cases gone : expired now snapshot = true
  · rw [remnant_expired gone,remnant_expired (alike.trans gone)]
  · rw [remnant_first gone ⟨limited,elapsed⟩]
    exact (remnant_first (fun also_ => gone (alike ▸ also_)) ⟨limited,rfl⟩).symm

theorem wait_nonneg (retryAfterMs : Option ℚ) : (0 : ℚ) ≤ (((retryAfterMs.map fun value => max 0 ⌊value⌋).getD 0 : ℤ) : ℚ) := by
  cases retryAfterMs with
  | none => exact le_refl _
  | some value => exact Int.cast_nonneg (le_max_left _ _)

theorem existing_le : existingPrimaryResetAtMs (some snapshot) ≤ max 0 (latestReset snapshot) := by
  unfold existingPrimaryResetAtMs
  split
  case h_1 => exact le_max_left _ _
  case h_2 existing same =>
    obtain rfl := Option.some.inj same
    split
    case isTrue => exact (le_max_left _ _).trans (le_max_right _ _)
    case isFalse => exact le_max_left _ _

theorem expired_elapsed (gone : expired now snapshot = true) :
    snapshot.primary.elapsed now = true ∧ snapshot.secondary.elapsed now = true := by
  have passed := (expired_iff.mp gone).2
  constructor
  · refine elapsed_iff.mpr fun reset some_ => ?_
    have below : snapshot.primary.resetAtMs.getD 0 ≤ latestReset snapshot := le_max_left _ _
    rw [some_] at below
    exact below.trans passed
  · refine elapsed_iff.mpr fun reset some_ => ?_
    have below : snapshot.secondary.resetAtMs.getD 0 ≤ latestReset snapshot := le_max_right _ _
    rw [some_] at below
    exact below.trans passed

theorem remnant_rateLimited (old : 0 ≤ now) {existing : Option QuotaSchedulerSnapshot} (retryAfterMs : Option ℚ)
    (observed : ∀ snapshot, existing = some snapshot → snapshot.updatedAt ≤ now) :
    remnant now (rateLimited existing retryAfterMs now) = remnant now (rateLimited (existing.bind (remnant now)) retryAfterMs now) := by
  cases existing with
  | none => rfl
  | some snapshot =>
    rw [Option.bind_some]
    obtain ⟨wait,asked⟩ : ∃ wait : ℚ, wait = (((retryAfterMs.map fun value => max 0 ⌊value⌋).getD 0 : ℤ) : ℚ) := ⟨_,rfl⟩
    have some_ : 0 ≤ wait := asked ▸ wait_nonneg retryAfterMs
    have ahead : ∀ before, now ≤ (rateLimited before retryAfterMs now).primary.resetAtMs.getD 0 := by
      intro before
      refine le_trans ?_ (le_max_right _ _)
      rw [← asked]
      linarith
    by_cases gone : expired now snapshot = true
    · have passed : existingPrimaryResetAtMs (some snapshot) ≤ now := existing_le.trans (max_le old (expired_iff.mp gone).2)
      have seen := observed snapshot rfl
      have same : (rateLimited (some snapshot) retryAfterMs now).first = rateLimited none retryAfterMs now := by
        have reset : max (existingPrimaryResetAtMs (some snapshot)) (now + wait) = max (existingPrimaryResetAtMs none) (now + wait) := by
          have zero : existingPrimaryResetAtMs none = 0 := rfl
          rw [zero,max_eq_right (by linarith),max_eq_right (by linarith)]
        have updated : max snapshot.updatedAt now = max 0 now := by rw [max_eq_right seen,max_eq_right old]
        unfold rateLimited QuotaSchedulerSnapshot.first
        simp only [Option.map_some,Option.getD_some,Option.map_none,Option.getD_none,updated,← asked]
        exact congrArg (fun reset => (⟨429,⟨some 100,some reset⟩,⟨none,none⟩,max 0 now⟩ : QuotaSchedulerSnapshot)) reset
      rw [remnant_expired gone,← same]
      exact remnant_alone old rfl (expired_elapsed gone).2 (ahead _)
    · by_cases limited : snapshot.status = 429 ∧ snapshot.secondary.elapsed now = true
      · rw [remnant_first gone limited]
        exact remnant_alone old rfl limited.2 (ahead _)
      · rw [remnant_whole gone limited]

end CodexMultiAuth.PreemptiveQuota
