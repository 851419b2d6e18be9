import CodexMultiAuth.CircuitBreaker

/-!
The probes of a circuit breaker one by one. A request holds the release of its probe,
may use it more than once, and reports success or failure whenever it ends.
-/
namespace CodexMultiAuth.RuntimeProxy

namespace CircuitBreaker
variable (config : CircuitBreakerConfig) (now : ℚ) (breaker : CircuitBreaker)

def isAvailable : Bool :=
  match breaker.state with
  | .open_ => decide (config.resetTimeoutMs ≤ now - breaker.lastStateChange)
  | .halfOpen => decide (breaker.halfOpenAttempts < config.halfOpenMaxAttempts) || hasHalfOpenProbeWaitElapsed config now breaker
  | .closed => true

def getTimeUntilAvailable : ℚ :=
  match breaker.state with
  | .open_ => retryAfterMs config now breaker
  | .halfOpen => if config.halfOpenMaxAttempts ≤ breaker.halfOpenAttempts then retryAfterMs config now breaker else 0
  | .closed => 0

def Admits : Prop := ∃ probe, (breaker.tryCanExecute config now).1 = .admitted probe

variable {config now breaker}

theorem retryAfterMs_eq_zero : retryAfterMs config now breaker = 0 ↔ config.resetTimeoutMs ≤ now - breaker.lastStateChange := by
  unfold retryAfterMs
  rw [max_eq_left_iff,sub_nonpos]

theorem hasHalfOpenProbeWaitElapsed_iff :
    hasHalfOpenProbeWaitElapsed config now breaker = true ↔ config.resetTimeoutMs ≤ now - breaker.lastStateChange := decide_eq_true_iff

theorem acquire_admits (other : CircuitBreaker) : ∃ probe, other.acquire.1 = .admitted probe := ⟨_,rfl⟩

theorem tryProbe_admits (some_ : 1 ≤ config.halfOpenMaxAttempts) :
    (∃ probe, (breaker.tryProbe config now).1 = .admitted probe) ↔
      breaker.halfOpenAttempts < config.halfOpenMaxAttempts ∨ config.resetTimeoutMs ≤ now - breaker.lastStateChange := by
  unfold tryProbe
  dsimp only
  by_cases unused : breaker.halfOpenAttempts = 0
  · have room : ¬config.halfOpenMaxAttempts ≤ (resetHalfOpenProbeWindow now breaker).halfOpenAttempts :=
      not_le.mpr (lt_of_lt_of_le Int.zero_lt_one some_)
    rw [if_pos unused,if_neg room]
    exact iff_of_true (acquire_admits _) (Or.inl (unused ▸ lt_of_lt_of_le Int.zero_lt_one some_))
  · rw [if_neg unused]
    by_cases full : config.halfOpenMaxAttempts ≤ breaker.halfOpenAttempts
    · rw [if_pos full]
      by_cases elapsed : config.resetTimeoutMs ≤ now - breaker.lastStateChange
      · rw [if_pos (hasHalfOpenProbeWaitElapsed_iff.mpr elapsed)]
        exact iff_of_true (acquire_admits _) (Or.inr elapsed)
      · rw [if_neg (mt hasHalfOpenProbeWaitElapsed_iff.mp elapsed)]
        refine iff_of_false (fun admitted => ?_) (fun cause => cause.elim (not_lt.mpr full) elapsed)
        obtain ⟨probe,same⟩ := admitted
        cases same
    · rw [if_neg full]
      exact iff_of_true (acquire_admits _) (Or.inl (not_le.mp full))

theorem isAvailable_iff_admits (some_ : 1 ≤ config.halfOpenMaxAttempts) :
    breaker.isAvailable config now = true ↔ breaker.Admits config now := by
  unfold isAvailable Admits tryCanExecute
  cases breaker.state with
  | closed => exact iff_of_true rfl ⟨_,rfl⟩
  | open_ =>
    dsimp only
    rw [decide_eq_true_iff]
    by_cases elapsed : config.resetTimeoutMs ≤ now - breaker.lastStateChange
    · rw [if_pos elapsed,tryProbe_admits some_]
      exact iff_of_true elapsed (Or.inl (lt_of_lt_of_le Int.zero_lt_one some_))
    · rw [if_neg elapsed]
      refine iff_of_false elapsed fun admitted => ?_
      obtain ⟨probe,same⟩ := admitted
      cases same
  | halfOpen =>
    dsimp only
    rw [tryProbe_admits some_,Bool.or_eq_true,decide_eq_true_iff,hasHalfOpenProbeWaitElapsed_iff]

theorem getTimeUntilAvailable_eq_zero : breaker.getTimeUntilAvailable config now = 0 ↔ breaker.isAvailable config now = true := by
  unfold getTimeUntilAvailable isAvailable
  cases breaker.state with
  | closed => exact iff_of_true rfl rfl
  | open_ =>
    dsimp only
    rw [retryAfterMs_eq_zero,decide_eq_true_iff]
  | halfOpen =>
    dsimp only
    rw [Bool.or_eq_true,decide_eq_true_iff,hasHalfOpenProbeWaitElapsed_iff]
    by_cases full : config.halfOpenMaxAttempts ≤ breaker.halfOpenAttempts
    · rw [if_pos full,retryAfterMs_eq_zero]
      have room : ¬breaker.halfOpenAttempts < config.halfOpenMaxAttempts := not_lt.mpr full
      exact ⟨Or.inr,fun cause => cause.resolve_left room⟩
    · rw [if_neg full]
      exact iff_of_true rfl (Or.inl (not_le.mp full))

/-- An attempt that is refused changes nothing and is told how long to wait: from then on, and not before, an attempt is let through. -/
theorem refused_waits (some_ : 1 ≤ config.halfOpenMaxAttempts) {reason : CircuitState} {wait : ℚ} {after : CircuitBreaker}
    (refused : breaker.tryCanExecute config now = (.refused reason wait,after)) :
    after = breaker ∧ 0 < wait ∧ ∀ later, after.Admits config later ↔ now + wait ≤ later := by
  have closed : ¬breaker.isAvailable config now = true := by
    rw [isAvailable_iff_admits some_,Admits,refused]
    rintro ⟨probe,⟨⟩⟩
  suffices waits : after = breaker ∧ wait = retryAfterMs config now breaker ∧
      ∀ later, breaker.isAvailable config later = true ↔ config.resetTimeoutMs ≤ later - breaker.lastStateChange by
    obtain ⟨rfl,rfl,opens⟩ := waits
    have positive := sub_pos.mpr (not_le.mp (mt (opens now).mpr closed))
    rw [retryAfterMs,max_eq_right positive.le]
    exact ⟨rfl,positive,fun later => by rw [← isAvailable_iff_admits some_,opens,sub_sub_eq_add_sub,add_sub_cancel,le_sub_iff_add_le]⟩
  cases state : breaker.state with
  | closed => simp [isAvailable,state] at closed
  | open_ =>
    simp only [isAvailable,state,decide_eq_true_iff] at closed
    rw [tryCanExecute,state] at refused
    dsimp only at refused
    rw [if_neg closed] at refused
    cases refused
    exact ⟨rfl,rfl,fun later => by simp only [isAvailable,state,decide_eq_true_iff]⟩
  | halfOpen =>
    simp only [isAvailable,state,Bool.or_eq_true,decide_eq_true_iff,hasHalfOpenProbeWaitElapsed_iff,not_or] at closed ⊢
    have full := not_lt.mp closed.1
    have used : breaker.halfOpenAttempts ≠ 0 := by omega
    rw [tryCanExecute,state] at refused
    dsimp only at refused
    rw [tryProbe,if_neg used,if_pos full,if_neg (mt hasHalfOpenProbeWaitElapsed_iff.mp closed.2)] at refused
    cases refused
    exact ⟨rfl,rfl,fun later => or_iff_right closed.1⟩

theorem refused_waits_open : Admits {} 30000 { state := .open_ } := by
  have refused : tryCanExecute {} 10000 { state := .open_ } = (.refused .open_ (retryAfterMs {} 10000 { state := .open_ }),{ state := .open_ }) :=
    if_neg (by decide +kernel)
  exact ((refused_waits (by decide) refused).2.2 30000).mpr (by decide +kernel)

end CircuitBreaker

open CircuitBreaker List

structure Probe where
  window : ℕ
  released : Bool := false
  /-- Its request has reported how it ended. -/
  resolved : Bool := false
  deriving DecidableEq

/-- A breaker, all probes it has granted, and the time. -/
structure Breaking where
  breaker : CircuitBreaker
  probes : List Probe := []
  clock : ℚ

inductive BreakerAction where
  | tryCanExecute (now : ℚ)
  /-- The request of a probe calls its release, for the first time or again. -/
  | release (index : ℕ)
  | recordSuccess (now : ℚ) (index : Option ℕ)
  | recordFailure (now : ℚ) (index : Option ℕ)
  deriving DecidableEq

namespace Breaking

def grant (probes : List Probe) : CircuitAdmissionResult → List Probe
  | .admitted (some window) => probes ++ [{ window := window }]
  | _ => probes

def resolve (probes : List Probe) : Option ℕ → List Probe
  | none => probes
  | some index => probes.modify index (fun probe => { probe with resolved := true })

variable (config : CircuitBreakerConfig)

def step (s : Breaking) : BreakerAction → Breaking
  | .tryCanExecute now => ⟨(s.breaker.tryCanExecute config now).2,grant s.probes (s.breaker.tryCanExecute config now).1,now⟩
  | .release index =>
    match s.probes[index]? with
    | none => s
    | some probe =>
      if probe.released then s
      else { s with breaker := s.breaker.release probe.window,probes := s.probes.set index { probe with released := true } }
  | .recordSuccess now index => ⟨s.breaker.recordSuccess config now,resolve s.probes index,now⟩
  | .recordFailure now index => ⟨s.breaker.recordFailure config now,resolve s.probes index,now⟩

/-- The clock does not go back. -/
def enabled (s : Breaking) : BreakerAction → Prop
  | .tryCanExecute now => s.clock ≤ now
  | .release _ => True
  | .recordSuccess now _ => s.clock ≤ now
  | .recordFailure now _ => s.clock ≤ now

instance enabled.decidable (s : Breaking) (action : BreakerAction) : Decidable (enabled s action) :=
  match action with
  | .tryCanExecute now => inferInstanceAs (Decidable (s.clock ≤ now))
  | .release _ => isTrue trivial
  | .recordSuccess now _ => inferInstanceAs (Decidable (s.clock ≤ now))
  | .recordFailure now _ => inferInstanceAs (Decidable (s.clock ≤ now))

def start (now : ℚ) : Breaking := { breaker := { lastStateChange := now },clock := now }

end Breaking

def Probe.isOut (probe : Probe) : Bool := !probe.released && !probe.resolved

/-- The probes of the current half-open window that are neither released nor resolved. -/
def Breaking.outstanding (s : Breaking) : List Probe :=
  if s.breaker.state = .halfOpen then s.probes.filter (fun probe => decide (probe.window = s.breaker.probeWindow) && probe.isOut) else []

/-! ### What an attempt does to the window -/

namespace CircuitBreaker
variable {config : CircuitBreakerConfig} {now : ℚ} {breaker : CircuitBreaker}

theorem tryProbe_cases (P : CircuitAdmissionResult × CircuitBreaker → Prop)
    (refused : ∀ window : CircuitBreaker, window.state = breaker.state → breaker.probeWindow ≤ window.probeWindow →
      (window.halfOpenAttempts = 0 ∨ window.halfOpenAttempts = breaker.halfOpenAttempts) →
      P (.refused .halfOpen (retryAfterMs config now window),window))
    (admitted : ∀ window : CircuitBreaker, window.state = breaker.state → breaker.probeWindow ≤ window.probeWindow →
      (window.halfOpenAttempts = 0 ∨ window.halfOpenAttempts < config.halfOpenMaxAttempts) → P window.acquire) :
    P (breaker.tryProbe config now) := by
  have renewed : ∃ window, (if breaker.halfOpenAttempts = 0 then resetHalfOpenProbeWindow now breaker else breaker) = window ∧
      window.state = breaker.state ∧ breaker.probeWindow ≤ window.probeWindow ∧
      (window.halfOpenAttempts = 0 ∨ window.halfOpenAttempts = breaker.halfOpenAttempts) := by
    split
    · exact ⟨_,rfl,rfl,Nat.le_succ _,Or.inl rfl⟩
    · exact ⟨_,rfl,rfl,le_refl _,Or.inr rfl⟩
  obtain ⟨window,same,state,later,attempts⟩ := renewed
  unfold tryProbe
  rw [same]
  dsimp only
  split
  · split
    · exact admitted _ state (Nat.le_succ_of_le later) (Or.inl rfl)
    · exact refused _ state later attempts
  case isFalse room => exact admitted _ state later (Or.inr (not_le.mp room))

theorem tryProbe_window : breaker.probeWindow ≤ (breaker.tryProbe config now).2.probeWindow :=
  tryProbe_cases (fun result => breaker.probeWindow ≤ result.2.probeWindow) (fun _ _ later _ => later) (fun _ _ later _ => later)

theorem tryProbe_probe {window : ℕ} (admitted : (breaker.tryProbe config now).1 = .admitted (some window)) :
    window = (breaker.tryProbe config now).2.probeWindow := by
  refine tryProbe_cases (fun result => result.1 = .admitted (some window) → window = result.2.probeWindow)
    (fun _ _ _ _ same => nomatch same) (fun other _ _ _ same => ?_) admitted
  cases same
  rfl

theorem tryProbe_attempts (some_ : 1 ≤ config.halfOpenMaxAttempts) (bounded : breaker.halfOpenAttempts ≤ config.halfOpenMaxAttempts) :
    (breaker.tryProbe config now).2.halfOpenAttempts ≤ config.halfOpenMaxAttempts := by
  refine tryProbe_cases (fun result => result.2.halfOpenAttempts ≤ config.halfOpenMaxAttempts) (fun window _ _ attempts => ?_)
    (fun window _ _ attempts => ?_)
  · show window.halfOpenAttempts ≤ config.halfOpenMaxAttempts
    omega
  · show window.halfOpenAttempts + 1 ≤ config.halfOpenMaxAttempts
    omega

theorem tryCanExecute_window : breaker.probeWindow ≤ (breaker.tryCanExecute config now).2.probeWindow := by
  unfold tryCanExecute
  cases breaker.state with
  | closed => exact le_refl _
  | open_ =>
    dsimp only
    split
    · exact le_trans (Nat.le_succ _) (@tryProbe_window _ _ (transitionToHalfOpen now breaker))
    · exact le_refl _
  | halfOpen => exact tryProbe_window

theorem tryCanExecute_probe {window : ℕ} (admitted : (breaker.tryCanExecute config now).1 = .admitted (some window)) :
    window = (breaker.tryCanExecute config now).2.probeWindow := by
  revert admitted
  unfold tryCanExecute
  cases breaker.state with
  | closed => exact fun same => nomatch same
  | open_ =>
    dsimp only
    split
    · exact tryProbe_probe
    · exact fun same => nomatch same
  | halfOpen => exact tryProbe_probe

theorem tryCanExecute_entered (halfOpen : (breaker.tryCanExecute config now).2.state = .halfOpen)
    (same : (breaker.tryCanExecute config now).2.probeWindow = breaker.probeWindow) : breaker.state = .halfOpen := by
  unfold tryCanExecute at halfOpen same
  cases state : breaker.state with
  | halfOpen => rfl
  | closed =>
    rw [state] at halfOpen
    exact absurd (state.symm.trans halfOpen) (by decide)
  | open_ =>
    rw [state] at halfOpen same
    dsimp only at halfOpen same
    split at same
    · have later : breaker.probeWindow + 1 ≤ _ := @tryProbe_window config now (transitionToHalfOpen now breaker)
      omega
    case isFalse waiting =>
      rw [if_neg waiting] at halfOpen
      exact absurd (state.symm.trans halfOpen) (by decide)

theorem tryCanExecute_attempts (some_ : 1 ≤ config.halfOpenMaxAttempts) (bounded : breaker.halfOpenAttempts ≤ config.halfOpenMaxAttempts) :
    (breaker.tryCanExecute config now).2.halfOpenAttempts ≤ config.halfOpenMaxAttempts := by
  have none_ : (0 : ℤ) ≤ config.halfOpenMaxAttempts := le_trans Int.one_nonneg some_
  unfold tryCanExecute
  cases breaker.state with
  | closed => exact bounded
  | open_ =>
    dsimp only
    split
    · exact tryProbe_attempts some_ none_
    · exact bounded
  | halfOpen => exact tryProbe_attempts some_ bounded

theorem recordSuccess_state : (breaker.recordSuccess config now).state ≠ .halfOpen := by
  unfold recordSuccess
  cases state : breaker.state with
  | halfOpen => exact fun same => nomatch same
  | closed => exact fun same => nomatch state.symm.trans same
  | open_ => exact fun same => nomatch state.symm.trans same

theorem recordFailure_state : (breaker.recordFailure config now).state ≠ .halfOpen := by
  unfold recordFailure
  cases state : breaker.state with
  | halfOpen => exact fun same => nomatch same
  | closed =>
    dsimp only
    split
    · exact fun same => nomatch same
    · exact fun same => nomatch state.symm.trans same
  | open_ => exact fun same => nomatch state.symm.trans same

theorem recordSuccess_window : breaker.probeWindow ≤ (breaker.recordSuccess config now).probeWindow := by
  unfold recordSuccess
  cases breaker.state with
  | halfOpen => exact Nat.le_succ _
  | closed => exact le_refl _
  | open_ => exact le_refl _

theorem recordFailure_window : breaker.probeWindow ≤ (breaker.recordFailure config now).probeWindow := by
  unfold recordFailure
  cases breaker.state with
  | halfOpen => exact Nat.le_succ _
  | closed =>
    dsimp only
    split
    · exact Nat.le_succ _
    · exact le_refl _
  | open_ => exact le_refl _

end CircuitBreaker

theorem Accounted.perm {breaker : CircuitBreaker} {out other : List ℕ} (accounted : Accounted ⟨breaker,out⟩) (same : out.Perm other) :
    Accounted ⟨breaker,other⟩ := by
  refine ⟨?_,fun window member => accounted.past window (same.mem_iff.mpr member)⟩
  have attempts := accounted.attempts
  dsimp only at attempts ⊢
  rw [attempts,same.count_eq]

namespace Breaking

def unreleased (probes : List Probe) : List ℕ := (probes.filter (fun probe => !probe.released)).map Probe.window

theorem unreleased_cons (probe : Probe) (probes : List Probe) :
    unreleased (probe :: probes) = if probe.released then unreleased probes else probe.window :: unreleased probes := by
  unfold unreleased
  rw [filter_cons]
  cases probe.released <;> rfl

theorem unreleased_grant (probes : List Probe) (result : CircuitAdmissionResult) :
    (withProbe (unreleased probes) result).Perm (unreleased (grant probes result)) := by
  match result with
  | .refused _ _ => exact List.Perm.refl _
  | .admitted none => exact List.Perm.refl _
  | .admitted (some window) =>
    have appended : unreleased (probes ++ [{ window := window }]) = unreleased probes ++ [window] := by
      unfold unreleased
      rw [filter_append,map_append]
      rfl
    show (window :: unreleased probes).Perm (unreleased (probes ++ [{ window := window }]))
    rw [appended]
    exact (perm_append_singleton window (unreleased probes)).symm

theorem unreleased_resolve (probes : List Probe) (index : Option ℕ) : unreleased (resolve probes index) = unreleased probes := by
  cases index with
  | none => rfl
  | some index =>
    show unreleased (probes.modify index _) = _
    induction probes generalizing index with
    | nil => cases index <;> rfl
    | cons head rest ih =>
      cases index with
      | zero => rw [modify_zero_cons,unreleased_cons,unreleased_cons]
      | succ index => rw [modify_succ_cons,unreleased_cons,unreleased_cons,ih]

theorem unreleased_set {probes : List Probe} {index : ℕ} {probe : Probe} (found : probes[index]? = some probe) (fresh : probe.released = false) :
    (unreleased probes).Perm (probe.window :: unreleased (probes.set index { probe with released := true })) := by
  induction probes generalizing index with
  | nil => cases found
  | cons head rest ih =>
    cases index with
    | zero =>
      cases found
      rw [set_cons_zero,unreleased_cons,unreleased_cons,fresh]
      exact List.Perm.refl _
    | succ index =>
      rw [set_cons_succ,unreleased_cons,unreleased_cons]
      have tail : (unreleased rest).Perm _ := ih found
      split
      · exact tail
      · exact (tail.cons head.window).trans (List.Perm.swap _ _ _)

end Breaking

/-! ### Accounts over a run -/

section
variable {config : CircuitBreakerConfig}

/-- The attempts are the probes of the window that are not released, no more than may be; no
    probe is of a window to come, and none of the current half-open window is resolved. -/
structure Tallied (config : CircuitBreakerConfig) (s : Breaking) : Prop where
  accounted : Accounted ⟨s.breaker,Breaking.unreleased s.probes⟩
  bounded : s.breaker.halfOpenAttempts ≤ config.halfOpenMaxAttempts
  past : ∀ probe ∈ s.probes, probe.window ≤ s.breaker.probeWindow
  pending : s.breaker.state = .halfOpen → ∀ probe ∈ s.probes, probe.window = s.breaker.probeWindow → probe.resolved = false

variable {s : Breaking}

theorem Tallied.tryCanExecute (some_ : 1 ≤ config.halfOpenMaxAttempts) (tallied : Tallied config s) (now : ℚ) :
    Tallied config (s.step config (.tryCanExecute now)) := by
  have granted : ∀ probe ∈ Breaking.grant s.probes (s.breaker.tryCanExecute config now).1,
      probe ∈ s.probes ∨ probe = { window := (s.breaker.tryCanExecute config now).2.probeWindow } := by
    intro probe member
    unfold Breaking.grant at member
    split at member
    case h_1 window admitted =>
      rcases mem_append.mp member with old | new
      · exact Or.inl old
      · rw [tryCanExecute_probe admitted] at new
        exact Or.inr (mem_singleton.mp new)
    case h_2 => exact Or.inl member
  have later : s.breaker.probeWindow ≤ (s.breaker.tryCanExecute config now).2.probeWindow := tryCanExecute_window
  refine ⟨?_,tryCanExecute_attempts some_ tallied.bounded,fun probe member => ?_,fun halfOpen probe member current => ?_⟩
  · exact (tallied.accounted.tryCanExecute now).perm (Breaking.unreleased_grant _ _)
  · rcases granted probe member with old | rfl
    · exact le_trans (tallied.past probe old) later
    · exact le_refl _
  · rcases granted probe member with old | rfl
    · have same : (s.breaker.tryCanExecute config now).2.probeWindow = s.breaker.probeWindow :=
        le_antisymm (current ▸ tallied.past probe old) later
      exact tallied.pending (tryCanExecute_entered halfOpen same) probe old (current.trans same)
    · rfl

theorem Tallied.release (tallied : Tallied config s) {index : ℕ} {probe : Probe} (found : s.probes[index]? = some probe)
    (fresh : probe.released = false) :
    Tallied config { s with breaker := s.breaker.release probe.window,probes := s.probes.set index { probe with released := true } } := by
  have out := Breaking.unreleased_set found fresh
  have state : (s.breaker.release probe.window).state = s.breaker.state := by
    unfold CircuitBreaker.release
    split <;> rfl
  have window : (s.breaker.release probe.window).probeWindow = s.breaker.probeWindow := by
    unfold CircuitBreaker.release
    split <;> rfl
  have fewer : (s.breaker.release probe.window).halfOpenAttempts ≤ s.breaker.halfOpenAttempts := by
    unfold CircuitBreaker.release
    split
    · exact Int.sub_le_self _ Int.one_nonneg
    · exact le_refl _
  have before : probe ∈ s.probes := mem_of_getElem? found
  have member_set : ∀ other ∈ s.probes.set index { probe with released := true }, other ∈ s.probes ∨ other = { probe with released := true } :=
    fun other member => mem_or_eq_of_mem_set member
  refine ⟨?_,le_trans fewer tallied.bounded,fun other member => ?_,fun halfOpen other member current => ?_⟩
  · have member : probe.window ∈ Breaking.unreleased s.probes := out.mem_iff.mpr mem_cons_self
    have erased : ((Breaking.unreleased s.probes).erase probe.window).Perm
        (Breaking.unreleased (s.probes.set index { probe with released := true })) := by
      have both := out.erase probe.window
      rwa [erase_cons_head] at both
    exact (tallied.accounted.release member).perm erased
  · show other.window ≤ (s.breaker.release probe.window).probeWindow
    rw [window]
    rcases member_set other member with old | rfl
    · exact tallied.past other old
    · exact tallied.past probe before
  · have probing : s.breaker.state = .halfOpen := state.symm.trans halfOpen
    have here : other.window = s.breaker.probeWindow := current.trans window
    rcases member_set other member with old | rfl
    · exact tallied.pending probing other old here
    · exact tallied.pending probing probe before here

theorem Tallied.report (some_ : 1 ≤ config.halfOpenMaxAttempts) (tallied : Tallied config s) {breaker : CircuitBreaker}
    (index : Option ℕ) (now : ℚ) (accounted : Accounted ⟨breaker,Breaking.unreleased s.probes⟩) (state : breaker.state ≠ .halfOpen)
    (later : s.breaker.probeWindow ≤ breaker.probeWindow) : Tallied config ⟨breaker,Breaking.resolve s.probes index,now⟩ := by
  have attempts : breaker.halfOpenAttempts = 0 := accounted.attempts.trans (if_neg state)
  have windows : ∀ probe ∈ Breaking.resolve s.probes index, ∃ old ∈ s.probes, probe.window = old.window := by
    intro probe member
    cases index with
    | none => exact ⟨probe,member,rfl⟩
    | some index =>
      obtain ⟨place,found⟩ := mem_iff_getElem?.mp member
      have modified : (s.probes.modify index (fun probe => { probe with resolved := true }))[place]? = some probe := found
      rw [List.getElem?_modify] at modified
      obtain ⟨old,at_,same⟩ := Option.map_eq_some_iff.mp modified
      refine ⟨old,mem_of_getElem? at_,?_⟩
      rw [← same]
      split <;> rfl
  refine ⟨?_,?_,fun probe member => ?_,fun halfOpen => absurd halfOpen state⟩
  · show Accounted ⟨breaker,Breaking.unreleased (Breaking.resolve s.probes index)⟩
    rw [Breaking.unreleased_resolve]
    exact accounted
  · show breaker.halfOpenAttempts ≤ config.halfOpenMaxAttempts
    rw [attempts]
    exact le_trans Int.one_nonneg some_
  · obtain ⟨old,before,same⟩ := windows probe member
    rw [same]
    exact le_trans (tallied.past old before) later

theorem Tallied.step (some_ : 1 ≤ config.halfOpenMaxAttempts) (tallied : Tallied config s) (action : BreakerAction) :
    Tallied config (s.step config action) := by
  cases action with
  | tryCanExecute now => exact tallied.tryCanExecute some_ now
  | release index =>
    unfold Breaking.step
    dsimp only
    split
    · exact tallied
    case h_2 probe found =>
      split
      · exact tallied
      case isFalse fresh => exact tallied.release found (Bool.eq_false_iff.mpr fresh)
  | recordSuccess now index => exact tallied.report some_ index now (tallied.accounted.recordSuccess now) recordSuccess_state recordSuccess_window
  | recordFailure now index => exact tallied.report some_ index now (tallied.accounted.recordFailure now) recordFailure_state recordFailure_window

theorem tallied_of_run {began : ℚ} (some_ : 1 ≤ config.halfOpenMaxAttempts)
    (run : Runs.Run (Breaking.step config) Breaking.enabled (Breaking.start began) s) : Tallied config s := by
  refine run.invariant (fun s action _ tallied => tallied.step some_ action) ⟨?_,?_,?_,?_⟩
  · exact ⟨rfl,fun window member => absurd member not_mem_nil⟩
  · exact le_trans Int.one_nonneg some_
  · exact fun probe member => absurd member not_mem_nil
  · exact fun halfOpen => nomatch halfOpen

theorem Tallied.attempts (tallied : Tallied config s) : s.breaker.halfOpenAttempts = s.outstanding.length := by
  rw [tallied.accounted.attempts]
  unfold Breaking.outstanding
  split
  case isFalse => rfl
  case isTrue halfOpen =>
    have counted : (Breaking.unreleased s.probes).count s.breaker.probeWindow =
        (s.probes.filter (fun probe => decide (probe.window = s.breaker.probeWindow) && probe.isOut)).length := by
      unfold Breaking.unreleased
      rw [count_eq_countP,countP_map,countP_filter,countP_eq_length_filter]
      congr 1
      refine filter_congr fun probe member => ?_
      by_cases current : probe.window = s.breaker.probeWindow
      · have open_ : probe.resolved = false := tallied.pending halfOpen probe member current
        simp [Probe.isOut,current,open_]
      · simp [current]
    exact congrArg Nat.cast counted

/-- A second release of a probe does nothing, nor does that of a probe of an earlier window. -/
theorem Breaking.release_again (s : Breaking) (index : ℕ) :
    (s.step config (.release index)).step config (.release index) = s.step config (.release index) := by
  unfold Breaking.step
  dsimp only
  cases found : s.probes[index]? with
  | none =>
    dsimp only
    rw [found]
  | some probe =>
    dsimp only
    by_cases released : probe.released = true
    · rw [if_pos released,found]
      exact if_pos released
    · rw [if_neg released]
      obtain ⟨bound,-⟩ := List.getElem?_eq_some_iff.mp found
      rw [List.getElem?_set_self bound]
      exact if_pos rfl

theorem Breaking.release_earlier {index : ℕ} {probe : Probe} (found : s.probes[index]? = some probe)
    (earlier : probe.window < s.breaker.probeWindow) : (s.step config (.release index)).breaker = s.breaker := by
  unfold Breaking.step
  dsimp only
  rw [found]
  dsimp only
  split
  · rfl
  · exact if_neg fun current => absurd current.2.symm earlier.ne

/-- Throughout any interleaving the attempts are the outstanding probes of the half-open window,
    within bounds; what is released twice or late changes nothing; a half-open breaker without
    probes that are out has a slot; and the three answers on availability agree at any time. -/
theorem breaker_accounts (config : CircuitBreakerConfig) (some_ : 1 ≤ config.halfOpenMaxAttempts) (began : ℚ) (s : Breaking)
    (run : Runs.Run (Breaking.step config) Breaking.enabled (Breaking.start began) s) :
    s.breaker.halfOpenAttempts = s.outstanding.length ∧ 0 ≤ s.breaker.halfOpenAttempts ∧
      s.breaker.halfOpenAttempts ≤ config.halfOpenMaxAttempts ∧
      (∀ index, (s.step config (.release index)).step config (.release index) = s.step config (.release index)) ∧
      (∀ (index : ℕ) (probe : Probe), s.probes[index]? = some probe → probe.released = true → s.step config (.release index) = s) ∧
      (∀ (index : ℕ) (probe : Probe), s.probes[index]? = some probe → probe.window < s.breaker.probeWindow →
        (s.step config (.release index)).breaker = s.breaker) ∧
      (s.breaker.state = .halfOpen → (∀ probe ∈ s.probes, probe.released = true ∨ probe.resolved = true) →
        s.breaker.halfOpenAttempts < config.halfOpenMaxAttempts) ∧
      ∀ now, (s.breaker.isAvailable config now = true ↔ s.breaker.Admits config now) ∧
        (s.breaker.Admits config now ↔ s.breaker.getTimeUntilAvailable config now = 0) := by
  have tallied := tallied_of_run some_ run
  have attempts := tallied.attempts
  refine ⟨attempts,?_,tallied.bounded,fun index => Breaking.release_again s index,?_,?_,fun halfOpen settled => ?_,fun now => ?_⟩
  · exact attempts ▸ Int.natCast_nonneg _
  · intro index probe found released
    unfold Breaking.step
    dsimp only
    rw [found]
    exact if_pos released
  · exact fun index probe found earlier => Breaking.release_earlier found earlier
  · have none_ : s.outstanding = [] := by
      unfold Breaking.outstanding
      rw [if_pos halfOpen]
      refine filter_eq_nil_iff.mpr fun probe member => ?_
      rcases settled probe member with released | resolved
      · simp [Probe.isOut,released]
      · simp [Probe.isOut,resolved]
    rw [attempts,none_]
    exact lt_of_lt_of_le Int.zero_lt_one some_
  · exact ⟨isAvailable_iff_admits some_,(isAvailable_iff_admits some_).symm.trans getTimeUntilAvailable_eq_zero.symm⟩

/-- A failure opens the breaker, two probes are granted, and one is released. -/
def releasedOnce : List BreakerAction := [.recordFailure 0 none,.tryCanExecute 30000,.tryCanExecute 30000,.release 0]

theorem releasedOnce_accounts :
    let config : CircuitBreakerConfig := { failureThreshold := 1,halfOpenMaxAttempts := 2 }
    let s := releasedOnce.foldl (Breaking.step config) (Breaking.start 0)
    s.breaker.halfOpenAttempts = s.outstanding.length :=
  (breaker_accounts { failureThreshold := 1,halfOpenMaxAttempts := 2 } (by decide) 0 _
    ((Runs.Run.nil _).ofList releasedOnce (by decide))).1

end

end CodexMultiAuth.RuntimeProxy
