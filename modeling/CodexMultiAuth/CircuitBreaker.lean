import Mathlib.Algebra.Order.Ring.Rat
import CodexMultiAuth.Runs

/-!
The circuit breaker of an account. Once it was open for long enough it lets a few requests
probe the account; a probe ends with a verdict on the account, or is released unused. In
every interleaving the attempts that the breaker counts are just the probes of its window
that are still out (`attempts_are_out`).
-/
namespace CodexMultiAuth.RuntimeProxy

structure CircuitBreakerConfig where
  failureThreshold : ℕ := 3
  failureWindowMs : ℚ := 60000
  resetTimeoutMs : ℚ := 30000
  halfOpenMaxAttempts : ℤ := 1

inductive CircuitState where
  | closed
  | open_
  | halfOpen
  deriving DecidableEq

structure CircuitBreaker where
  state : CircuitState := .closed
  failures : List ℚ := []
  lastStateChange : ℚ := 0
  halfOpenAttempts : ℤ := 0
  /-- Each window is another object. -/
  probeWindow : ℕ := 0
  deriving DecidableEq

inductive CircuitAdmissionResult where
  /-- The probe, if one was acquired, is of a window. -/
  | admitted (probe : Option ℕ)
  | refused (reason : CircuitState) (retryAfterMs : ℚ)
  deriving DecidableEq

namespace CircuitBreaker
variable (config : CircuitBreakerConfig) (now : ℚ) (breaker : CircuitBreaker)

def pruneFailures : CircuitBreaker :=
  { breaker with failures := breaker.failures.filter (fun timestamp => decide (now - config.failureWindowMs ≤ timestamp)) }

def transitionToOpen : CircuitBreaker :=
  { breaker with state := .open_,lastStateChange := now,halfOpenAttempts := 0,probeWindow := breaker.probeWindow + 1 }

def transitionToHalfOpen : CircuitBreaker :=
  { breaker with state := .halfOpen,lastStateChange := now,halfOpenAttempts := 0,probeWindow := breaker.probeWindow + 1 }

def resetHalfOpenProbeWindow : CircuitBreaker :=
  { breaker with lastStateChange := now,halfOpenAttempts := 0,probeWindow := breaker.probeWindow + 1 }

def resetToClosed : CircuitBreaker :=
  { state := .closed,failures := [],lastStateChange := now,halfOpenAttempts := 0,probeWindow := breaker.probeWindow + 1 }

def hasHalfOpenProbeWaitElapsed : Bool := decide (config.resetTimeoutMs ≤ now - breaker.lastStateChange)

def retryAfterMs : ℚ := max 0 (config.resetTimeoutMs - (now - breaker.lastStateChange))

def acquire : CircuitAdmissionResult × CircuitBreaker :=
  (.admitted (some breaker.probeWindow),{ breaker with halfOpenAttempts := breaker.halfOpenAttempts + 1 })

/-- A window without attempts starts over, and so does one that has waited long enough. -/
def tryProbe : CircuitAdmissionResult × CircuitBreaker :=
  let window := if breaker.halfOpenAttempts = 0 then resetHalfOpenProbeWindow now breaker else breaker
  if config.halfOpenMaxAttempts ≤ window.halfOpenAttempts then
    if hasHalfOpenProbeWaitElapsed config now window then acquire (resetHalfOpenProbeWindow now window)
    else (.refused .halfOpen (retryAfterMs config now window),window)
  else acquire window

def tryCanExecute : CircuitAdmissionResult × CircuitBreaker :=
  match breaker.state with
  | .closed => (.admitted none,breaker)
  | .open_ =>
    if config.resetTimeoutMs ≤ now - breaker.lastStateChange then tryProbe config now (transitionToHalfOpen now breaker)
    else (.refused .open_ (retryAfterMs config now breaker),breaker)
  | .halfOpen => tryProbe config now breaker

def release (window : ℕ) : CircuitBreaker :=
  if breaker.state = .halfOpen ∧ breaker.probeWindow = window then { breaker with halfOpenAttempts := breaker.halfOpenAttempts - 1 }
  else breaker

def recordSuccess : CircuitBreaker :=
  match breaker.state with
  | .halfOpen => resetToClosed now breaker
  | .closed => pruneFailures config now breaker
  | .open_ => breaker

def recordFailure : CircuitBreaker :=
  let failed := { pruneFailures config now breaker with failures := (pruneFailures config now breaker).failures ++ [now] }
  match breaker.state with
  | .halfOpen => transitionToOpen now failed
  | .closed => if config.failureThreshold ≤ failed.failures.length then transitionToOpen now failed else failed
  | .open_ => failed

end CircuitBreaker

/-! ### The probes that are out -/

open CircuitBreaker

/-- A breaker with the windows of the probes that were acquired and not released. -/
structure Probed where
  breaker : CircuitBreaker := {}
  out : List ℕ := []

section
variable (config : CircuitBreakerConfig)

/-- The probes that are out after an admission. -/
def withProbe (out : List ℕ) : CircuitAdmissionResult → List ℕ
  | .admitted (some window) => window :: out
  | _ => out

/-- A half-open breaker counts the probes of its window that are out, any other counts none;
    no probe is of a window to come. -/
structure Accounted (s : Probed) : Prop where
  attempts : s.breaker.halfOpenAttempts = if s.breaker.state = .halfOpen then (s.out.count s.breaker.probeWindow : ℤ) else 0
  past : ∀ window ∈ s.out, window ≤ s.breaker.probeWindow

variable {config}
variable {s : Probed}

section
variable (accounted : Accounted s)
include accounted

theorem Accounted.fresh : s.out.count (s.breaker.probeWindow + 1) = 0 :=
  List.count_eq_zero.mpr fun member => absurd (accounted.past _ member) (by omega)

theorem Accounted.renew {breaker : CircuitBreaker}
    (window : breaker.probeWindow = s.breaker.probeWindow + 1) (none_ : breaker.halfOpenAttempts = 0) : Accounted ⟨breaker,s.out⟩ := by
  refine ⟨?_,fun other member => ?_⟩
  · show breaker.halfOpenAttempts = _
    rw [none_]
    show 0 = if breaker.state = .halfOpen then (s.out.count breaker.probeWindow : ℤ) else 0
    rw [window,accounted.fresh]
    split <;> rfl
  · show other ≤ breaker.probeWindow
    rw [window]
    exact Nat.le_succ_of_le (accounted.past other member)

theorem Accounted.acquire (halfOpen : s.breaker.state = .halfOpen) :
    Accounted ⟨s.breaker.acquire.2,withProbe s.out s.breaker.acquire.1⟩ := by
  have attempts := accounted.attempts
  rw [if_pos halfOpen] at attempts
  refine ⟨?_,fun window member => ?_⟩
  · show s.breaker.halfOpenAttempts + 1 =
      if s.breaker.state = .halfOpen then ((s.breaker.probeWindow :: s.out).count s.breaker.probeWindow : ℤ) else 0
    rw [if_pos halfOpen,attempts,List.count_cons_self]
    push_cast
    rfl
  · rcases List.mem_cons.mp member with rfl | member
    · exact le_refl _
    · exact accounted.past window member

theorem Accounted.tryProbe (now : ℚ) (halfOpen : s.breaker.state = .halfOpen) :
    Accounted ⟨(s.breaker.tryProbe config now).2,withProbe s.out (s.breaker.tryProbe config now).1⟩ := by
  have renewed : ∃ window, (if s.breaker.halfOpenAttempts = 0 then resetHalfOpenProbeWindow now s.breaker else s.breaker) = window ∧
      Accounted ⟨window,s.out⟩ ∧ window.state = .halfOpen := by
    split
    · exact ⟨_,rfl,accounted.renew rfl rfl,halfOpen⟩
    · exact ⟨_,rfl,accounted,halfOpen⟩
  obtain ⟨window,same,counted,probing⟩ := renewed
  unfold CircuitBreaker.tryProbe
  rw [same]
  dsimp only
  split
  · split
    · have again : Accounted ⟨resetHalfOpenProbeWindow now window,s.out⟩ := counted.renew rfl rfl
      exact again.acquire probing
    · exact counted
  · exact counted.acquire probing

theorem Accounted.release {window : ℕ} (member : window ∈ s.out) :
    Accounted ⟨s.breaker.release window,s.out.erase window⟩ := by
  have past : ∀ other ∈ s.out.erase window, other ≤ s.breaker.probeWindow :=
    fun other member => accounted.past other (List.mem_of_mem_erase member)
  have attempts := accounted.attempts
  unfold CircuitBreaker.release
  split
  case isTrue current =>
    obtain ⟨halfOpen,rfl⟩ := current
    rw [if_pos halfOpen] at attempts
    refine ⟨?_,past⟩
    show s.breaker.halfOpenAttempts - 1 =
      if s.breaker.state = .halfOpen then ((s.out.erase s.breaker.probeWindow).count s.breaker.probeWindow : ℤ) else 0
    have some_ : 0 < s.out.count s.breaker.probeWindow := List.count_pos_iff.mpr member
    rw [if_pos halfOpen,attempts,List.count_erase_self]
    omega
  case isFalse other =>
    refine ⟨?_,past⟩
    show s.breaker.halfOpenAttempts = if s.breaker.state = .halfOpen then ((s.out.erase window).count s.breaker.probeWindow : ℤ) else 0
    rw [attempts]
    split
    case isTrue halfOpen =>
      have differs : s.breaker.probeWindow ≠ window := fun same => other ⟨halfOpen,same⟩
      rw [List.count_erase_of_ne differs]
    case isFalse => rfl

theorem Accounted.closed (outside : s.breaker.state ≠ .halfOpen) {breaker : CircuitBreaker}
    (state : breaker.state = s.breaker.state) (window : breaker.probeWindow = s.breaker.probeWindow)
    (same : breaker.halfOpenAttempts = s.breaker.halfOpenAttempts) : Accounted ⟨breaker,s.out⟩ := by
  have attempts := accounted.attempts
  rw [if_neg outside] at attempts
  refine ⟨?_,fun other member => ?_⟩
  · show breaker.halfOpenAttempts = if breaker.state = .halfOpen then (s.out.count breaker.probeWindow : ℤ) else 0
    rw [state,if_neg outside,same,attempts]
  · show other ≤ breaker.probeWindow
    rw [window]
    exact accounted.past other member

theorem Accounted.recordSuccess (now : ℚ) :
    Accounted { s with breaker := s.breaker.recordSuccess config now } := by
  unfold CircuitBreaker.recordSuccess
  cases state : s.breaker.state with
  | halfOpen => exact accounted.renew rfl rfl
  | closed => exact accounted.closed (by rw [state]; decide) rfl rfl rfl
  | open_ => exact accounted

theorem Accounted.recordFailure (now : ℚ) :
    Accounted { s with breaker := s.breaker.recordFailure config now } := by
  unfold CircuitBreaker.recordFailure
  cases state : s.breaker.state with
  | halfOpen => exact accounted.renew rfl rfl
  | closed =>
    dsimp only
    split
    · exact accounted.renew rfl rfl
    · exact accounted.closed (by rw [state]; decide) rfl rfl rfl
  | open_ => exact accounted.closed (by rw [state]; decide) rfl rfl rfl

theorem Accounted.tryCanExecute (now : ℚ) :
    Accounted ⟨(s.breaker.tryCanExecute config now).2,withProbe s.out (s.breaker.tryCanExecute config now).1⟩ := by
  unfold CircuitBreaker.tryCanExecute
  cases state : s.breaker.state with
  | closed => exact accounted
  | open_ =>
    dsimp only
    split
    · have opened : Accounted ⟨transitionToHalfOpen now s.breaker,s.out⟩ := accounted.renew rfl rfl
      exact opened.tryProbe now rfl
    · exact accounted
  | halfOpen => exact accounted.tryProbe now state

end

end

end CodexMultiAuth.RuntimeProxy
