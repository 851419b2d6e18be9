import CodexMultiAuth.Runs
import Mathlib.Data.Rat.Defs

/-!
The watcher of the accounts file. A watch event or a poll that sees another
modification time schedules a reload; a reload reads the file at some point, may
fail, and takes down the modification time when it is done. The file is followed
by the number of its writes, so a pool is as new as the write that it was read after.
-/
namespace CodexMultiAuth.LiveSync

/-- How far a reload has come. -/
inductive Reload where
  /-- The callback has not read the file yet. -/
  | reading
  | read (version : ℕ)
  /-- The callback has succeeded, and the modification time is being read. -/
  | succeeded
  | stamped (mtimeMs : Option ℚ)
  deriving DecidableEq

inductive Poll where
  | asking
  | answered (mtimeMs : Option ℚ)
  deriving DecidableEq

/-- What `stat` gives at the moment it is answered. -/
inductive Stat where
  | seen
  /-- `ENOENT`, `EBUSY` or `EACCES`. -/
  | unreadable
  | throws
  deriving DecidableEq

structure State where
  /-- How often the file has been written, and the modification time that the last write gave it. -/
  version : ℕ
  mtimeMs : Option ℚ
  /-- The write that the last successful reload read after. -/
  served : ℕ
  running : Bool
  lastKnownMtimeMs : Option ℚ
  /-- The debounce timer is set. -/
  scheduled : Bool
  reloadInFlight : Option Reload
  polls : ℕ → Option Poll

inductive Action where
  | write (mtimeMs : Option ℚ)
  /-- An event for the file, or one without a name. -/
  | watch
  | pollTick (poll : ℕ)
  | pollStat (poll : ℕ) (stat : Stat)
  | pollDone (poll : ℕ)
  | debounce
  | reloadReads
  | reloadSucceeds
  | reloadFails
  | reloadStat (stat : Stat)
  | reloadDone
  | stop

namespace State

def readMtimeMs (s : State) : Stat → Option (Option ℚ)
  | .seen => some s.mtimeMs
  | .unreadable => some none
  | .throws => none

def scheduleReload (s : State) : State := if s.running then { s with scheduled := true } else s

def setPoll (s : State) (poll : ℕ) (phase : Option Poll) : State :=
  { s with polls := fun other => if other = poll then phase else s.polls other }

/-- A poll compares after it has waited for the modification time. -/
def pollOnce (s : State) (mtimeMs : Option ℚ) : State :=
  if mtimeMs ≠ s.lastKnownMtimeMs then ({ s with lastKnownMtimeMs := mtimeMs } : State).scheduleReload else s

/-- A reload that is in flight takes the place of another one. -/
def runReload (s : State) : State :=
  if s.running ∧ s.reloadInFlight = none then { s with reloadInFlight := some .reading } else s

end State

def enabled (s : State) : Action → Prop
  | .write _ => True
  | .watch => True
  | .pollTick poll => s.running = true ∧ s.polls poll = none
  | .pollStat poll _ => s.polls poll = some .asking
  | .pollDone poll => ∃ mtimeMs, s.polls poll = some (.answered mtimeMs)
  | .debounce => s.scheduled = true
  | .reloadReads => s.reloadInFlight = some .reading
  | .reloadSucceeds => ∃ version, s.reloadInFlight = some (.read version)
  | .reloadFails => s.reloadInFlight = some .reading ∨ ∃ version, s.reloadInFlight = some (.read version)
  | .reloadStat _ => s.reloadInFlight = some .succeeded
  | .reloadDone => ∃ mtimeMs, s.reloadInFlight = some (.stamped mtimeMs)
  | .stop => True

def step (s : State) : Action → State
  | .write mtimeMs => { s with version := s.version + 1,mtimeMs := mtimeMs }
  | .watch => s.scheduleReload
  | .pollTick poll => s.setPoll poll (some .asking)
  | .pollStat poll stat => s.setPoll poll ((s.readMtimeMs stat).map Poll.answered)
  | .pollDone poll =>
    match s.polls poll with
    | some (.answered mtimeMs) => (s.setPoll poll none).pollOnce mtimeMs
    | _ => s
  | .debounce => ({ s with scheduled := false } : State).runReload
  | .reloadReads => { s with reloadInFlight := some (.read s.version) }
  | .reloadSucceeds =>
    match s.reloadInFlight with
    | some (.read version) => { s with served := version,reloadInFlight := some .succeeded }
    | _ => s
  | .reloadFails => { s with reloadInFlight := none }
  | .reloadStat stat => { s with reloadInFlight := (s.readMtimeMs stat).map Reload.stamped }
  | .reloadDone =>
    match s.reloadInFlight with
    | some (.stamped mtimeMs) => { s with lastKnownMtimeMs := mtimeMs,reloadInFlight := none }
    | _ => s
  | .stop => { s with running := false,scheduled := false }

/-- The watcher runs and has nothing left to do: no reload and no modification time that it has not seen. -/
def Idle (s : State) : Prop :=
  s.running = true ∧ s.reloadInFlight = none ∧ s.scheduled = false ∧ s.lastKnownMtimeMs = s.mtimeMs

/-- The last successful reload read the file after the last write. -/
def Current (s : State) : Prop := s.served = s.version

/-- The watcher has just been started with the pool that the file holds. -/
structure Start (s : State) : Prop where
  current : s.served = s.version
  free : s.reloadInFlight = none
  polls : ∀ poll, s.polls poll = none

/-- The end of a reload leaves a trigger behind: a reload that is scheduled, or a modification time that is not the file's. -/
def Rearmed (s : State) (taken : Option ℚ) : Prop := s.scheduled = true ∨ taken ≠ s.mtimeMs

/-- A write is noticed, and nothing was written since the pool was read where a reload ends without a trigger left. -/
def Careful (s : State) : Action → Prop
  | .write mtimeMs => s.running = true → s.scheduled = true ∨ s.reloadInFlight ≠ none ∨ s.lastKnownMtimeMs ≠ mtimeMs
  | .reloadFails => s.running = true → Rearmed s s.lastKnownMtimeMs ∨ s.served = s.version
  | .reloadStat .throws => s.running = true → Rearmed s s.lastKnownMtimeMs ∨ s.served = s.version
  | .reloadDone => s.running = true → ∀ taken, s.reloadInFlight = some (.stamped taken) → Rearmed s taken ∨ s.served = s.version
  | _ => True

/-- While the watcher runs, no write falls between the read of a reload and its end, or goes
    unnoticed where there is none, and a reload fails only when another one is scheduled. -/
def Undisturbed (s : State) : Action → Prop
  | .write mtimeMs => s.running = true →
    s.reloadInFlight = some .reading ∨ s.reloadInFlight = none ∧ (s.scheduled = true ∨ s.lastKnownMtimeMs ≠ mtimeMs)
  | .reloadFails => s.running = true → s.scheduled = true
  | _ => True

/-- Nothing was read after a write that has not been made. -/
structure Bounded (s : State) : Prop where
  served : s.served ≤ s.version
  read : ∀ version, s.reloadInFlight = some (.read version) → version ≤ s.version

structure Good (s : State) : Prop where
  bounded : Bounded s
  current : Idle s → Current s

section
variable {s : State}

theorem Start.good (start : Start s) : Good s := by
  refine ⟨⟨start.current.le,?_⟩,fun _ => start.current⟩
  intro version reading
  rw [start.free] at reading
  cases reading

@[simp] theorem scheduleReload_version (s : State) : s.scheduleReload.version = s.version := by unfold State.scheduleReload; split <;> rfl
@[simp] theorem scheduleReload_served (s : State) : s.scheduleReload.served = s.served := by unfold State.scheduleReload; split <;> rfl
@[simp] theorem scheduleReload_reloadInFlight (s : State) : s.scheduleReload.reloadInFlight = s.reloadInFlight := by
  unfold State.scheduleReload; split <;> rfl

theorem scheduleReload_busy (s : State) : ¬ Idle s.scheduleReload := by
  unfold State.scheduleReload
  split
  · rintro ⟨_,_,scheduled,_⟩
    cases scheduled
  · next stopped =>
    rintro ⟨running,_⟩
    exact stopped running

theorem Good.of_same (good : Good s) {after : State} (version : after.version = s.version) (served : after.served = s.served)
    (reload : after.reloadInFlight = s.reloadInFlight) (idle : Idle after → Idle s) : Good after := by
  refine ⟨⟨?_,?_⟩,?_⟩
  · rw [served,version]
    exact good.bounded.served
  · intro read reading
    rw [reload] at reading
    rw [version]
    exact good.bounded.read read reading
  · intro quiet
    rw [Current,served,version]
    exact good.current (idle quiet)

theorem Good.ended (good : Good s) (taken : Option ℚ) (ends : s.running = true → Rearmed s taken ∨ s.served = s.version) :
    Good { s with lastKnownMtimeMs := taken,reloadInFlight := none } := by
  refine ⟨⟨good.bounded.served,?_⟩,?_⟩
  · intro version reading
    cases reading
  · rintro ⟨running,_,unscheduled,same⟩
    rcases ends running with (scheduled | other) | current
    · exact absurd (scheduled.symm.trans unscheduled) (by decide)
    · exact absurd same other
    · exact current

variable {action : Action}

theorem Good.next (good : Good s) (may : enabled s action) (careful : Careful s action) : Good (step s action) := by
  cases action with
  | write mtimeMs =>
    refine ⟨⟨Nat.le_succ_of_le good.bounded.served,fun version reading => Nat.le_succ_of_le (good.bounded.read version reading)⟩,?_⟩
    rintro ⟨running,free,unscheduled,same⟩
    rcases careful running with scheduled | flying | other
    · exact absurd (scheduled.symm.trans unscheduled) (by decide)
    · exact absurd free flying
    · exact absurd same other
  | watch => exact good.of_same (by simp [step]) (by simp [step]) (by simp [step]) (fun idle => absurd idle (scheduleReload_busy s))
  | pollTick poll => exact good.of_same rfl rfl rfl id
  | pollStat poll stat => exact good.of_same rfl rfl rfl id
  | pollDone poll =>
    obtain ⟨mtimeMs,answered⟩ := may
    simp only [step,answered,State.pollOnce]
    split
    · exact good.of_same (by simp [State.setPoll]) (by simp [State.setPoll]) (by simp [State.setPoll])
        (fun idle => absurd idle (scheduleReload_busy _))
    · exact good.of_same rfl rfl rfl id
  | debounce =>
    simp only [step,State.runReload]
    split
    · refine ⟨⟨good.bounded.served,?_⟩,?_⟩
      · intro version reading
        cases reading
      · rintro ⟨_,flying,_⟩
        cases flying
    · next other =>
      refine good.of_same rfl rfl rfl ?_
      rintro ⟨running,free,_⟩
      exact absurd ⟨running,free⟩ other
  | reloadReads =>
    refine ⟨⟨good.bounded.served,?_⟩,?_⟩
    · intro version reading
      cases reading
      exact le_rfl
    · rintro ⟨_,flying,_⟩
      cases flying
  | reloadSucceeds =>
    obtain ⟨version,reading⟩ := may
    simp only [step,reading]
    refine ⟨⟨good.bounded.read version reading,?_⟩,?_⟩
    · intro version reading
      cases reading
    · rintro ⟨_,flying,_⟩
      cases flying
  | reloadFails => exact good.ended s.lastKnownMtimeMs careful
  | reloadStat stat =>
    cases stat with
    | throws => exact good.ended s.lastKnownMtimeMs careful
    | seen | unreadable =>
      refine ⟨⟨good.bounded.served,?_⟩,?_⟩
      · intro version reading
        cases reading
      · rintro ⟨_,flying,_⟩
        cases flying
  | reloadDone =>
    obtain ⟨taken,stamped⟩ := may
    simp only [step,stamped]
    exact good.ended taken (fun running => careful running taken stamped)
  | stop =>
    refine ⟨⟨good.bounded.served,good.bounded.read⟩,?_⟩
    rintro ⟨running,_⟩
    cases running

theorem rearmed_or_current {taken : Option ℚ} (kept : Idle { s with lastKnownMtimeMs := taken,reloadInFlight := none } → s.served = s.version)
    (running : s.running = true) : Rearmed s taken ∨ s.served = s.version := by
  by_cases armed : Rearmed s taken
  · exact Or.inl armed
  · rw [Rearmed,not_or,not_not,Bool.not_eq_true] at armed
    exact Or.inr (kept ⟨running,rfl,armed.1,armed.2⟩)

theorem careful_of_kept (good : Good s) (may : enabled s action) (kept : Idle (step s action) → Current (step s action)) :
    Careful s action := by
  cases action with
  | write mtimeMs =>
    intro running
    by_cases busy : s.scheduled = true ∨ s.reloadInFlight ≠ none ∨ s.lastKnownMtimeMs ≠ mtimeMs
    · exact busy
    · simp only [not_or,not_not,Bool.not_eq_true] at busy
      have served : s.served = s.version + 1 := kept ⟨running,busy.2.1,busy.1,busy.2.2⟩
      have bound := good.bounded.served
      omega
  | reloadFails => exact rearmed_or_current kept
  | reloadStat stat =>
    cases stat with
    | throws => exact rearmed_or_current kept
    | seen | unreadable => trivial
  | reloadDone =>
    intro running taken stamped
    simp only [step,stamped] at kept
    exact rearmed_or_current kept running
  | _ => trivial

/-- What a reload has read is what the file holds, until it ends. -/
def Reload.Fresh (s : State) : Reload → Prop
  | .reading => True
  | .read version => version = s.version
  | .succeeded => s.served = s.version
  | .stamped _ => s.served = s.version

def Fresh (s : State) : Prop := s.running = true → ∀ phase, s.reloadInFlight = some phase → phase.Fresh s

theorem Start.fresh (start : Start s) : Fresh s := by
  intro _ phase flying
  rw [start.free] at flying
  cases flying

theorem fresh_of_free (free : s.reloadInFlight = none) : Fresh s := by
  intro _ phase flying
  rw [free] at flying
  cases flying

theorem Fresh.of_same (fresh : Fresh s) {after : State} (running : after.running = true → s.running = true) (version : after.version = s.version)
    (served : after.served = s.served) (reload : after.reloadInFlight = s.reloadInFlight) : Fresh after := by
  intro runs phase flying
  have before := fresh (running runs) phase (reload ▸ flying)
  cases phase with
  | reading => trivial
  | read _ => exact Eq.trans before version.symm
  | succeeded | stamped _ => exact served.trans (Eq.trans before version.symm)

theorem scheduleReload_running (runs : s.scheduleReload.running = true) : s.running = true := by
  unfold State.scheduleReload at runs
  split at runs
  · exact runs
  · exact runs

theorem Fresh.next (fresh : Fresh s) (may : enabled s action) (undisturbed : Undisturbed s action) : Fresh (step s action) := by
  cases action with
  | write mtimeMs =>
    intro running phase flying
    rcases undisturbed running with reading | free
    · rw [← Option.some.inj (reading.symm.trans flying)]
      trivial
    · exact absurd (free.1.symm.trans flying) (by simp)
  | watch => exact fresh.of_same scheduleReload_running (by simp [step]) (by simp [step]) (by simp [step])
  | pollTick poll => exact fresh.of_same id rfl rfl rfl
  | pollStat poll stat => exact fresh.of_same id rfl rfl rfl
  | pollDone poll =>
    obtain ⟨mtimeMs,answered⟩ := may
    simp only [step,answered,State.pollOnce]
    split
    · exact fresh.of_same scheduleReload_running (by simp [State.setPoll]) (by simp [State.setPoll]) (by simp [State.setPoll])
    · exact fresh.of_same id rfl rfl rfl
  | debounce =>
    simp only [step,State.runReload]
    split
    · rintro _ phase ⟨rfl⟩
      trivial
    · exact fresh.of_same id rfl rfl rfl
  | reloadReads =>
    rintro _ phase ⟨rfl⟩
    exact rfl
  | reloadSucceeds =>
    obtain ⟨version,reading⟩ := may
    simp only [step,reading]
    rintro running phase ⟨rfl⟩
    exact fresh running _ reading
  | reloadFails => exact fresh_of_free rfl
  | reloadStat stat =>
    rintro running phase flying
    obtain ⟨mtimeMs,-,rfl⟩ := Option.map_eq_some_iff.mp flying
    exact fresh running _ may
  | reloadDone =>
    obtain ⟨taken,stamped⟩ := may
    simp only [step,stamped]
    exact fresh_of_free rfl
  | stop =>
    intro running
    cases running

theorem Fresh.careful (fresh : Fresh s) (may : enabled s action) (undisturbed : Undisturbed s action) : Careful s action := by
  cases action with
  | write mtimeMs =>
    intro running
    rcases undisturbed running with reading | ⟨_,noticed⟩
    · exact Or.inr (Or.inl (by simp [reading]))
    · exact noticed.imp_right Or.inr
  | reloadFails => exact fun running => Or.inl (Or.inl (undisturbed running))
  | reloadStat stat =>
    cases stat with
    | throws => exact fun running => Or.inr (fresh running _ may)
    | seen | unreadable => trivial
  | reloadDone => exact fun running taken stamped => Or.inr (fresh running _ stamped)
  | _ => trivial

end

/-- The watcher is never idle with a pool that is older than the file, just when every step of
    the run is careful; and so it is where nothing disturbs a reload between its read and its end. -/
theorem live_sync_current_iff {start : State} (begins : Start start) {actions : List Action} (legal : Runs.Legal step enabled start actions) :
    (Runs.Along step (fun s => Idle s → Current s) start actions ↔ Runs.Legal step Careful start actions) ∧
      (Runs.Legal step Undisturbed start actions → Runs.Along step (fun s => Idle s → Current s) start actions) := by
  have equiv := Runs.along_iff_legal (P := fun s => Idle s → Current s) (fun _ (good : Good _) => good.current)
    (fun _ _ may good careful => good.next may careful) (fun _ _ may good kept => careful_of_kept good may kept) legal begins.good
  refine ⟨equiv,fun undisturbed => equiv.mpr ?_⟩
  have both := legal.and undisturbed
  exact Runs.Legal.of_invariant (fun _ _ may fresh => fresh.next may.1 may.2) (fun _ _ _ fresh may => fresh.careful may.1 may.2)
    begins.fresh both both

def started : State where
  version := 0
  mtimeMs := some 0
  served := 0
  running := true
  lastKnownMtimeMs := some 0
  scheduled := false
  reloadInFlight := none
  polls := fun _ => none

theorem started_start : Start started := ⟨rfl,rfl,fun _ => rfl⟩

def polled : List Action :=
  [.write (some 1),.pollTick 0,.pollStat 0 .seen,.pollDone 0,.debounce,.reloadReads,.reloadSucceeds,.reloadStat .seen,.reloadDone]

theorem polled_legal : Runs.Legal step enabled started polled :=
  ⟨trivial,⟨rfl,rfl⟩,rfl,⟨some 1,rfl⟩,rfl,rfl,⟨1,rfl⟩,rfl,⟨some 1,rfl⟩,trivial⟩

theorem polled_stays_current : Runs.Along step (fun s => Idle s → Current s) started polled := by
  refine (live_sync_current_iff started_start polled_legal).2 ⟨?_,trivial,trivial,trivial,trivial,trivial,trivial,trivial,trivial,trivial⟩
  intro _
  refine Or.inr ⟨rfl,Or.inr ?_⟩
  decide

/-- The second write falls between the read of a reload and its end, and the reload that it schedules is taken for the one in flight. -/
def absorbed : List Action :=
  [.write (some 1),.watch,.debounce,.reloadReads,.write (some 2),.watch,.debounce,.reloadSucceeds,.reloadStat .seen,.reloadDone]

theorem live_sync_misses_write :
    ¬ ∀ (start : State) (actions : List Action), Start start → Runs.Legal step enabled start actions →
      Idle (actions.foldl step start) → Current (actions.foldl step start) := by
  intro claim
  have legal : Runs.Legal step enabled started absorbed :=
    ⟨trivial,trivial,rfl,rfl,trivial,trivial,rfl,⟨1,rfl⟩,rfl,⟨some 2,rfl⟩,trivial⟩
  have current := claim started absorbed started_start legal ⟨rfl,rfl,rfl,rfl⟩
  exact absurd (show (1 : ℕ) = 2 from current) (by decide)

end CodexMultiAuth.LiveSync
