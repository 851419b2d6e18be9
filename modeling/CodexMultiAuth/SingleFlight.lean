import CodexMultiAuth.RefreshQueue

/-!
One refresh of a token at a time. While a flight executes, the entry of its token is its
own, so that every call for the token awaits it.
-/
namespace CodexMultiAuth.RefreshQueue
open OrderedMap OrderedMap
open RefreshLease (TokenResult)
open Runs (Legal)

def Executes (s : State) (generation : ℕ) (token : String) : Prop := s.flights.find generation = some ⟨token,.executing⟩

/-- A flight that goes on to execute finds an entry for its token: its own, or a newer one to join. -/
def Registered (s : State) : Action → Prop
  | .acquired generation lease _ =>
    lease = .owner ∨ lease = .bypass → ∀ token, s.flights.find generation = some ⟨token,.acquiring⟩ → (s.pending.find token).isSome = true
  | _ => True

theorem find_filter {entries : OrderedMap String RefreshEntry} {keep : RefreshEntry → Bool} {token : String} {entry : RefreshEntry}
    (found : entries.find token = some entry) (kept : keep entry = true) :
    find (entries.filter (fun entry => keep entry.2)) token = some entry := by
  induction entries with
  | nil => cases found
  | cons first rest ih =>
    rw [find_cons] at found
    rw [List.filter_cons]
    split_ifs at found with here
    · rw [Option.some.inj found,if_pos kept,find_cons,if_pos here,Option.some.inj found]
    · split_ifs
      · rw [find_cons,if_neg here]
        exact ih found
      · exact ih found

namespace State
variable (config : Config) (now : ℤ) (s : State)

theorem flights_rotate (token : String) (result : TokenResult) : (s.rotate token result).flights = s.flights := by
  unfold rotate
  split
  · split_ifs <;> rfl
  · rfl

theorem pending_rotate (token : String) (result : TokenResult) : (s.rotate token result).pending = s.pending := by
  unfold rotate
  split
  · split_ifs <;> rfl
  · rfl

theorem flights_markStage (generation : ℕ) (token : String) (stage : Stage) : (s.markStage generation token stage now).flights = s.flights := by
  unfold markStage
  split
  · rfl
  · split_ifs <;> rfl

theorem nextGeneration_markStage (generation : ℕ) (token : String) (stage : Stage) :
    (s.markStage generation token stage now).nextGeneration = s.nextGeneration := by
  unfold markStage
  split
  · rfl
  · split_ifs <;> rfl

theorem nextGeneration_rotate (token : String) (result : TokenResult) : (s.rotate token result).nextGeneration = s.nextGeneration := by
  unfold rotate
  split
  · split_ifs <;> rfl
  · rfl

theorem pending_markStage {generation : ℕ} {token : String} (stage : Stage) {other : String} {entry : RefreshEntry}
    (found : s.pending.find other = some entry) (apart : entry.generation ≠ generation) :
    (s.markStage generation token stage now).pending.find other = some entry := by
  unfold markStage
  split
  · exact found
  · next current here =>
    split_ifs with differs
    · exact found
    · rw [find_put,if_neg]
      · exact found
      · rintro rfl
        rw [here] at found
        cases found
        exact differs apart

end State

section
variable (config : Config)

/-- How a flight may go on by an action. -/
inductive Moves (s : State) (generation : ℕ) (token : String) : Action → Phase → Phase → Prop
  | leased (lease : Lease) (now : ℤ) (result : TokenResult) : Moves s generation token (.acquired generation lease now) .acquiring (.settled result)
  | joins (lease : Lease) (now : ℤ) (newer : ℕ) : Moves s generation token (.acquired generation lease now) .acquiring (.joining newer)
  | executes (lease : Lease) (now : ℤ) (leads : lease = .owner ∨ lease = .bypass) (alone : s.getSupersedingPromise generation token = none) :
    Moves s generation token (.acquired generation lease now) .acquiring .executing
  | executed (execution : Execution) :
    Moves s generation token (.executed generation execution) .executing (.releasing (executeRefresh config execution))
  | released (result : TokenResult) : Moves s generation token (.released generation) (.releasing result) (.settled result)
  | joined (newer : ℕ) (result : TokenResult) : Moves s generation token (.joined generation) (.joining newer) (.settled result)
  | finished (result : TokenResult) : Moves s generation token (.finish generation) (.settled result) (.finished result)

/-- A step of a flight from one phase to another. -/
structure Moved (s : State) (generation : ℕ) (token : String) (action : Action) (before after : Phase) (t : State) : Prop where
  found : s.flights.find generation = some ⟨token,before⟩
  moves : Moves config s generation token action before after
  flights : t.flights = s.flights.put generation ⟨token,after⟩
  nextGeneration : t.nextGeneration = s.nextGeneration
  kept : ∀ other entry, s.pending.find other = some entry → entry.generation ≠ generation → t.pending.find other = some entry
  marked : after = .executing → ∀ entry, s.pending.find token = some entry → entry.generation = generation →
    ∃ marked, t.pending.find token = some marked ∧ marked.generation = generation ∧ marked.stage = .refresh

variable {s : State} {generation : ℕ}

theorem own_cases {action : Action} (own : action.flight = some generation) :
    step config s action = s ∨
      ∃ token before after, Moved config s generation token action before after (step config s action) := by
  have plain {token : String} {before after : Phase} (found : s.flights.find generation = some ⟨token,before⟩)
      (moves : Moves config s generation token action before after) (waits : after ≠ .executing) :
      Moved config s generation token action before after (s.setPhase generation token after) :=
    ⟨found,moves,rfl,rfl,fun _ _ there _ => there,fun same => absurd same waits⟩
  cases action with
  | refresh refreshToken now => cases own
  | acquired flight lease now =>
    cases own
    unfold step State.acquired
    dsimp only
    split
    case h_2 => exact Or.inl rfl
    case h_1 token found =>
      have settles (result : TokenResult) : Moved config s generation token (.acquired generation lease now) .acquiring
          (.settled result) (s.setPhase generation token (.settled result)) :=
        plain found (.leased lease now result) (by simp)
      have joining (newer : ℕ) : Moved config s generation token (.acquired generation lease now) .acquiring
          (.joining newer) (s.setPhase generation token (.joining newer)) :=
        plain found (.joins lease now newer) (by simp)
      have leading (leads : lease = .owner ∨ lease = .bypass) (alone : s.getSupersedingPromise generation token = none) :
          Moved config s generation token (.acquired generation lease now) .acquiring .executing
            ((s.markStage generation token .refresh now).setPhase generation token .executing) := by
        refine ⟨found,.executes lease now leads alone,?_,?_,fun _ _ there differs => State.pending_markStage now s .refresh there differs,
          fun _ entry there mine => ?_⟩
        · show put (s.markStage generation token .refresh now).flights _ _ = _
          rw [State.flights_markStage]
        · exact State.nextGeneration_markStage now s generation token .refresh
        · refine ⟨{ entry with stage := .refresh,startedAt := now },?_,mine,rfl⟩
          show (s.markStage generation token .refresh now).pending.find token = _
          unfold State.markStage
          rw [there]
          dsimp only
          rw [if_neg (not_not.mpr mine),find_put,if_pos rfl]
      refine Or.inr ⟨token,.acquiring,?_⟩
      cases lease with
      | threw =>
        dsimp only
        split
        · exact ⟨_,joining _⟩
        · exact ⟨_,settles _⟩
      | blocked => exact ⟨_,settles _⟩
      | follower result =>
        cases result with
        | none => exact ⟨_,settles _⟩
        | some result => exact ⟨_,settles _⟩
      | owner =>
        dsimp only
        split
        case h_1 => exact ⟨_,joining _⟩
        case h_2 alone => exact ⟨_,leading (Or.inl rfl) alone⟩
      | bypass =>
        dsimp only
        split
        case h_1 => exact ⟨_,joining _⟩
        case h_2 alone => exact ⟨_,leading (Or.inr rfl) alone⟩
  | executed flight execution =>
    cases own
    unfold step State.executed
    dsimp only
    split
    case h_2 => exact Or.inl rfl
    case h_1 token found =>
      refine Or.inr ⟨token,.executing,_,found,.executed execution,?_,?_,?_,fun same => nomatch same⟩
      · show put (s.rotate token _).flights _ _ = _
        rw [State.flights_rotate]
      · exact State.nextGeneration_rotate s token _
      · intro other entry there _
        show (s.rotate token _).pending.find other = some entry
        rw [State.pending_rotate]
        exact there
  | released flight =>
    cases own
    unfold step State.released
    dsimp only
    split
    case h_2 => exact Or.inl rfl
    case h_1 token result found => exact Or.inr ⟨token,_,_,plain found (.released result) (by simp)⟩
  | joined flight =>
    cases own
    unfold step State.joined
    dsimp only
    split
    case h_2 => exact Or.inl rfl
    case h_1 token newer found =>
      split
      case h_1 result _ => exact Or.inr ⟨token,_,_,plain found (.joined newer result) (by simp)⟩
      case h_2 => exact Or.inl rfl
  | finish flight =>
    cases own
    unfold step State.finish
    dsimp only
    split
    case h_2 => exact Or.inl rfl
    case h_1 token result found =>
      have finished := plain found (.finished result) (by simp)
      refine Or.inr ⟨token,.settled result,.finished result,?_⟩
      split_ifs with mine
      · refine ⟨found,.finished result,rfl,rfl,fun other entry there differs => ?_,fun same => nomatch same⟩
        show find (remove s.pending token) other = some entry
        rw [find_remove,if_neg]
        · exact there
        · rintro rfl
          rw [show (s.setPhase generation token (.finished result)).pending.find token = some entry from there] at mine
          exact differs (of_decide_eq_true mine)
      · exact finished

theorem step_other {action : Action} (own : action.flight = some generation) :
    (∀ other, other ≠ generation → (step config s action).flights.find other = s.flights.find other) ∧
      ∀ token entry, s.pending.find token = some entry → entry.generation ≠ generation →
        (step config s action).pending.find token = some entry := by
  rcases own_cases config own with same | ⟨token,before,after,moved⟩
  · rw [same]
    exact ⟨fun _ _ => rfl,fun _ _ found _ => found⟩
  · refine ⟨fun other apart => ?_,moved.kept⟩
    rw [moved.flights,find_put,if_neg (Ne.symm apart)]

/-! ### A registered execution -/

/-- Each execution has the entry of its token, and flights are numbered in order. -/
structure Inv (s : State) : Prop where
  registered : ∀ generation token, Executes s generation token →
    ∃ entry, s.pending.find token = some entry ∧ entry.generation = generation ∧ entry.stage = .refresh
  bounded : ∀ generation flight, s.flights.find generation = some flight → generation ≤ s.nextGeneration

theorem Inv.start : Inv {} := ⟨fun _ _ executes => (nomatch executes),fun _ _ found => (nomatch found)⟩

variable {token : String}

theorem cleanup_keeps (now : ℤ) {entry : RefreshEntry} (found : s.pending.find token = some entry)
    (refreshing : entry.stage = .refresh) : (s.cleanup config now).pending.find token = some entry := by
  refine @find_filter _ (fun entry => !stuck config now entry) _ _ found ?_
  simp [stuck,refreshing]

theorem refresh_awaits (inv : Inv s) (executes : Executes s generation token) (now : ℤ) :
    s.refresh config token now = (s.cleanup config now,generation) := by
  obtain ⟨entry,found,own,refreshing⟩ := inv.registered generation token executes
  unfold State.refresh State.inFlight
  dsimp only
  rw [cleanup_keeps config now found refreshing]
  dsimp only
  rw [own]

theorem Inv.refresh (inv : Inv s) (refreshToken : String) (now : ℤ) : Inv (s.refresh config refreshToken now).1 := by
  have cleaned : Inv (s.cleanup config now) := by
    refine ⟨fun generation token executes => ?_,inv.bounded⟩
    obtain ⟨entry,found,own,refreshing⟩ := inv.registered generation token executes
    exact ⟨entry,cleanup_keeps config now found refreshing,own,refreshing⟩
  unfold State.refresh
  dsimp only
  cases joins : (s.cleanup config now).inFlight refreshToken with
  | some generation => exact cleaned
  | none =>
    have absent : (s.cleanup config now).pending.find refreshToken = none := by
      unfold State.inFlight at joins
      cases found : (s.cleanup config now).pending.find refreshToken with
      | none => rfl
      | some entry =>
        rw [found] at joins
        cases joins
    constructor
    · intro generation token executes
      have before : Executes (s.cleanup config now) generation token := by
        have found : find (put s.flights (s.nextGeneration + 1) ⟨refreshToken,.acquiring⟩) generation = some ⟨token,.executing⟩ :=
          executes
        rw [find_put] at found
        split_ifs at found with same
        · exact nomatch congrArg (Option.map Flight.phase) found
        · exact found
      obtain ⟨entry,found,own,refreshing⟩ := cleaned.registered generation token before
      refine ⟨entry,?_,own,refreshing⟩
      show find (put (s.cleanup config now).pending refreshToken _) token = some entry
      rw [find_put,if_neg]
      · exact found
      · rintro rfl
        rw [absent] at found
        cases found
    · intro generation flight found
      have put : find (put s.flights (s.nextGeneration + 1) ⟨refreshToken,.acquiring⟩) generation = some flight := found
      show generation ≤ s.nextGeneration + 1
      rw [find_put] at put
      split_ifs at put with same
      · exact same.symm.le
      · exact (inv.bounded generation flight put).trans (Nat.le_succ _)

theorem Inv.step (inv : Inv s) {action : Action} (registered : Registered s action) : Inv (step config s action) := by
  cases mine : action.flight with
  | none =>
    cases action with
    | refresh refreshToken now => exact inv.refresh config refreshToken now
    | _ => cases mine
  | some generation =>
    rcases own_cases config mine with same | ⟨token,before,after,moved⟩
    · rw [same]
      exact inv
    have apart := step_other config (s := s) mine
    constructor
    · intro other text executes
      by_cases own : other = generation
      · subst own
        have here : (RefreshQueue.step config s action).flights.find other = some ⟨text,.executing⟩ := executes
        rw [moved.flights,find_put,if_pos rfl] at here
        obtain ⟨rfl,rfl⟩ := Flight.mk.inj (Option.some.inj here)
        have moves := moved.moves
        cases moves with
        | executes lease now leads alone =>
          obtain ⟨entry,there⟩ := Option.isSome_iff_exists.mp (registered leads token moved.found)
          refine moved.marked rfl entry there ?_
          unfold State.getSupersedingPromise at alone
          rw [there] at alone
          dsimp only at alone
          split_ifs at alone with same
          exact same
      · have before : Executes s other text := (apart.1 other own).symm.trans executes
        obtain ⟨entry,found,held,refreshing⟩ := inv.registered other text before
        exact ⟨entry,apart.2 text entry found (held ▸ own),held,refreshing⟩
    · intro other flight found
      rw [moved.nextGeneration]
      rw [moved.flights,find_put] at found
      split_ifs at found with same
      · exact same ▸ inv.bounded generation _ moved.found
      · exact inv.bounded other flight found

variable {actions : List Action}

theorem Inv.run (inv : Inv s) (registered : Legal (RefreshQueue.step config) Registered s actions) :
    Inv (actions.foldl (RefreshQueue.step config) s) := by
  induction actions generalizing s with
  | nil => exact inv
  | cons action rest ih => exact ih (inv.step config registered.1) registered.2

/-! ### What a call is given -/

theorem phase_step (inv : Inv s) (action : Action) {phase : Phase}
    (found : s.flights.find generation = some ⟨token,phase⟩) :
    (step config s action).flights.find generation = some ⟨token,phase⟩ ∨
      ∃ after, Moves config s generation token action phase after ∧
        (step config s action).flights.find generation = some ⟨token,after⟩ := by
  cases mine : action.flight with
  | none =>
    cases action with
    | refresh refreshToken now =>
      refine Or.inl ?_
      show (s.refresh config refreshToken now).1.flights.find generation = _
      unfold State.refresh
      dsimp only
      split
      · exact found
      · show find (put s.flights (s.nextGeneration + 1) _) generation = _
        have before := inv.bounded generation _ found
        rw [find_put,if_neg (by omega)]
        exact found
    | _ => cases mine
  | some other =>
    by_cases own : generation = other
    · subst own
      rcases own_cases config mine with same | ⟨text,before,after,moved⟩
      · exact Or.inl (same.symm ▸ found)
      · have both := moved.found.symm.trans found
        obtain ⟨rfl,rfl⟩ := Flight.mk.inj (Option.some.inj both)
        refine Or.inr ⟨after,moved.moves,?_⟩
        rw [moved.flights,find_put,if_pos rfl]
    · exact Or.inl (((step_other config mine).1 generation own).trans found)

/-- A flight that came to a result. -/
def Came (result : TokenResult) (phase : Phase) : Prop := phase = .releasing result ∨ phase = .settled result ∨ phase = .finished result

theorem came_run (inv : Inv s) (registered : Legal (step config) Registered s actions)
    {phase : Phase} (found : s.flights.find generation = some ⟨token,phase⟩) {result : TokenResult}
    (came : Came result phase) :
    ∃ phase, (actions.foldl (step config) s).flights.find generation = some ⟨token,phase⟩ ∧ Came result phase := by
  induction actions generalizing s phase with
  | nil => exact ⟨phase,found,came⟩
  | cons action rest ih =>
    have next := inv.step config registered.1
    rcases phase_step config inv action found with same | ⟨after,moves,moved⟩
    · exact ih next registered.2 same came
    · refine ih next registered.2 moved ?_
      rcases came with rfl | rfl | rfl
      · cases moves
        exact Or.inr (Or.inl rfl)
      · cases moves
        exact Or.inr (Or.inr rfl)
      · cases moves

theorem came_outcome {phase : Phase} (found : s.flights.find generation = some ⟨token,phase⟩)
    {result other : TokenResult} (came : Came result phase) (read : s.outcome generation = some other) : other = result := by
  unfold State.outcome at read
  rw [found] at read
  rcases came with rfl | rfl | rfl
  · cases read
  · exact (Option.some.inj read).symm
  · exact (Option.some.inj read).symm

theorem execution_outcome (inv : Inv s) (registered : Legal (step config) Registered s actions)
    (executes : Executes s generation token) {result : TokenResult}
    (read : (actions.foldl (step config) s).outcome generation = some result) :
    ∃ earlier execution later, actions = earlier ++ .executed generation execution :: later ∧
      Executes (earlier.foldl (step config) s) generation token ∧ result = executeRefresh config execution := by
  induction actions generalizing s with
  | nil =>
    unfold State.outcome at read
    rw [show (([] : List Action).foldl (step config) s).flights.find generation = some ⟨token,.executing⟩ from executes] at read
    cases read
  | cons action rest ih =>
    rcases phase_step config inv action executes with same | ⟨after,moves,moved⟩
    · obtain ⟨earlier,execution,later,rfl,still,came⟩ := ih (inv.step config registered.1) registered.2 same read
      exact ⟨action :: earlier,execution,later,rfl,still,came⟩
    · cases moves with
      | executed execution =>
        obtain ⟨phase,found,came⟩ := came_run config (inv.step config registered.1) registered.2 moved (Or.inl rfl)
        exact ⟨[],execution,rest,rfl,executes,came_outcome found came read⟩

/-- What the queue owes its calls between two parts of a run. -/
structure SingleFlight (before after : List Action) : Prop where
  alone : ∀ generation other token, Executes (before.foldl (step config) {}) generation token →
    Executes (before.foldl (step config) {}) other token → generation = other
  awaited : ∀ generation token now, Executes (before.foldl (step config) {}) generation token →
    ((before.foldl (step config) {}).refresh config token now).2 = generation
  answered : ∀ generation token result, Executes (before.foldl (step config) {}) generation token →
    ((before ++ after).foldl (step config) {}).outcome generation = some result →
      ∃ earlier execution later, after = earlier ++ .executed generation execution :: later ∧
        Executes ((before ++ earlier).foldl (step config) {}) generation token ∧ result = executeRefresh config execution
  sparesEntries : ∀ action generation token entry, action.flight = some generation →
    (before.foldl (step config) {}).pending.find token = some entry → entry.generation ≠ generation →
      (step config (before.foldl (step config) {}) action).pending.find token = some entry
  sparesResults : ∀ action generation other, action.flight = some generation → other ≠ generation →
    (step config (before.foldl (step config) {}) action).outcome other =
      (before.foldl (step config) {}).outcome other

/-- In a run in which every flight that goes on to execute finds an entry for its token, one
    refresh of a token is under way at a time, a call that comes in between is given its result,
    and what a flight does leaves newer entries and the results of other flights alone. -/
theorem single_flight (before after : List Action) (registered : Legal (step config) Registered {} (before ++ after)) :
    SingleFlight config before after := by
  obtain ⟨earlier,later⟩ := Runs.legal_append.mp registered
  have inv := Inv.start.run config earlier
  constructor
  · intro generation other token executes executesToo
    obtain ⟨entry,found,held,-⟩ := inv.registered generation token executes
    obtain ⟨entry',found',held',-⟩ := inv.registered other token executesToo
    rw [found] at found'
    cases found'
    exact held.symm.trans held'
  · intro generation token now executes
    rw [refresh_awaits config inv executes now]
  · intro generation token result executes read
    rw [List.foldl_append] at read
    obtain ⟨first,execution,rest,same,still,came⟩ := execution_outcome config inv later executes read
    refine ⟨first,execution,rest,same,?_,came⟩
    rw [List.foldl_append]
    exact still
  · exact fun action generation token entry own => (step_other config own).2 token entry
  · intro action generation other own apart
    unfold State.outcome
    rw [(step_other config own).1 other apart]

end

/-- A call, its lease, and a second call before the refresh is done. -/
theorem joined_call_single_flight : SingleFlight ⟨30000,none⟩ [.refresh "T" 0,.acquired 1 .owner 10,.refresh "T" 20]
    [.executed 1 (.threw none),.released 1,.finish 1] := by
  refine single_flight _ _ _ ⟨trivial,fun _ token found => ?_,trivial,trivial,trivial,trivial,trivial⟩
  obtain ⟨rfl,-⟩ := Flight.mk.inj (Option.some.inj found)
  rfl

/-- A flight whose entry was evicted executes unseen, and the next call for its token does not await it. -/
theorem evicted_flight_unseen : ¬∀ (config : Config) (before after : List Action),
    SingleFlight config before after := by
  intro all
  have owed := all ⟨30000,none⟩ [.refresh "T" 0,.refresh "U" 41000,.acquired 1 .owner 41000] []
  have awaited := owed.awaited 1 "T" 41000 (by unfold Executes; decide)
  exact absurd awaited (by decide)

end CodexMultiAuth.RefreshQueue
