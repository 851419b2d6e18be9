import CodexMultiAuth.StreamFailoverLaw

/-!
What a failover delivers. A consumer that waits is always answered without its help,
and every run of a careful consumer delivers the markers and then one source. A
consumer that cancels before the first chunk makes the loop ask for a fallback.
-/
namespace CodexMultiAuth.StreamFailover
open Runs State State

variable (options : StreamFailoverOptions)

/-- The steps that are not the consumer's. -/
def Unaided (state : State) (action : Action) : Prop := Enabled state action ∧ action ≠ .read ∧ action ≠ .cancel

/-- Without the consumer more is delivered than so much, or the stream comes to its end. -/
def Answers (count : Nat) (state : State) : Prop :=
  ∃ actions, Legal (step options) Unaided state actions ∧
    (count < (actions.foldl (step options) state).delivered.length ∨ (actions.foldl (step options) state).status ≠ .readable)

section
variable {count : Nat} {state : State}

theorem Answers.now (answered : count < state.delivered.length ∨ state.status ≠ .readable) : Answers options count state :=
  ⟨[],trivial,answered⟩

theorem Answers.cons (action : Action) (may : Unaided state action) (later : Answers options count (step options state action)) :
    Answers options count state := by
  obtain ⟨actions,legal,answered⟩ := later
  exact ⟨action :: actions,⟨may,legal⟩,answered⟩

theorem answers_failing {failure : Failure} (phase : state.phase = .failing failure) : Answers options count state := by
  apply Answers.cons options .released ⟨Or.inr (Or.inr ⟨failure,phase⟩),by simp⟩
  apply Answers.now options (Or.inr _)
  show (state.afterRelease options).status ≠ .readable
  unfold afterRelease error
  rw [phase]
  dsimp only
  split_ifs with readable
  · simp
  · exact readable

theorem answers_acquiring {cause : Failure} (phase : state.phase = .acquiring cause) : Answers options count state := by
  apply Answers.cons options (.answer .none) ⟨⟨cause,phase⟩,by simp⟩
  have answered : step options state (.answer .none) = state.fail cause := by
    show state.answer .none = _
    unfold answer
    rw [phase]
  rw [answered]
  exact answers_failing options rfl

theorem answers_tryFailover (cause : Failure) : Answers options count (state.tryFailover options cause) := by
  unfold tryFailover
  split_ifs
  · exact answers_failing options rfl
  · exact answers_acquiring options rfl

theorem goOn_settled {outcome : Outcome} (phase : state.phase = .settled outcome) : step options state .goOn = state.afterRead options outcome := by
  show state.goOn options = _
  unfold goOn
  rw [phase]

theorem answers_failed {failure : Failure} (phase : state.phase = .settled (.failed failure)) : Answers options count state := by
  apply Answers.cons options .goOn ⟨Or.inl ⟨_,phase⟩,by simp⟩
  rw [goOn_settled options phase]
  exact answers_tryFailover options failure

theorem answers_reading {soft : Bool} (phase : state.phase = .reading soft) : Answers options count state := by
  have reads : state.Reading := by
    cases soft
    · exact Or.inr phase
    · exact Or.inl phase
  apply Answers.cons options .timeout ⟨reads,by simp⟩
  show Answers options count (state.timeout options)
  unfold timeout
  rw [phase]
  dsimp only
  split_ifs
  · exact answers_failed options rfl
  · -- The read went on after the soft timeout, and the hard one ends it.
    apply Answers.cons options .timeout ⟨Or.inr rfl,by simp⟩
    exact answers_failed options rfl

/-- A read of the consumer waits and the loop was not told to end. -/
structure Waits (count : Nat) (state : State) : Prop where
  going : state.closed = false
  takes : state.CanEnqueue
  waits : 0 < state.requests
  empty : state.queue = []
  count : state.delivered.length = count

theorem delivered_enqueue (waits : 0 < state.requests) (item : Item) : (state.enqueue item).delivered = state.delivered ++ [item] := by
  unfold enqueue
  rw [if_pos waits]
  rfl

theorem delivered_loop (state : State) : state.loop.delivered = state.delivered := by
  unfold loop startRead
  split
  · rfl
  · split
    · rfl
    · split <;> rfl

theorem delivered_awaitDemand (state : State) : state.awaitDemand.delivered = state.delivered := by
  unfold awaitDemand
  split_ifs <;> rfl

theorem answers_done (waits : Waits count state) (phase : state.phase = .settled .done) : Answers options count state := by
  apply Answers.cons options .goOn ⟨Or.inl ⟨_,phase⟩,by simp⟩
  apply Answers.now options (Or.inr _)
  have takes : ({ state with closed := true } : State).CanEnqueue := waits.takes
  rw [goOn_settled options phase]
  unfold afterRead close
  dsimp only
  rw [if_pos takes,if_pos waits.empty]
  simp [release]

theorem answers_chunk (waits : Waits count state) {value : Chunk} (some_value : value ≠ []) (phase : state.phase = .settled (.chunk value)) :
    Answers options count state := by
  apply Answers.cons options .goOn ⟨Or.inl ⟨_,phase⟩,by simp⟩
  apply Answers.now options (Or.inl _)
  have takes : ({ state with emittedBytes := state.emittedBytes + value.length } : State).CanEnqueue := waits.takes
  have delivered := delivered_enqueue (show 0 < ({ state with emittedBytes := state.emittedBytes + value.length } : State).requests from waits.waits)
    (.chunk value)
  have length : (({ state with emittedBytes := state.emittedBytes + value.length } : State).enqueue (.chunk value)).delivered.length = count + 1 := by
    rw [delivered,List.length_append,← waits.count]
    rfl
  rw [goOn_settled options phase]
  unfold afterRead
  dsimp only
  rw [if_neg some_value,if_pos takes]
  split_ifs
  · rw [delivered_awaitDemand,length]
    omega
  · rw [delivered_loop,length]
    omega

theorem loop_going (going : state.closed = false) : state.loop = state.startRead := by
  unfold loop
  rw [if_neg (by simp [going])]

theorem afterRead_empty (going : state.closed = false) : state.afterRead options (.chunk []) = state.startRead := by
  rw [← loop_going going]
  rfl

section
variable (waits : Waits count state)
include waits

theorem answers_startRead : Answers options count state.startRead := by
  generalize length : state.source.unread.length = left
  induction left generalizing state with
  | zero =>
    have nothing := List.length_eq_zero_iff.mp length
    unfold startRead
    rw [nothing]
    dsimp only
    split
    · exact answers_done options ⟨waits.1,waits.2,waits.3,waits.4,waits.5⟩ rfl
    · exact answers_failed options rfl
    · exact answers_reading options rfl
  | succ left ih =>
    obtain ⟨value,unread,found⟩ := List.exists_cons_of_length_eq_add_one length
    have read : state.startRead = { state with phase := .settled (.chunk value),source := { state.source with unread } } := by
      unfold startRead
      rw [found]
    rw [read]
    have waits : Waits count { state with phase := .settled (.chunk value),source := { state.source with unread } } :=
      ⟨waits.1,waits.2,waits.3,waits.4,waits.5⟩
    by_cases empty : value = []
    · subst empty
      apply Answers.cons options .goOn ⟨Or.inl ⟨_,rfl⟩,by simp⟩
      rw [goOn_settled options rfl,afterRead_empty options waits.going]
      apply ih waits
      rw [found] at length
      exact Nat.succ.inj length
    · exact answers_chunk options waits empty rfl

theorem answers_resuming (phase : state.phase = .resuming) : Answers options count state := by
  apply Answers.cons options .goOn ⟨Or.inr phase,by simp⟩
  have gone : step options state .goOn = state.startRead := by
    show state.goOn options = _
    unfold goOn
    rw [phase]
    exact loop_going waits.going
  rw [gone]
  exact answers_startRead options waits

theorem answers_switching (phase : state.phase = .switching) : Answers options count state := by
  apply Answers.cons options .released ⟨Or.inl phase,by simp⟩
  apply Answers.now options (Or.inl _)
  have delivered := delivered_enqueue waits.waits (.marker (options.markerLabel state.failoverAttempt))
  show count < (state.afterRelease options).delivered.length
  have released : (state.afterRelease options).delivered = (state.enqueue (.marker (options.markerLabel state.failoverAttempt))).delivered := by
    unfold afterRelease
    rw [phase]
    dsimp only
    rw [if_pos waits.takes]
    split
    · exact delivered_loop _
    · rfl
  rw [released,delivered,List.length_append,waits.count]
  exact Nat.lt_succ_self count

theorem answers_parked (phase : state.phase = .parked) (asks : state.pullDue = true) : Answers options count state := by
  apply Answers.cons options .pull ⟨asks,by simp⟩
  have wants : state.ShouldPull := ⟨waits.takes,Or.inl waits.waits⟩
  have pulled : step options state .pull = { state with pullDue := false,phase := .resuming } := by
    show state.pull = _
    unfold pull signalDemand
    rw [if_pos wants]
    exact if_pos phase
  rw [pulled]
  exact answers_resuming options ⟨waits.1,waits.2,waits.3,waits.4,waits.5⟩ rfl

end

/-- A consumer that waits is answered with no help of its own: no place of the loop holds it up. -/
theorem answers_of_inv (inv : state.Inv options) (requests : 0 < state.requests) : Answers options state.delivered.length state := by
  obtain ⟨base,place⟩ := inv
  obtain ⟨empty,takes⟩ := base.streams.requests requests
  have waits (open_ : state.Open) : Waits state.delivered.length state := ⟨open_.going,takes,requests,empty,rfl⟩
  have running {P : Prop} (stopped : state.Stopped) : P := absurd takes (stopped.not_canEnqueue base.streams)
  cases phase : state.phase with
  | reading soft => exact answers_reading options phase
  | settled outcome =>
    rw [phase] at place
    cases outcome with
    | failed failure => exact answers_failed options phase
    | done =>
      obtain ⟨-,⟨open_,-⟩ | ⟨stopped,-⟩⟩ := place
      · exact answers_done options (waits open_) phase
      · exact running stopped
    | chunk value =>
      obtain ⟨-,⟨open_,-⟩ | stopped⟩ := place
      · by_cases some_value : value = []
        · subst some_value
          apply Answers.cons options .goOn ⟨Or.inl ⟨_,phase⟩,by simp⟩
          rw [goOn_settled options phase,afterRead_empty options open_.going]
          exact answers_startRead options (waits open_)
        · exact answers_chunk options (waits open_) some_value phase
      · exact running stopped
  | parked =>
    rw [phase] at place
    exact answers_parked options (waits place.2.1) phase (place.2.2.2 empty)
  | resuming =>
    rw [phase] at place
    obtain ⟨-,⟨open_,-⟩ | stopped⟩ := place
    · exact answers_resuming options (waits open_) phase
    · exact running stopped
  | acquiring cause => exact answers_acquiring options phase
  | switching =>
    rw [phase] at place
    exact answers_switching options (waits place.2.2.1) phase
  | closing =>
    rw [phase] at place
    exact absurd takes place.2.2.2
  | failing failure => exact answers_failing options phase
  | finished =>
    rw [phase] at place
    exact absurd takes place.2.2.2

end

/-! ### What is delivered -/

section
variable {state : State}

theorem passed_loop (state : State) : state.loop.passed = state.passed := by
  unfold loop startRead
  split
  · rfl
  · split
    · rfl
    · split <;> rfl

theorem passed_awaitDemand (state : State) : state.awaitDemand.passed = state.passed := by
  unfold awaitDemand
  split_ifs <;> rfl

theorem passed_afterChunk (takes : state.CanEnqueue) {value : Chunk} (some_value : value ≠ []) :
    (state.afterRead options (.chunk value)).passed = state.passed ++ [value] := by
  have counted : ({ state with emittedBytes := state.emittedBytes + value.length } : State).CanEnqueue := takes
  unfold afterRead
  dsimp only
  rw [if_neg some_value,if_pos counted]
  split_ifs
  · rw [passed_awaitDemand,enqueue_passed]
    rfl
  · rw [passed_loop,enqueue_passed]
    rfl

theorem passed_late (inv : state.Inv options) {soft : Bool} (phase : state.phase = .reading soft) {value : Chunk} (some_value : value ≠ []) :
    (step options (step options state (.arrive value)) .goOn).passed = state.passed ++ [value] := by
  have reading : state.Reading := by
    cases soft
    · exact Or.inr phase
    · exact Or.inl phase
  have takes := (inv.place.reading options reading).2.1.takes
  have arrived : step options state (.arrive value) =
      { state with phase := .settled (.chunk value),source := { state.source with arrived := state.source.arrived ++ [value] } } := by
    show state.arrive value = _
    unfold arrive
    exact if_pos reading
  rw [arrived,goOn_settled options rfl]
  refine (passed_afterChunk options ?_ some_value).trans rfl
  exact takes

end

/-- One stream is delivered. -/
structure Delivers (state : State) : Prop where
  /-- The markers of the failovers are passed on, and then chunks of the last source in order. -/
  stream : state.enqueued = markers options state.past.length ++ state.passed.map Item.chunk
  one : state.passed <+: filled state.source.arrived
  delivered : state.delivered <+: state.enqueued
  queued : state.status = .readable → state.delivered ++ state.queue = state.enqueued
  /-- A stream that ends has delivered all of it. -/
  complete : state.status = .closed → state.cancelled = false →
    state.delivered = state.enqueued ∧ state.passed = filled state.source.arrived ∧ state.source.ending = some .complete
  /-- A chunk after the soft timeout is passed on once. -/
  late : ∀ value, state.phase = .reading false → value ≠ [] →
    (step options (step options state (.arrive value)) .goOn).passed = state.passed ++ [value]
  /-- A fallback is asked for before the first chunk and before a cancellation. -/
  calls : ∀ call ∈ state.calls, call.passed = [] ∧ call.cancelled = false
  bounded : state.calls.length ≤ options.maximum
  /-- The sources that were left are cancelled, and in the end every source is. -/
  left : ∀ source ∈ state.past, source.cancelled = true
  released : state.phase = .finished → ∀ source ∈ state.sources, source.cancelled = true
  /-- A read of the consumer is answered by steps that are not its own. -/
  answers : 0 < state.requests → Answers options state.delivered.length state

theorem delivers_of_inv {state : State} (inv : state.Inv options) : Delivers options state where
  stream := inv.base.marked
  one := inv.base.inside
  delivered := inv.base.streams.delivered
  queued := inv.base.streams.queued
  complete closed kept := by
    obtain ⟨whole,requested⟩ := inv.base.streams.drained closed kept
    obtain ⟨passed,ended,-⟩ := inv.base.complete requested
    exact ⟨whole,passed,ended⟩
  late value phase some_value := passed_late options inv phase some_value
  calls := inv.base.calls
  bounded := inv.base.counted ▸ inv.base.bounded
  left := inv.base.left
  released phase source member := by
    have place := inv.place
    rw [phase] at place
    obtain ⟨single,-,released,-⟩ := place
    rw [sources,single] at member
    obtain left | last := List.mem_append.mp member
    · exact inv.base.left source left
    · rw [List.mem_singleton.mp last]
      exact released
  answers := answers_of_inv options inv

/-- In every run of a careful consumer one stream is delivered. -/
theorem careful_run_delivers (body : Bool) {start state : State} (begun : withStreamingFailover body options = some start)
    (run : Run (step options) (fun state action => Enabled state action ∧ Careful options state action) start state) :
    Delivers options state := by
  have started : start = {} := by
    unfold withStreamingFailover at begun
    split_ifs at begun
    exact (Option.some.inj begun).symm
  subst started
  exact delivers_of_inv options (run.invariant (fun _ action may inv => inv_step options action may.1 may.2 inv) (inv_start options))

/-- The primary stalls, the fallback brings a chunk and ends, and the consumer reads all of it. -/
theorem stalled_then_delivered :
    Delivers {} ([.timeout,.timeout,.goOn,.answer .body,.released,.read,.arrive [1,2],.goOn,.read,.pull,.goOn,.ends .complete,.goOn,.released].foldl
      (step {}) {}) := by
  refine careful_run_delivers {} true rfl ((Run.nil _).ofList _ ?_)
  exact ⟨⟨Or.inl rfl,trivial⟩,⟨Or.inr rfl,trivial⟩,⟨Or.inl ⟨_,rfl⟩,trivial⟩,⟨⟨_,rfl⟩,rfl⟩,⟨Or.inl rfl,trivial⟩,⟨trivial,trivial⟩,
    ⟨⟨rfl,rfl⟩,trivial⟩,⟨Or.inl ⟨_,rfl⟩,trivial⟩,⟨trivial,trivial⟩,⟨rfl,trivial⟩,⟨Or.inr rfl,trivial⟩,⟨⟨rfl,rfl⟩,trivial⟩,
    ⟨Or.inl ⟨_,rfl⟩,trivial⟩,⟨Or.inr (Or.inl rfl),trivial⟩,trivial⟩

/-- A consumer that cancels before the first chunk: a fallback is asked for, and its body is left alone. -/
theorem cancelled_then_asked :
    withStreamingFailover true {} = some {} ∧
      Run (step {}) Enabled {} ([.cancel,.goOn,.answer .body,.released,.released].foldl (step {}) {}) ∧
      ¬ Delivers {} ([.cancel,.goOn,.answer .body,.released,.released].foldl (step {}) {}) := by
  refine ⟨rfl,(Run.nil _).ofList _ ⟨trivial,Or.inl ⟨_,rfl⟩,⟨_,rfl⟩,Or.inl rfl,Or.inr (Or.inr ⟨_,rfl⟩),trivial⟩,fun delivers => ?_⟩
  have call := delivers.calls ⟨1,0,[],true⟩ (by decide)
  cases call.2

end CodexMultiAuth.StreamFailover
