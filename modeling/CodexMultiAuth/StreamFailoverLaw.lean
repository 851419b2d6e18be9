import CodexMultiAuth.StreamFailover

/-!
One stream is delivered: the markers of the failovers and then the chunks of the last
source, of which none is lost while it is followed. What the state must be wherever the
loop waits is said of each place.
-/
namespace CodexMultiAuth.StreamFailover
open Runs List

variable (options : StreamFailoverOptions)

def markers (count : Nat) : List Item := (List.range count).map (fun i => .marker (options.markerLabel (i + 1)))

theorem markers_succ (count : Nat) : markers options (count + 1) = markers options count ++ [.marker (options.markerLabel (count + 1))] := by
  rw [markers,markers,range_succ,map_append]
  rfl

@[simp] theorem filled_append (first second : List Chunk) : filled (first ++ second) = filled first ++ filled second := filter_append ..

@[simp] theorem filled_nil : filled [] = [] := rfl

namespace State

/-- What reached the consumer and what is queued for it are what was passed on. -/
structure Streams (state : State) : Prop where
  delivered : state.delivered <+: state.enqueued
  queued : state.status = .readable → state.delivered ++ state.queue = state.enqueued
  ended : state.status ≠ .readable → state.queue = []
  drained : state.status = .closed → state.cancelled = false → state.delivered = state.enqueued ∧ state.closeRequested = true
  requests : 0 < state.requests → state.queue = [] ∧ state.CanEnqueue
  closing : state.closeRequested = true → state.status = .readable → state.queue ≠ []
  cancelled : state.cancelled = true → state.status = .closed

variable {state : State}

theorem Streams.uncancelled (streams : state.Streams) (readable : state.status = .readable) : state.cancelled = false := by
  by_contra stopped
  have closed := streams.cancelled (Bool.eq_true_of_not_eq_false stopped)
  rw [readable] at closed
  cases closed

@[simp] theorem callPullIfNeeded_streams : state.callPullIfNeeded.Streams ↔ state.Streams :=
  ⟨fun streams => ⟨streams.1,streams.2,streams.3,streams.4,streams.5,streams.6,streams.7⟩,
    fun streams => ⟨streams.1,streams.2,streams.3,streams.4,streams.5,streams.6,streams.7⟩⟩

theorem Streams.open_ (readable : state.status = .readable) (going : state.closeRequested = false) (kept : state.cancelled = false)
    (whole : state.delivered ++ state.queue = state.enqueued) (waits : 0 < state.requests → state.queue = []) : state.Streams where
  delivered := ⟨state.queue,whole⟩
  queued _ := whole
  ended closed := absurd readable closed
  drained closed := nomatch readable.symm.trans closed
  requests waiting := ⟨waits waiting,readable,going⟩
  closing requested := nomatch going.symm.trans requested
  cancelled stopped := nomatch kept.symm.trans stopped

theorem Streams.enqueue (streams : state.Streams) (takes : state.CanEnqueue) (item : Item) : (state.enqueue item).Streams := by
  obtain ⟨readable,going⟩ := takes
  have whole := streams.queued readable
  have kept := streams.uncancelled readable
  unfold State.enqueue
  rw [callPullIfNeeded_streams]
  split_ifs with waits
  · obtain ⟨empty,-⟩ := streams.requests waits
    rw [empty,append_nil] at whole
    exact Streams.open_ readable going kept (by simp [whole,empty]) (fun _ => empty)
  · exact Streams.open_ readable going kept (by simp [← whole]) (fun more => absurd more waits)

theorem Streams.close (streams : state.Streams) (takes : state.CanEnqueue) : state.close.Streams := by
  obtain ⟨readable,going⟩ := takes
  have whole := streams.queued readable
  have kept := streams.uncancelled readable
  unfold State.close
  split_ifs with empty
  · rw [empty,append_nil] at whole
    exact ⟨streams.delivered,(nomatch ·),fun _ => empty,fun _ _ => ⟨whole,rfl⟩,fun waits => absurd waits (Nat.lt_irrefl 0),
      fun _ => (nomatch ·),fun _ => rfl⟩
  · exact ⟨streams.delivered,fun _ => whole,fun closed => absurd readable closed,fun closed => (nomatch readable.symm.trans closed),
      fun waits => absurd (streams.requests waits).1 empty,fun _ _ => empty,fun stopped => (nomatch kept.symm.trans stopped)⟩

theorem Streams.error (streams : state.Streams) (failure : Failure) : (state.error failure).Streams := by
  unfold State.error
  split_ifs with readable
  · exact ⟨streams.delivered,(nomatch ·),fun _ => rfl,(nomatch ·),fun waits => absurd waits (Nat.lt_irrefl 0),fun _ => (nomatch ·),
      fun stopped => (nomatch readable.symm.trans (streams.cancelled stopped))⟩
  · exact streams

theorem Streams.read (streams : state.Streams) : state.read.Streams := by
  unfold State.read
  split
  · next item queue found =>
    have readable : state.status = .readable := by
      by_contra closed
      rw [streams.ended closed] at found
      cases found
    have kept := streams.uncancelled readable
    have whole := streams.queued readable
    rw [found] at whole
    have waits : ¬ 0 < state.requests := by
      intro waits
      rw [(streams.requests waits).1] at found
      cases found
    dsimp only
    split_ifs with last
    · obtain ⟨requested,rfl⟩ := last
      exact ⟨⟨[],by simpa using whole⟩,(nomatch ·),fun _ => rfl,fun _ _ => ⟨whole,requested⟩,fun more => absurd more waits,
        fun _ => (nomatch ·),fun _ => rfl⟩
    · rw [callPullIfNeeded_streams]
      refine ⟨⟨queue,by simpa using whole⟩,fun _ => by simpa using whole,fun closed => absurd readable closed,
        fun closed => (nomatch readable.symm.trans closed),fun more => absurd more waits,fun requested _ empty => last ⟨requested,empty⟩,
        fun stopped => (nomatch kept.symm.trans stopped)⟩
  · next empty =>
    split_ifs with readable
    · rw [callPullIfNeeded_streams]
      refine ⟨streams.delivered,streams.queued,streams.ended,streams.drained,fun _ => ⟨empty,readable,?_⟩,streams.closing,streams.cancelled⟩
      by_contra requested
      exact streams.closing (Bool.eq_true_of_not_eq_false requested) readable empty
    · exact streams

/-- Nothing more may be tried. -/
def Spent (state : State) : Prop := options.maximum ≤ state.failoverAttempt ∨ 0 < state.emittedBytes

/-- What was passed on is a part of what the source brought, and the whole of it once the stream was closed. -/
structure Base (state : State) : Prop where
  streams : state.Streams
  marked : state.enqueued = markers options state.past.length ++ state.passed.map Item.chunk
  emitted : state.emittedBytes = 0 → state.passed = []
  inside : state.passed <+: filled state.source.arrived
  complete : state.closeRequested = true →
    state.passed = filled state.source.arrived ∧ state.source.ending = some .complete ∧ state.source.cancelled = true
  left : ∀ source ∈ state.past, source.cancelled = true
  calls : ∀ call ∈ state.calls, call.passed = [] ∧ call.cancelled = false
  counted : state.calls.length = state.failoverAttempt
  bounded : state.failoverAttempt ≤ options.maximum

/-- The stream takes chunks and the loop was not told to end. -/
structure Open (state : State) : Prop where
  going : state.closed = false
  kept : state.cancelled = false
  takes : state.CanEnqueue

/-- The consumer has cancelled: the loop was told and the source is released. -/
structure Stopped (state : State) : Prop where
  closed : state.closed = true
  cancelled : state.cancelled = true
  released : state.source.cancelled = true

/-- Every chunk of the source was passed on, is in the hands of the loop, or is not read. -/
structure Flows (state : State) (held : List Chunk) : Prop where
  whole : state.passed ++ filled held ++ filled state.source.unread = filled state.source.arrived
  watched : state.source.orphan = false
  live : state.source.cancelled = false

/-- The loop follows the last source that was obtained. -/
structure Follows (state : State) : Prop where
  single : state.next = none
  attempts : state.failoverAttempt = state.past.length

/-- What is known where the loop waits. -/
def At (state : State) : Phase → Prop
  | .reading _ => state.Follows ∧ state.Open ∧ state.Flows [] ∧ state.source.unread = [] ∧ state.source.ending = none
  | .settled (.chunk value) => state.Follows ∧ (state.Open ∧ state.Flows [value] ∨ state.Stopped)
  | .settled .done => state.Follows ∧
      (state.Open ∧ state.Flows [] ∧ state.source.unread = [] ∧ state.source.ending = some .complete ∨ state.Stopped ∧ state.Spent options)
  | .settled (.failed _) => state.Follows ∧ (state.Open ∨ state.Stopped ∧ state.Spent options)
  | .parked => state.Follows ∧ state.Open ∧ state.Flows [] ∧ (state.queue = [] → state.pullDue = true)
  | .resuming => state.Follows ∧ (state.Open ∧ state.Flows [] ∨ state.Stopped)
  | .acquiring _ => state.next = none ∧ state.failoverAttempt = state.past.length + 1 ∧ state.emittedBytes = 0 ∧ (state.Open ∨ state.Stopped)
  | .switching => state.failoverAttempt = state.past.length + 1 ∧ state.emittedBytes = 0 ∧ state.Open ∧ state.source.cancelled = true ∧
      ∃ source, state.next = some source ∧ filled source.unread = filled source.arrived ∧ source.orphan = false ∧ source.cancelled = false
  | .closing => state.next = none ∧ state.closed = true ∧ state.source.cancelled = true ∧ ¬ state.CanEnqueue
  | .failing _ => state.next = none ∧ state.closed = true ∧ state.source.cancelled = true
  | .finished => state.next = none ∧ state.closed = true ∧ state.source.cancelled = true ∧ ¬ state.CanEnqueue

/-- The invariant of every run in which the consumer is careful. -/
structure Inv (state : State) : Prop where
  base : state.Base options
  place : state.At options state.phase

variable {source : Source}

/-- What the loop does to itself, and a change of what is left to read, keep what is known everywhere. -/
theorem Base.update (base : state.Base options) (phase : Phase) (closed demandPending pullDue : Bool) (next : Option Source)
    (arrived : source.arrived = state.source.arrived) (ending : source.ending = state.source.ending)
    (cancelled : state.source.cancelled = true → source.cancelled = true) :
    Base options { state with phase,closed,demandPending,pullDue,next,source } where
  streams := ⟨base.streams.1,base.streams.2,base.streams.3,base.streams.4,base.streams.5,base.streams.6,base.streams.7⟩
  marked := base.marked
  emitted := base.emitted
  inside := by
    dsimp only
    rw [arrived]
    exact base.inside
  complete requested := by
    obtain ⟨whole,ended,released⟩ := base.complete requested
    dsimp only
    rw [arrived,ending]
    exact ⟨whole,ended,cancelled released⟩
  left := base.left
  calls := base.calls
  counted := base.counted
  bounded := base.bounded

theorem Base.move (base : state.Base options) (phase : Phase) (closed demandPending : Bool) :
    Base options { state with phase,closed,demandPending } :=
  base.update options phase closed demandPending state.pullDue state.next rfl rfl id

theorem Stopped.not_canEnqueue (stopped : state.Stopped) (streams : state.Streams) : ¬ state.CanEnqueue := by
  rintro ⟨readable,-⟩
  have closed := streams.cancelled stopped.cancelled
  rw [readable] at closed
  cases closed

section
variable (base : state.Base options)
include base

theorem inv_startRead (follows : state.Follows) (open_ : state.Open) (flows : state.Flows []) :
    state.startRead.Inv options := by
  unfold State.startRead
  split
  · next value unread found =>
    refine ⟨base.update options _ _ _ _ _ rfl rfl id,⟨follows.1,follows.2⟩,Or.inl ⟨⟨open_.1,open_.2,open_.3⟩,?_,flows.2,flows.3⟩⟩
    have whole := flows.whole
    rw [found,append_assoc,← filled_append] at whole
    rw [append_assoc,← filled_append]
    exact whole
  · next found =>
    split
    · next ended =>
      exact ⟨base.move options _ _ _,⟨follows.1,follows.2⟩,Or.inl ⟨⟨open_.1,open_.2,open_.3⟩,⟨flows.1,flows.2,flows.3⟩,found,ended⟩⟩
    · exact ⟨base.move options _ _ _,⟨follows.1,follows.2⟩,Or.inl ⟨open_.1,open_.2,open_.3⟩⟩
    · next ended =>
      exact ⟨base.move options _ _ _,⟨follows.1,follows.2⟩,⟨open_.1,open_.2,open_.3⟩,⟨flows.1,flows.2,flows.3⟩,found,ended⟩

theorem inv_loop (follows : state.Follows) (place : state.Open ∧ state.Flows [] ∨ state.Stopped) :
    state.loop.Inv options := by
  unfold State.loop
  obtain ⟨open_,flows⟩ | stopped := place
  · rw [if_neg (by simp [open_.going])]
    exact inv_startRead options base follows open_ flows
  · rw [if_pos stopped.closed]
    exact ⟨base.move options _ _ _,follows.single,stopped.closed,stopped.released,stopped.not_canEnqueue base.streams⟩

theorem inv_fail (single : state.next = none) (failure : Failure) : (state.fail failure).Inv options :=
  ⟨base.update options _ _ _ _ _ rfl rfl (fun _ => rfl),single,rfl,rfl⟩

theorem inv_tryFailover (follows : state.Follows) (place : state.Open ∨ state.closed = true ∧ state.Spent options)
    (cause : Failure) : (state.tryFailover options cause).Inv options := by
  unfold State.tryFailover
  split_ifs with spent
  · exact inv_fail options base follows.single cause
  · obtain ⟨left,silent⟩ := not_or.mp spent
    have silent : state.emittedBytes = 0 := Nat.eq_zero_of_not_pos silent
    obtain open_ | ⟨-,spent⟩ := place
    · refine ⟨?_,follows.single,by simp [follows.attempts],silent,Or.inl ⟨open_.1,open_.2,open_.3⟩⟩
      have streams := base.streams
      refine ⟨⟨streams.1,streams.2,streams.3,streams.4,streams.5,streams.6,streams.7⟩,base.marked,base.emitted,base.inside,base.complete,
        base.left,?_,?_,Nat.not_le.mp left⟩
      · intro call member
        obtain old | new := mem_append.mp member
        · exact base.calls call old
        · obtain rfl := mem_singleton.mp new
          exact ⟨base.emitted silent,open_.kept⟩
      · simp [base.counted]
    · exact absurd spent (by rintro (full | loud); exact left full; omega)

end

/-! ### A chunk and a marker -/

/-- A queued item changes what the consumer has and no more. -/
structure SameLoop (first second : State) : Prop where
  closed : second.closed = first.closed
  demandPending : second.demandPending = first.demandPending
  failoverAttempt : second.failoverAttempt = first.failoverAttempt
  past : second.past = first.past
  source : second.source = first.source
  next : second.next = first.next
  calls : second.calls = first.calls
  status : second.status = first.status
  closeRequested : second.closeRequested = first.closeRequested
  cancelled : second.cancelled = first.cancelled

theorem enqueue_sameLoop (state : State) (item : Item) : SameLoop state (state.enqueue item) := by
  unfold State.enqueue
  split_ifs <;> exact ⟨rfl,rfl,rfl,rfl,rfl,rfl,rfl,rfl,rfl,rfl⟩

theorem enqueue_emittedBytes (state : State) (item : Item) : (state.enqueue item).emittedBytes = state.emittedBytes := by
  unfold State.enqueue
  split_ifs <;> rfl

theorem enqueue_enqueued (state : State) (item : Item) : (state.enqueue item).enqueued = state.enqueued ++ [item] := by
  unfold State.enqueue
  split_ifs <;> rfl

theorem enqueue_passed (state : State) (item : Item) : (state.enqueue item).passed = state.passed ++ item.value.toList := by
  rw [passed,enqueue_enqueued,filterMap_append,passed]
  cases item <;> rfl

theorem Open.of_sameLoop {other : State} (open_ : state.Open) (same : SameLoop state other) : other.Open :=
  ⟨same.closed.trans open_.going,same.cancelled.trans open_.kept,same.status.trans open_.takes.1,same.closeRequested.trans open_.takes.2⟩

variable {value : Chunk}

theorem filled_cons (some_value : value ≠ []) (chunks : List Chunk) : filled (value :: chunks) = value :: filled chunks :=
  filter_cons_of_pos (decide_eq_true some_value)

theorem Base.pass (base : state.Base options) (open_ : state.Open) (some_value : value ≠ []) (flows : state.Flows [value]) :
    ({ state with emittedBytes := state.emittedBytes + value.length }.enqueue (.chunk value)).Base options := by
  have streams := base.streams
  have counted : ({ state with emittedBytes := state.emittedBytes + value.length } : State).Streams :=
    ⟨streams.1,streams.2,streams.3,streams.4,streams.5,streams.6,streams.7⟩
  have same := enqueue_sameLoop { state with emittedBytes := state.emittedBytes + value.length } (.chunk value)
  have passed := enqueue_passed { state with emittedBytes := state.emittedBytes + value.length } (.chunk value)
  have enqueued := enqueue_enqueued { state with emittedBytes := state.emittedBytes + value.length } (.chunk value)
  have positive : 0 < value.length := length_pos_of_ne_nil some_value
  have whole := flows.whole
  rw [filled_cons some_value,filled_nil] at whole
  refine ⟨counted.enqueue open_.takes _,?_,?_,?_,?_,?_,?_,?_,?_⟩
  · rw [enqueued,passed,same.past]
    show state.enqueued ++ [.chunk value] = markers options state.past.length ++ (state.passed ++ [value]).map Item.chunk
    rw [map_append,← append_assoc,← base.marked]
    rfl
  · rw [enqueue_emittedBytes]
    intro silent
    dsimp only at silent
    omega
  · rw [passed,same.source]
    exact ⟨filled state.source.unread,whole⟩
  · rw [same.closeRequested]
    intro requested
    cases open_.takes.2.symm.trans requested
  · rw [same.past]
    exact base.left
  · rw [same.calls]
    exact base.calls
  · rw [same.calls,same.failoverAttempt]
    exact base.counted
  · rw [same.failoverAttempt]
    exact base.bounded

theorem Flows.pass (some_value : value ≠ []) (flows : state.Flows [value]) :
    ({ state with emittedBytes := state.emittedBytes + value.length }.enqueue (.chunk value)).Flows [] := by
  have same := enqueue_sameLoop { state with emittedBytes := state.emittedBytes + value.length } (.chunk value)
  have whole := flows.whole
  rw [filled_cons some_value,filled_nil] at whole
  refine ⟨?_,by rw [same.source]; exact flows.watched,by rw [same.source]; exact flows.live⟩
  rw [enqueue_passed,same.source,filled_nil,append_nil]
  exact whole

theorem inv_awaitDemand (base : state.Base options) (follows : state.Follows) (open_ : state.Open) (flows : state.Flows [])
    (queued : state.queue ≠ []) : state.awaitDemand.Inv options := by
  unfold State.awaitDemand
  split_ifs
  · exact ⟨base.move options _ _ _,⟨follows.1,follows.2⟩,Or.inl ⟨⟨open_.1,open_.2,open_.3⟩,⟨flows.1,flows.2,flows.3⟩⟩⟩
  · exact ⟨base.move options _ _ _,⟨follows.1,follows.2⟩,⟨open_.1,open_.2,open_.3⟩,⟨flows.1,flows.2,flows.3⟩,
      fun empty => absurd empty queued⟩

theorem follows_pass (follows : state.Follows) (open_ : state.Open) (value : Chunk) :
    let next := { state with emittedBytes := state.emittedBytes + value.length }.enqueue (.chunk value)
    next.Follows ∧ next.Open := by
  have same := enqueue_sameLoop { state with emittedBytes := state.emittedBytes + value.length } (.chunk value)
  refine ⟨⟨same.next.trans follows.1,?_⟩,open_.of_sameLoop ?_⟩
  · rw [same.failoverAttempt,same.past]
    exact follows.2
  · exact ⟨same.1,same.2,same.3,same.4,same.5,same.6,same.7,same.8,same.9,same.10⟩

theorem inv_afterChunk (base : state.Base options) (follows : state.Follows)
    (place : state.Open ∧ state.Flows [value] ∨ state.Stopped) : (state.afterRead options (.chunk value)).Inv options := by
  unfold State.afterRead
  dsimp only
  split_ifs with empty takes queued
  · subst empty
    exact inv_loop options base follows (place.imp_left (And.imp_right fun flows => ⟨flows.whole,flows.2,flows.3⟩))
  · -- The consumer does not keep up.
    obtain ⟨open_,flows⟩ | stopped := place
    · have passed := follows_pass follows open_ value
      exact inv_awaitDemand options (base.pass options open_ empty flows) passed.1 passed.2 (flows.pass empty) queued
    · exact absurd takes (stopped.not_canEnqueue base.streams)
  · obtain ⟨open_,flows⟩ | stopped := place
    · have passed := follows_pass follows open_ value
      exact inv_loop options (base.pass options open_ empty flows) passed.1 (Or.inl ⟨passed.2,flows.pass empty⟩)
    · exact absurd takes (stopped.not_canEnqueue base.streams)
  · -- The chunk came after the consumer cancelled: what it adds to the count keeps a failover away.
    obtain ⟨open_,-⟩ | stopped := place
    · exact absurd open_.takes takes
    · have streams := base.streams
      have positive : 0 < value.length := length_pos_of_ne_nil empty
      have spent : ({ state with emittedBytes := state.emittedBytes + value.length } : State).Spent options :=
        Or.inr (show 0 < state.emittedBytes + value.length by omega)
      apply inv_tryFailover options
      · exact ⟨⟨streams.1,streams.2,streams.3,streams.4,streams.5,streams.6,streams.7⟩,base.marked,
          fun silent => base.emitted (by dsimp only at silent; omega),base.inside,base.complete,base.left,base.calls,base.counted,base.bounded⟩
      · exact ⟨follows.1,follows.2⟩
      · exact Or.inr ⟨stopped.closed,spent⟩

theorem inv_afterDone (inv : state.Inv options) (phase : state.phase = .settled .done) : (state.afterRead options .done).Inv options := by
  obtain ⟨base,place⟩ := inv
  rw [phase] at place
  obtain ⟨follows,⟨open_,flows,empty,ended⟩ | ⟨stopped,spent⟩⟩ := place
  · have streams := (show ({ state with closed := true } : State).Streams from
      ⟨base.streams.1,base.streams.2,base.streams.3,base.streams.4,base.streams.5,base.streams.6,base.streams.7⟩).close open_.takes
    have whole := flows.whole
    rw [empty,filled_nil,append_nil,append_nil] at whole
    have takes : ({ state with closed := true } : State).CanEnqueue := open_.takes
    unfold State.afterRead
    dsimp only
    rw [if_pos takes]
    have requested : ({ state with closed := true } : State).close.closeRequested = true := by
      unfold State.close
      split_ifs <;> rfl
    unfold State.close at streams requested ⊢
    split_ifs at streams requested ⊢ <;>
      exact ⟨⟨⟨streams.1,streams.2,streams.3,streams.4,streams.5,streams.6,streams.7⟩,base.marked,base.emitted,base.inside,
        fun _ => ⟨whole,ended,rfl⟩,base.left,base.calls,base.counted,base.bounded⟩,follows.single,rfl,rfl,fun takes => nomatch takes.2⟩
  · unfold State.afterRead
    dsimp only
    have takes : ¬ ({ state with closed := true } : State).CanEnqueue := stopped.not_canEnqueue base.streams
    rw [if_neg takes]
    exact inv_tryFailover options (base.move options state.phase true state.demandPending) ⟨follows.1,follows.2⟩ (Or.inr ⟨rfl,spent⟩) _

theorem inv_goOn (inv : state.Inv options) : (state.goOn options).Inv options := by
  unfold State.goOn
  split
  · next outcome phase =>
    cases outcome with
    | done => exact inv_afterDone options inv phase
    | chunk value =>
      obtain ⟨base,place⟩ := inv
      rw [phase] at place
      exact inv_afterChunk options base place.1 place.2
    | failed failure =>
      obtain ⟨base,place⟩ := inv
      rw [phase] at place
      exact inv_tryFailover options base place.1 (place.2.imp_right fun stopped => ⟨stopped.1.closed,stopped.2⟩) failure
  · next phase =>
    obtain ⟨base,place⟩ := inv
    rw [phase] at place
    exact inv_loop options base place.1 place.2
  · exact inv

theorem inv_answer (inv : state.Inv options) (answer : Answer) (careful : answer = .body → state.cancelled = false) :
    (state.answer answer).Inv options := by
  unfold State.answer
  split
  · next cause phase =>
    obtain ⟨base,place⟩ := inv
    rw [phase] at place
    obtain ⟨single,attempts,silent,place⟩ := place
    cases answer with
    | none => exact inv_fail options base single cause
    | throws => exact inv_fail options base single .fallback
    | body =>
      obtain open_ | stopped := place
      · exact ⟨base.update options _ _ _ _ _ rfl rfl (fun _ => rfl),attempts,silent,⟨open_.1,open_.2,open_.3⟩,rfl,{},rfl,rfl,rfl,rfl⟩
      · cases (careful rfl).symm.trans stopped.cancelled
  · exact inv

theorem inv_follow (streams : state.Streams) (open_ : state.Open) (released : state.source.cancelled = true)
    (left : ∀ source ∈ state.past, source.cancelled = true) (calls : ∀ call ∈ state.calls, call.passed = [] ∧ call.cancelled = false)
    (counted : state.calls.length = state.failoverAttempt) (bounded : state.failoverAttempt ≤ options.maximum)
    (attempts : state.failoverAttempt = state.past.length + 1) (enqueued : state.enqueued = markers options (state.past.length + 1)) (fresh : filled source.unread = filled source.arrived) (watched : source.orphan = false) (live : source.cancelled = false) :
    ({ state with past := state.past ++ [state.source],source,next := none }.loop).Inv options := by
  have nothing : state.passed = [] := by
    rw [passed,enqueued,markers,filterMap_map]
    exact filterMap_eq_nil_iff.mpr (fun _ _ => rfl)
  have length : (state.past ++ [state.source]).length = state.past.length + 1 := length_append
  refine inv_loop options ⟨⟨streams.1,streams.2,streams.3,streams.4,streams.5,streams.6,streams.7⟩,?_,fun _ => nothing,?_,?_,?_,calls,
    counted,bounded⟩ ⟨rfl,attempts.trans length.symm⟩ (Or.inl ⟨⟨open_.1,open_.2,open_.3⟩,?_,watched,live⟩)
  · show state.enqueued = markers options (state.past ++ [state.source]).length ++ state.passed.map Item.chunk
    rw [length,nothing,enqueued]
    exact (append_nil _).symm
  · show state.passed <+: filled source.arrived
    rw [nothing]
    exact nil_prefix
  · intro requested
    cases open_.takes.2.symm.trans requested
  · intro source member
    obtain old | new := mem_append.mp member
    · exact left source old
    · rw [mem_singleton.mp new]
      exact released
  · show state.passed ++ [] ++ filled source.unread = filled source.arrived
    rw [nothing,fresh]
    rfl

theorem inv_switch (inv : state.Inv options) (phase : state.phase = .switching) : (state.afterRelease options).Inv options := by
  obtain ⟨base,place⟩ := inv
  rw [phase] at place
  obtain ⟨attempts,silent,open_,released,source,obtained,fresh,watched,live⟩ := place
  have same := enqueue_sameLoop state (.marker (options.markerLabel state.failoverAttempt))
  have marked := base.marked
  rw [base.emitted silent,map_nil,append_nil] at marked
  unfold State.afterRelease
  rw [phase]
  dsimp only
  rw [if_pos open_.takes,same.next,obtained]
  apply inv_follow options (base.streams.enqueue open_.takes _) (open_.of_sameLoop same) _ _ _ _ _ _ _ fresh watched live
  · rw [same.source]
    exact released
  · rw [same.past]
    exact base.left
  · rw [same.calls]
    exact base.calls
  · rw [same.calls,same.failoverAttempt]
    exact base.counted
  · rw [same.failoverAttempt]
    exact base.bounded
  · rw [same.failoverAttempt,same.past]
    exact attempts
  · rw [enqueue_enqueued,same.past,marked,markers_succ,attempts]

theorem inv_afterRelease (inv : state.Inv options) : (state.afterRelease options).Inv options := by
  cases phase : state.phase with
  | switching => exact inv_switch options inv phase
  | closing =>
    obtain ⟨base,place⟩ := inv
    rw [phase] at place
    unfold State.afterRelease
    rw [phase]
    exact ⟨base.move options _ _ _,place⟩
  | failing failure =>
    obtain ⟨base,place⟩ := inv
    rw [phase] at place
    obtain ⟨single,closed,released⟩ := place
    have streams := base.streams.error failure
    unfold State.afterRelease
    rw [phase]
    unfold State.error at streams ⊢
    dsimp only
    split_ifs at streams ⊢ with readable
    · exact ⟨⟨⟨streams.1,streams.2,streams.3,streams.4,streams.5,streams.6,streams.7⟩,base.marked,base.emitted,base.inside,base.complete,
        base.left,base.calls,base.counted,base.bounded⟩,single,closed,released,fun takes => (nomatch takes.1)⟩
    · exact ⟨base.move options _ _ _,single,closed,released,fun takes => readable takes.1⟩
  | reading | settled | parked | resuming | acquiring | finished =>
    have same : state.afterRelease options = state := by
      unfold State.afterRelease
      rw [phase]
    rw [same]
    exact inv

/-! ### The sources and the consumer -/

theorem Base.arrive (base : state.Base options) (live : state.source.Live) (phase : Phase) (value : Chunk)
    (arrived : source.arrived = state.source.arrived ++ [value]) : Base options { state with phase,source } where
  streams := ⟨base.streams.1,base.streams.2,base.streams.3,base.streams.4,base.streams.5,base.streams.6,base.streams.7⟩
  marked := base.marked
  emitted := base.emitted
  inside := by
    dsimp only
    rw [arrived,filled_append]
    exact base.inside.trans (prefix_append _ _)
  complete requested := nomatch live.2.symm.trans (base.complete requested).2.2
  left := base.left
  calls := base.calls
  counted := base.counted
  bounded := base.bounded

theorem Flows.arrive {held : List Chunk} (flows : state.Flows held) (value : Chunk) :
    Flows { state with source := { state.source with
      arrived := state.source.arrived ++ [value]
      unread := state.source.unread ++ [value] } } held := by
  refine ⟨?_,flows.2,flows.3⟩
  have whole := flows.whole
  show state.passed ++ filled held ++ filled (state.source.unread ++ [value]) = filled (state.source.arrived ++ [value])
  rw [filled_append,filled_append,← whole]
  simp

theorem At.feed {phase : Phase} (place : state.At options phase) (live : state.source.Live) (still : ∀ soft, phase ≠ .reading soft) (flows : ∀ held, state.Flows held → Flows { state with source } held)
    (cancelled : source.cancelled = state.source.cancelled) : At options { state with source } phase := by
  have stops (stopped : state.Stopped) : Stopped { state with source } := ⟨stopped.1,stopped.2,cancelled.trans stopped.3⟩
  have opens (open_ : state.Open) : Open { state with source } := ⟨open_.1,open_.2,open_.3⟩
  have not_released : state.source.cancelled ≠ true := fun released => nomatch live.2.symm.trans released
  cases phase with
  | reading soft => exact absurd rfl (still soft)
  | settled outcome =>
    cases outcome with
    | chunk value => exact ⟨⟨place.1.1,place.1.2⟩,place.2.imp (fun fed => ⟨opens fed.1,flows _ fed.2⟩) stops⟩
    | done =>
      obtain ⟨follows,⟨-,-,-,ended⟩ | ⟨stopped,-⟩⟩ := place
      · cases live.1.symm.trans ended
      · exact absurd stopped.released not_released
    | failed failure => exact ⟨⟨place.1.1,place.1.2⟩,place.2.imp opens (fun stopped => ⟨stops stopped.1,stopped.2⟩)⟩
  | parked => exact ⟨⟨place.1.1,place.1.2⟩,opens place.2.1,flows _ place.2.2.1,place.2.2.2⟩
  | resuming => exact ⟨⟨place.1.1,place.1.2⟩,place.2.imp (fun fed => ⟨opens fed.1,flows _ fed.2⟩) stops⟩
  | acquiring cause => exact ⟨place.1,place.2.1,place.2.2.1,place.2.2.2.imp opens stops⟩
  | switching => exact absurd place.2.2.2.1 not_released
  | closing => exact absurd place.2.2.1 not_released
  | failing failure => exact absurd place.2.2 not_released
  | finished => exact absurd place.2.2.1 not_released

theorem not_reading (still : ¬ state.Reading) (soft : Bool) : state.phase ≠ .reading soft := by
  intro phase
  cases soft
  · exact still (Or.inr phase)
  · exact still (Or.inl phase)

theorem At.reading (place : state.At options state.phase) (reading : state.Reading) : state.At options (.reading true) := by
  obtain phase | phase := reading <;> (rw [phase] at place; exact place)

theorem inv_arrive (inv : state.Inv options) (live : state.source.Live) (value : Chunk) : (state.arrive value).Inv options := by
  obtain ⟨base,place⟩ := inv
  unfold State.arrive
  dsimp only
  split_ifs with reading orphan
  · obtain ⟨follows,open_,flows,empty,-⟩ := place.reading options reading
    refine ⟨base.arrive options live _ value rfl,⟨follows.1,follows.2⟩,Or.inl ⟨⟨open_.1,open_.2,open_.3⟩,?_,flows.2,flows.3⟩⟩
    have whole := flows.whole
    rw [empty,filled_nil,append_nil,append_nil] at whole
    show state.passed ++ filled [value] ++ filled state.source.unread = filled (state.source.arrived ++ [value])
    rw [empty,filled_append,← whole]
    simp
  · refine ⟨base.arrive options live _ value rfl,place.feed options live (not_reading reading) (fun held flows => ?_) rfl⟩
    cases flows.watched.symm.trans orphan
  · exact ⟨base.arrive options live _ value rfl,place.feed options live (not_reading reading) (fun held flows => flows.arrive value) rfl⟩

theorem inv_ends (inv : state.Inv options) (live : state.source.Live) (ending : Ending) : (state.ends ending).Inv options := by
  obtain ⟨base,place⟩ := inv
  have streams := base.streams
  have ended : Base options { state with source := { state.source with ending := some ending } } :=
    ⟨⟨streams.1,streams.2,streams.3,streams.4,streams.5,streams.6,streams.7⟩,base.marked,base.emitted,base.inside,
      fun requested => (nomatch live.2.symm.trans (base.complete requested).2.2),base.left,base.calls,base.counted,base.bounded⟩
  unfold State.ends
  dsimp only
  split_ifs with reading
  · obtain ⟨follows,open_,flows,-,-⟩ := place.reading options reading
    exact inv_startRead options ended ⟨follows.1,follows.2⟩ ⟨open_.1,open_.2,open_.3⟩ ⟨flows.1,flows.2,flows.3⟩
  · exact ⟨ended,place.feed options live (not_reading reading) (fun held flows => ⟨flows.1,flows.2,flows.3⟩) rfl⟩

theorem At.switching {phase : Phase} (place : state.At options phase) (obtained : state.next ≠ none) : phase = .switching := by
  cases phase with
  | switching => rfl
  | settled outcome => cases outcome <;> exact absurd place.1.single obtained
  | reading | parked | resuming => exact absurd place.1.single obtained
  | acquiring | closing | failing | finished => exact absurd place.1 obtained

theorem inv_next (inv : state.Inv options) (obtained : state.next ≠ none) (change : Source → Source)
    (unread : ∀ source, filled source.unread = filled source.arrived → filled (change source).unread = filled (change source).arrived)
    (watched : ∀ source, (change source).orphan = source.orphan) (cancelled : ∀ source, (change source).cancelled = source.cancelled) :
    ({ state with next := state.next.map change }).Inv options := by
  obtain ⟨base,place⟩ := inv
  refine ⟨base.update options state.phase state.closed state.demandPending state.pullDue (state.next.map change) rfl rfl id,?_⟩
  have phase := place.switching options obtained
  show At options _ state.phase
  rw [phase] at place ⊢
  obtain ⟨attempts,silent,open_,released,source,found,fresh,still,live⟩ := place
  refine ⟨attempts,silent,⟨open_.1,open_.2,open_.3⟩,released,change source,?_,unread source fresh,?_,?_⟩
  · dsimp only
    rw [found]
    rfl
  · rw [watched,still]
  · rw [cancelled,live]

theorem inv_timeout (inv : state.Inv options) : (state.timeout options).Inv options := by
  unfold State.timeout
  split
  · next soft phase =>
    obtain ⟨base,place⟩ := inv
    rw [phase] at place
    obtain ⟨follows,open_,flows,empty,ending⟩ := place
    split_ifs
    · exact ⟨base.update options (.settled (.failed .stalled)) state.closed state.demandPending state.pullDue state.next rfl rfl id,
        ⟨follows.1,follows.2⟩,Or.inl ⟨open_.1,open_.2,open_.3⟩⟩
    · exact ⟨base.move options _ _ _,⟨follows.1,follows.2⟩,⟨open_.1,open_.2,open_.3⟩,⟨flows.1,flows.2,flows.3⟩,empty,ending⟩
  · exact inv

/-- A change of what the consumer has left to read, and of the signals. -/
structure Quiet (first second : State) : Prop where
  closed : second.closed = first.closed
  failoverAttempt : second.failoverAttempt = first.failoverAttempt
  emittedBytes : second.emittedBytes = first.emittedBytes
  past : second.past = first.past
  source : second.source = first.source
  next : second.next = first.next
  calls : second.calls = first.calls
  closeRequested : second.closeRequested = first.closeRequested
  cancelled : second.cancelled = first.cancelled
  enqueued : second.enqueued = first.enqueued
  takes : second.CanEnqueue ↔ first.CanEnqueue

theorem Base.quiet {other : State} (base : state.Base options) (quiet : Quiet state other) (streams : other.Streams) : other.Base options := by
  have passed : other.passed = state.passed := by rw [State.passed,State.passed,quiet.enqueued]
  refine ⟨streams,?_,?_,?_,?_,?_,?_,?_,?_⟩
  · rw [quiet.enqueued,quiet.past,passed]
    exact base.marked
  · rw [quiet.emittedBytes,passed]
    exact base.emitted
  · rw [passed,quiet.source]
    exact base.inside
  · rw [passed,quiet.source,quiet.closeRequested]
    exact base.complete
  · rw [quiet.past]
    exact base.left
  · rw [quiet.calls]
    exact base.calls
  · rw [quiet.calls,quiet.failoverAttempt]
    exact base.counted
  · rw [quiet.failoverAttempt]
    exact base.bounded

theorem At.quiet {other : State} {phase : Phase} (place : state.At options phase) (quiet : Quiet state other)
    (asks : phase = .parked → other.queue = [] → other.pullDue = true) : other.At options phase := by
  obtain ⟨closed,attempts,emitted,past,source,next,calls,requested,cancelled,enqueued,takes⟩ := quiet
  have passed : other.passed = state.passed := by rw [State.passed,State.passed,enqueued]
  have follows (follows : state.Follows) : other.Follows := ⟨next.trans follows.1,by rw [attempts,past]; exact follows.2⟩
  have opens (open_ : state.Open) : other.Open := ⟨closed.trans open_.1,cancelled.trans open_.2,takes.mpr open_.3⟩
  have stops (stopped : state.Stopped) : other.Stopped := ⟨closed.trans stopped.1,cancelled.trans stopped.2,by rw [source]; exact stopped.3⟩
  have flows {held : List Chunk} (flows : state.Flows held) : other.Flows held :=
    ⟨by rw [passed,source]; exact flows.1,by rw [source]; exact flows.2,by rw [source]; exact flows.3⟩
  have spent (spent : state.Spent options) : other.Spent options := by
    unfold Spent
    rw [attempts,emitted]
    exact spent
  cases phase with
  | reading soft =>
    refine ⟨follows place.1,opens place.2.1,flows place.2.2.1,?_⟩
    rw [source]
    exact place.2.2.2
  | settled outcome =>
    cases outcome with
    | chunk value => exact ⟨follows place.1,place.2.imp (fun fed => ⟨opens fed.1,flows fed.2⟩) stops⟩
    | done =>
      refine ⟨follows place.1,place.2.imp (fun fed => ⟨opens fed.1,flows fed.2.1,?_⟩) (fun stopped => ⟨stops stopped.1,spent stopped.2⟩)⟩
      rw [source]
      exact fed.2.2
    | failed failure => exact ⟨follows place.1,place.2.imp opens (fun stopped => ⟨stops stopped.1,spent stopped.2⟩)⟩
  | parked => exact ⟨follows place.1,opens place.2.1,flows place.2.2.1,asks rfl⟩
  | resuming => exact ⟨follows place.1,place.2.imp (fun fed => ⟨opens fed.1,flows fed.2⟩) stops⟩
  | acquiring cause =>
    refine ⟨next.trans place.1,?_,emitted.trans place.2.2.1,place.2.2.2.imp opens stops⟩
    rw [attempts,past]
    exact place.2.1
  | switching =>
    refine ⟨?_,emitted.trans place.2.1,opens place.2.2.1,?_,?_⟩
    · rw [attempts,past]
      exact place.1
    · rw [source]
      exact place.2.2.2.1
    · rw [next]
      exact place.2.2.2.2
  | closing | finished =>
    refine ⟨next.trans place.1,closed.trans place.2.1,?_,fun canTake => place.2.2.2 (takes.mp canTake)⟩
    rw [source]
    exact place.2.2.1
  | failing failure =>
    refine ⟨next.trans place.1,closed.trans place.2.1,?_⟩
    rw [source]
    exact place.2.2

theorem Quiet.signals (state : State) (phase : Phase) (demandPending pullDue : Bool) :
    Quiet state { state with phase,demandPending,pullDue } := ⟨rfl,rfl,rfl,rfl,rfl,rfl,rfl,rfl,rfl,rfl,Iff.rfl⟩

theorem inv_signalDemand (inv : state.Inv options) (pullDue : Bool) : ({ state with pullDue }.signalDemand).Inv options := by
  obtain ⟨base,place⟩ := inv
  have streams := base.streams
  unfold State.signalDemand
  split_ifs with parked
  · have parked : state.phase = .parked := parked
    rw [parked] at place
    obtain ⟨follows,open_,flows,-⟩ := place
    exact ⟨base.update options .resuming state.closed state.demandPending pullDue state.next rfl rfl id,⟨follows.1,follows.2⟩,
      Or.inl ⟨⟨open_.1,open_.2,open_.3⟩,⟨flows.1,flows.2,flows.3⟩⟩⟩
  · exact ⟨base.quiet options (Quiet.signals state state.phase true pullDue)
      ⟨streams.1,streams.2,streams.3,streams.4,streams.5,streams.6,streams.7⟩,
      place.quiet options (Quiet.signals state state.phase true pullDue) (fun phase => absurd phase parked)⟩

theorem inv_pull (inv : state.Inv options) : state.pull.Inv options := by
  unfold State.pull
  split_ifs with wants
  · exact inv_signalDemand options inv false
  · -- Nothing is wanted where the loop waits for the consumer only while something is queued.
    obtain ⟨base,place⟩ := inv
    have streams := base.streams
    refine ⟨base.quiet options (Quiet.signals state state.phase state.demandPending false)
      ⟨streams.1,streams.2,streams.3,streams.4,streams.5,streams.6,streams.7⟩,
      place.quiet options (Quiet.signals state state.phase state.demandPending false) ?_⟩
    intro parked empty
    have parked : state.phase = .parked := parked
    rw [parked] at place
    exact absurd ⟨place.2.1.takes,Or.inr empty⟩ wants

theorem callPullIfNeeded_asks (takes : state.CanEnqueue) (empty : state.queue = []) : state.callPullIfNeeded.pullDue = true := by
  have wants : state.ShouldPull := ⟨takes,Or.inr empty⟩
  simp [callPullIfNeeded,wants]

theorem read_quiet (state : State) : Quiet state state.read ∧ state.read.phase = state.phase ∧
    (state.CanEnqueue → state.read.queue = [] → state.read.pullDue = true) := by
  unfold State.read
  split
  · next item queue found =>
    dsimp only
    split_ifs with last
    · have ended : ¬ state.CanEnqueue := fun takes => (nomatch takes.2.symm.trans last.1)
      exact ⟨⟨rfl,rfl,rfl,rfl,rfl,rfl,rfl,rfl,rfl,rfl,iff_of_false (fun takes => (nomatch takes.1)) ended⟩,rfl,fun takes => absurd takes ended⟩
    · exact ⟨⟨rfl,rfl,rfl,rfl,rfl,rfl,rfl,rfl,rfl,rfl,Iff.rfl⟩,rfl,fun takes empty => callPullIfNeeded_asks takes empty⟩
  · split_ifs with readable
    · exact ⟨⟨rfl,rfl,rfl,rfl,rfl,rfl,rfl,rfl,rfl,rfl,Iff.rfl⟩,rfl,fun takes empty => callPullIfNeeded_asks takes empty⟩
    · exact ⟨⟨rfl,rfl,rfl,rfl,rfl,rfl,rfl,rfl,rfl,rfl,Iff.rfl⟩,rfl,fun takes => absurd takes.1 readable⟩

theorem inv_read (inv : state.Inv options) : state.read.Inv options := by
  obtain ⟨base,place⟩ := inv
  obtain ⟨quiet,phase,asks⟩ := read_quiet state
  refine ⟨base.quiet options quiet base.streams.read,?_⟩
  rw [phase]
  apply place.quiet options quiet
  intro parked
  rw [parked] at place
  exact asks place.2.1.takes

/-! ### A careful consumer -/

/-- The loop waits for a source, or has just been told that it ended or failed. -/
def AwaitsSource (state : State) : Prop :=
  state.Reading ∨ state.phase = .settled .done ∨ ∃ failure, state.phase = .settled (.failed failure)

/-- A failover may still begin. -/
def MayFailOver (state : State) : Prop := state.failoverAttempt < options.maximum ∧ state.emittedBytes = 0

theorem spent_iff : state.Spent options ↔ ¬ state.MayFailOver options := by
  unfold Spent MayFailOver
  omega

/-- A state whose consumer has cancelled. -/
def stop (state : State) (phase : Phase) (demandPending : Bool) : State :=
  { state with
    status := .closed
    queue := []
    requests := 0
    cancelled := true
    closed := true
    source := { state.source with cancelled := true }
    phase
    demandPending }

theorem cancel_eq (readable : state.status = .readable) : ∃ demandPending, state.cancel =
    state.stop (if state.Reading then .settled .done else if state.phase = .parked then .resuming else state.phase) demandPending := by
  unfold State.cancel State.signalDemand State.release
  rw [if_pos readable]
  dsimp only
  split_ifs with reading parked parked
  · exact ⟨_,rfl⟩
  · exact ⟨_,rfl⟩
  · exact ⟨_,rfl⟩
  · exact ⟨_,rfl⟩

theorem Base.stop (base : state.Base options) (phase : Phase) (demandPending : Bool) : (state.stop phase demandPending).Base options where
  streams := ⟨base.streams.delivered,(nomatch ·),fun _ => rfl,fun _ kept => (nomatch kept),fun waits => absurd waits (Nat.lt_irrefl 0),
    fun _ => (nomatch ·),fun _ => rfl⟩
  marked := base.marked
  emitted := base.emitted
  inside := base.inside
  complete requested := ⟨(base.complete requested).1,(base.complete requested).2.1,rfl⟩
  left := base.left
  calls := base.calls
  counted := base.counted
  bounded := base.bounded

theorem inv_cancel (inv : state.Inv options) (careful : state.status = .readable →
    ¬ (state.AwaitsSource ∧ state.MayFailOver options) ∧ state.phase ≠ .switching) : state.cancel.Inv options := by
  by_cases readable : state.status = .readable
  swap
  · unfold State.cancel
    rw [if_neg readable]
    exact inv
  obtain ⟨base,place⟩ := inv
  obtain ⟨careful,staying⟩ := careful readable
  obtain ⟨demandPending,same⟩ := cancel_eq readable
  rw [same]
  have stopped (phase : Phase) : Stopped (state.stop phase demandPending) := ⟨rfl,rfl,rfl⟩
  have follows (follows : state.Follows) (phase : Phase) : Follows (state.stop phase demandPending) := ⟨follows.1,follows.2⟩
  have spent (awaits : state.AwaitsSource) (phase : Phase) : Spent options (state.stop phase demandPending) :=
    (state.spent_iff options).mpr (fun may => careful ⟨awaits,may⟩)
  have ended (phase : Phase) : ¬ CanEnqueue (state.stop phase demandPending) := fun takes => (nomatch takes.1)
  refine ⟨base.stop options _ _,?_⟩
  split_ifs with reading parked
  · exact ⟨follows (place.reading options reading).1 _,Or.inr ⟨stopped _,spent (Or.inl reading) _⟩⟩
  · rw [parked] at place
    exact ⟨follows place.1 _,Or.inr (stopped _)⟩
  · show At options _ state.phase
    cases phase : state.phase with
    | reading soft => exact absurd phase (not_reading reading soft)
    | parked => exact absurd phase parked
    | switching => exact absurd phase staying
    | settled outcome =>
      rw [phase] at place
      cases outcome with
      | chunk value => exact ⟨follows place.1 _,Or.inr (stopped _)⟩
      | done => exact ⟨follows place.1 _,Or.inr ⟨stopped _,spent (Or.inr (Or.inl phase)) _⟩⟩
      | failed failure => exact ⟨follows place.1 _,Or.inr ⟨stopped _,spent (Or.inr (Or.inr ⟨failure,phase⟩)) _⟩⟩
    | resuming =>
      rw [phase] at place
      exact ⟨follows place.1 _,Or.inr (stopped _)⟩
    | acquiring cause =>
      rw [phase] at place
      exact ⟨place.1,place.2.1,place.2.2.1,Or.inr (stopped _)⟩
    | closing | finished =>
      rw [phase] at place
      exact ⟨place.1,rfl,rfl,ended _⟩
    | failing failure =>
      rw [phase] at place
      exact ⟨place.1,rfl,rfl⟩

end State

open State

/-- The consumer does not cancel while a failover may still begin or is about to be
    followed, and no body comes for it after it has cancelled. -/
def Careful (state : State) : Action → Prop
  | .cancel => state.status = .readable → ¬ (state.AwaitsSource ∧ state.MayFailOver options) ∧ state.phase ≠ .switching
  | .answer .body => state.cancelled = false
  | _ => True

theorem inv_step {state : State} (action : Action) (may : Enabled state action) (careful : Careful options state action)
    (inv : state.Inv options) : (step options state action).Inv options := by
  cases action with
  | arrive value => exact inv_arrive options inv may value
  | ends ending => exact inv_ends options inv may ending
  | arriveNext value =>
    obtain ⟨source,found,-⟩ := may
    apply inv_next options inv (by rw [found]; exact Option.some_ne_none _)
    · intro source fresh
      rw [filled_append,filled_append,fresh]
    · exact fun _ => rfl
    · exact fun _ => rfl
  | endsNext ending =>
    obtain ⟨source,found,-⟩ := may
    exact inv_next options inv (by rw [found]; exact Option.some_ne_none _) _ (fun _ => id) (fun _ => rfl) (fun _ => rfl)
  | timeout => exact inv_timeout options inv
  | goOn => exact inv_goOn options inv
  | answer answer => exact inv_answer options inv answer (fun body => by subst body; exact careful)
  | released => exact inv_afterRelease options inv
  | pull => exact inv_pull options inv
  | read => exact inv_read options inv
  | cancel => exact inv_cancel options inv careful

theorem inv_start : ({} : State).Inv options where
  base := ⟨⟨prefix_rfl,fun _ => rfl,fun _ => rfl,(nomatch ·),fun waits => absurd waits (Nat.lt_irrefl 0),(nomatch ·),(nomatch ·)⟩,rfl,
    fun _ => rfl,prefix_rfl,(nomatch ·),forall_mem_nil _,forall_mem_nil _,rfl,
    Nat.zero_le _⟩
  place := ⟨⟨rfl,rfl⟩,⟨rfl,rfl,rfl,rfl⟩,⟨rfl,rfl,rfl⟩,rfl,rfl⟩

end CodexMultiAuth.StreamFailover
