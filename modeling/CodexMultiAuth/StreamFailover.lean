import CodexMultiAuth.RoutePolicy
import CodexMultiAuth.Runs
import Mathlib.Data.Rat.Floor

/-!
A response that is passed on and that goes over to another source while nothing
of it was passed on. One loop reads the source, and waits where the consumer does
not keep up; two timers, the sources, the answer of a fallback and the consumer
act between its steps, in any order.
-/
namespace CodexMultiAuth.StreamFailover
open RoutePolicy (utf16Length)

abbrev Chunk := List UInt8

/-- A number that is missing or not finite is `none`. -/
structure StreamFailoverOptions where
  maxFailovers : Option ℚ := none
  stallTimeoutMs : Option ℚ := none
  softTimeoutMs : Option ℚ := none
  hardTimeoutMs : Option ℚ := none
  requestInstanceId : Option String := none

def DEFAULT_MAX_FAILOVERS : Nat := 1

def MAX_FAILOVERS_HARD_BOUND : Nat := 32

def DEFAULT_STALL_TIMEOUT_MS : ℚ := 45000

def DEFAULT_SOFT_TIMEOUT_MS : ℚ := 15000

def MAX_REQUEST_INSTANCE_ID_LENGTH : Nat := 64

def MAX_TIMER_DELAY_MS : ℤ := 2147483647

def normalizeMaxFailovers (value : Option ℚ) : Nat :=
  match value with
  | none => DEFAULT_MAX_FAILOVERS
  | some value => min MAX_FAILOVERS_HARD_BOUND ⌊value⌋.toNat

/-- The first code units of a text. Half of a pair is encoded as U+FFFD. -/
def sliceUnits : Nat → List Char → List Char
  | 0,_ => []
  | _,[] => []
  | units + 1,c :: rest =>
    if 0x10000 ≤ c.toNat then if units = 0 then ['\uFFFD'] else c :: sliceUnits (units - 1) rest
    else c :: sliceUnits units rest

def normalizeRequestInstanceId (value : Option String) : Option String :=
  match value with
  | none => none
  | some value =>
    let trimmed := trim value
    if trimmed = "" then none
    else if utf16Length trimmed.toList ≤ MAX_REQUEST_INSTANCE_ID_LENGTH then some trimmed
    else some (String.ofList (sliceUnits MAX_REQUEST_INSTANCE_ID_LENGTH trimmed.toList))

namespace StreamFailoverOptions

def maximum (options : StreamFailoverOptions) : Nat := normalizeMaxFailovers options.maxFailovers

def defaultHardTimeoutMs (options : StreamFailoverOptions) : ℚ := options.stallTimeoutMs.getD DEFAULT_STALL_TIMEOUT_MS

def softTimeout (options : StreamFailoverOptions) : ℤ :=
  min MAX_TIMER_DELAY_MS (max 1000 ⌊options.softTimeoutMs.getD (min options.defaultHardTimeoutMs DEFAULT_SOFT_TIMEOUT_MS)⌋)

def hardTimeout (options : StreamFailoverOptions) : ℤ :=
  min MAX_TIMER_DELAY_MS (max options.softTimeout ⌊options.hardTimeoutMs.getD options.defaultHardTimeoutMs⌋)

def markerLabel (options : StreamFailoverOptions) (attempt : Nat) : String :=
  match normalizeRequestInstanceId options.requestInstanceId with
  | some requestInstanceId => ": codex-multi-auth failover " ++ toString attempt ++ " req:" ++ requestInstanceId ++ "\n\n"
  | none => ": codex-multi-auth failover " ++ toString attempt ++ "\n\n"

end StreamFailoverOptions

/-! ### The state -/

inductive Failure where
  | stalled
  | upstream
  | fallback
  /-- The `TypeError` of a stream that takes nothing any more. -/
  | closedStream
  deriving DecidableEq

/-- How the body of a source ended. -/
inductive Ending where
  | complete
  | broken
  deriving DecidableEq

/-- The body of a response. -/
structure Source where
  /-- Every chunk that came. -/
  arrived : List Chunk := []
  /-- The chunks that were not read. -/
  unread : List Chunk := []
  ending : Option Ending := none
  /-- A read that nobody waits for any more takes the next chunk. -/
  orphan : Bool := false
  /-- Its reader was told to cancel. -/
  cancelled : Bool := false
  deriving DecidableEq

/-- What a read came to. -/
inductive Outcome where
  | chunk (value : Chunk)
  | done
  | failed (failure : Failure)
  deriving DecidableEq

/-- Where the loop waits. -/
inductive Phase where
  /-- For a read, before the soft timeout or after it. -/
  | reading (soft : Bool)
  /-- The read is over and the loop has not gone on yet. -/
  | settled (outcome : Outcome)
  /-- For the consumer. -/
  | parked
  /-- The consumer has asked and the loop has not gone on yet. -/
  | resuming
  /-- For `getFallbackResponse`. -/
  | acquiring (cause : Failure)
  /-- For the end of the last source, with the next one at hand. -/
  | switching
  /-- For the end of the source, after the stream was closed. -/
  | closing
  /-- For the end of the source, before the stream fails. -/
  | failing (failure : Failure)
  | finished
  deriving DecidableEq

/-- What is passed on. -/
inductive Item where
  | marker (label : String)
  | chunk (value : Chunk)
  deriving DecidableEq

def Item.value : Item → Option Chunk
  | .marker _ => none
  | .chunk value => some value

/-- The state of the stream that the consumer reads. -/
inductive Status where
  | readable
  | closed
  | errored (failure : Failure)
  deriving DecidableEq

/-- A call of `getFallbackResponse`, with what was passed on before and whether the
    consumer had cancelled. -/
structure Call where
  attempt : Nat
  emittedBytes : Nat
  passed : List Chunk
  cancelled : Bool
  deriving DecidableEq

structure State where
  closed : Bool := false
  demandPending : Bool := false
  phase : Phase := .reading true
  failoverAttempt : Nat := 0
  emittedBytes : Nat := 0
  /-- The sources that were left. -/
  past : List Source := []
  source : Source := {}
  /-- A source that was obtained and is not read yet. -/
  next : Option Source := none
  calls : List Call := []
  status : Status := .readable
  /-- The stream was closed by its producer. -/
  closeRequested : Bool := false
  queue : List Item := []
  /-- Reads of the consumer that wait. -/
  requests : Nat := 0
  /-- The stream is to ask its producer. -/
  pullDue : Bool := true
  cancelled : Bool := false
  /-- All that was passed on, and what of it reached the consumer. -/
  enqueued : List Item := []
  delivered : List Item := []
  deriving DecidableEq

/-- Chunks that carry bytes. -/
def filled (chunks : List Chunk) : List Chunk := chunks.filter (fun value => decide (value ≠ []))

namespace State

/-- The chunks that were passed on. -/
def passed (state : State) : List Chunk := state.enqueued.filterMap Item.value

/-- The stream takes chunks. -/
def CanEnqueue (state : State) : Prop := state.status = .readable ∧ state.closeRequested = false

instance (state : State) : Decidable state.CanEnqueue := inferInstanceAs (Decidable (_ ∧ _))

/-- The stream wants a chunk: a read waits or nothing is queued. -/
def ShouldPull (state : State) : Prop := state.CanEnqueue ∧ (0 < state.requests ∨ state.queue = [])

instance (state : State) : Decidable state.ShouldPull := inferInstanceAs (Decidable (_ ∧ _))

def callPullIfNeeded (state : State) : State := { state with pullDue := state.pullDue || decide state.ShouldPull }

/-- `controller.enqueue` on a stream that takes chunks. -/
def enqueue (state : State) (item : Item) : State :=
  (if 0 < state.requests then
      { state with enqueued := state.enqueued ++ [item],delivered := state.delivered ++ [item],requests := state.requests - 1 }
    else { state with enqueued := state.enqueued ++ [item],queue := state.queue ++ [item] }).callPullIfNeeded

/-- `controller.close` on a stream that takes chunks. -/
def close (state : State) : State :=
  if state.queue = [] then { state with closeRequested := true,status := .closed,requests := 0 } else { state with closeRequested := true }

/-- `controller.error`, which does nothing on a stream that has ended. -/
def error (state : State) (failure : Failure) : State :=
  if state.status = .readable then { state with status := .errored failure,queue := [],requests := 0 } else state

/-- `reader.read()`: what has come is read at once. -/
def startRead (state : State) : State :=
  match state.source.unread with
  | value :: unread => { state with phase := .settled (.chunk value),source := { state.source with unread } }
  | [] =>
    match state.source.ending with
    | some .complete => { state with phase := .settled .done }
    | some .broken => { state with phase := .settled (.failed .upstream) }
    | none => { state with phase := .reading true }

/-- The head of the loop. -/
def loop (state : State) : State := if state.closed then { state with phase := .finished } else state.startRead

/-- The beginning of `releaseCurrentReader`. -/
def release (state : State) : State := { state with source := { state.source with cancelled := true } }

/-- The stream is to fail once the reader is released. -/
def fail (state : State) (failure : Failure) : State := { { state with closed := true }.release with phase := .failing failure }

/-- `tryFailover`, up to the call of `getFallbackResponse`. -/
def tryFailover (options : StreamFailoverOptions) (state : State) (cause : Failure) : State :=
  if options.maximum ≤ state.failoverAttempt ∨ 0 < state.emittedBytes then state.fail cause
  else
    { state with
      failoverAttempt := state.failoverAttempt + 1
      calls := state.calls ++ [⟨state.failoverAttempt + 1,state.emittedBytes,state.passed,state.cancelled⟩]
      phase := .acquiring cause }

def awaitDemand (state : State) : State :=
  if state.demandPending = true ∨ state.closed = true then { state with demandPending := false,phase := .resuming }
  else { state with phase := .parked }

def signalDemand (state : State) : State :=
  if state.phase = .parked then { state with phase := .resuming } else { state with demandPending := true }

/-- The loop goes on after a read. -/
def afterRead (options : StreamFailoverOptions) (state : State) : Outcome → State
  | .done =>
    let state := { state with closed := true }
    if state.CanEnqueue then { state.close.release with phase := .closing } else state.tryFailover options .closedStream
  | .failed failure => state.tryFailover options failure
  | .chunk value =>
    if value = [] then state.loop
    else
      let state := { state with emittedBytes := state.emittedBytes + value.length }
      if state.CanEnqueue then
        let next := state.enqueue (.chunk value)
        if next.queue ≠ [] then next.awaitDemand else next.loop
      else state.tryFailover options .closedStream

/-- The loop goes on after a reader was released. -/
def afterRelease (options : StreamFailoverOptions) (state : State) : State :=
  match state.phase with
  | .switching =>
    if state.CanEnqueue then
      let marked := state.enqueue (.marker (options.markerLabel state.failoverAttempt))
      match marked.next with
      | some source => { marked with past := marked.past ++ [marked.source],source,next := none }.loop
      | none => marked
    else state.fail .closedStream
  | .closing => { state with phase := .finished }
  | .failing failure => { state.error failure with phase := .finished }
  | _ => state

def Reading (state : State) : Prop := state.phase = .reading true ∨ state.phase = .reading false

instance (state : State) : Decidable state.Reading := inferInstanceAs (Decidable (_ ∨ _))

def sources (state : State) : List Source := state.past ++ state.source :: state.next.toList

end State

inductive Answer where
  | body
  /-- No response, or one without a body. -/
  | none
  | throws
  deriving DecidableEq

inductive Action where
  | arrive (value : Chunk)
  | ends (ending : Ending)
  /-- The same of the source that is not read yet. -/
  | arriveNext (value : Chunk)
  | endsNext (ending : Ending)
  | timeout
  | goOn
  /-- `getFallbackResponse` settles. -/
  | answer (answer : Answer)
  /-- The reader that the loop waits for is released. -/
  | released
  | pull
  | read
  | cancel
  deriving DecidableEq

namespace State

def arrive (state : State) (value : Chunk) : State :=
  let arrived := state.source.arrived ++ [value]
  if state.Reading then { state with phase := .settled (.chunk value),source := { state.source with arrived } }
  else if state.source.orphan then { state with source := { state.source with arrived,orphan := false } }
  else { state with source := { state.source with arrived,unread := state.source.unread ++ [value] } }

def ends (state : State) (ending : Ending) : State :=
  let ended := { state with source := { state.source with ending := some ending } }
  if state.Reading then ended.startRead else ended

def stall (state : State) : State :=
  { state with phase := .settled (.failed .stalled),source := { state.source with orphan := true } }

/-- `readChunkWithSoftHardTimeout`: the read goes on after the soft timeout if the hard one is longer. -/
def timeout (options : StreamFailoverOptions) (state : State) : State :=
  match state.phase with
  | .reading soft =>
    if soft = false ∨ options.hardTimeout ≤ options.softTimeout then state.stall else { state with phase := .reading false }
  | _ => state

def goOn (options : StreamFailoverOptions) (state : State) : State :=
  match state.phase with
  | .settled outcome => state.afterRead options outcome
  | .resuming => state.loop
  | _ => state

def answer (state : State) (answer : Answer) : State :=
  match state.phase with
  | .acquiring cause =>
    match answer with
    | .body => { state.release with next := some {},phase := .switching }
    | .none => state.fail cause
    | .throws => state.fail .fallback
  | _ => state

def pull (state : State) : State :=
  if state.ShouldPull then { state with pullDue := false }.signalDemand else { state with pullDue := false }

def read (state : State) : State :=
  match state.queue with
  | item :: queue =>
    let taken := { state with queue,delivered := state.delivered ++ [item] }
    if state.closeRequested = true ∧ queue = [] then { taken with status := .closed } else taken.callPullIfNeeded
  | [] => if state.status = .readable then { state with requests := state.requests + 1 }.callPullIfNeeded else state

/-- A cancellation by the consumer: the stream is closed first, then its producer is told,
    whose reader gives up the read that waits. -/
def cancel (state : State) : State :=
  if state.status = .readable then
    let told := { state with status := .closed,queue := [],requests := 0,cancelled := true,closed := true }.signalDemand.release
    if state.Reading then { told with phase := .settled .done } else told
  else state

end State

def step (options : StreamFailoverOptions) (state : State) : Action → State
  | .arrive value => state.arrive value
  | .ends ending => state.ends ending
  | .arriveNext value => { state with next := state.next.map (fun source =>
      { source with arrived := source.arrived ++ [value],unread := source.unread ++ [value] }) }
  | .endsNext ending => { state with next := state.next.map (fun source => { source with ending := some ending }) }
  | .timeout => state.timeout options
  | .goOn => state.goOn options
  | .answer answer => state.answer answer
  | .released => state.afterRelease options
  | .pull => state.pull
  | .read => state.read
  | .cancel => state.cancel

/-- A source goes on until it has ended or was cancelled. -/
def Source.Live (source : Source) : Prop := source.ending = none ∧ source.cancelled = false

instance (source : Source) : Decidable source.Live := inferInstanceAs (Decidable (_ ∧ _))

/-- When an action can be taken. -/
def Enabled (state : State) : Action → Prop
  | .arrive _ => state.source.Live
  | .ends _ => state.source.Live
  | .arriveNext _ => ∃ source ∈ state.next, source.Live
  | .endsNext _ => ∃ source ∈ state.next, source.Live
  | .timeout => state.Reading
  | .goOn => (∃ outcome, state.phase = .settled outcome) ∨ state.phase = .resuming
  | .answer _ => ∃ cause, state.phase = .acquiring cause
  | .released => state.phase = .switching ∨ state.phase = .closing ∨ ∃ failure, state.phase = .failing failure
  | .pull => state.pullDue = true
  | .read => True
  | .cancel => True

/-- The stream of a response that is wrapped. A response without a body, or for which no
    failover is allowed, is returned as it is. -/
def withStreamingFailover (body : Bool) (options : StreamFailoverOptions) : Option State :=
  if body = false ∨ options.maximum = 0 then none else some {}

end CodexMultiAuth.StreamFailover
