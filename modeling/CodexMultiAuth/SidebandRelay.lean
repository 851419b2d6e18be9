import CodexMultiAuth.Runs
import Mathlib.Algebra.GroupWithZero.Nat
import Mathlib.Algebra.Order.BigOperators.Group.Finset

/-!
The relay of the voice sideband. Frames that the upstream sends before the local
upgrade are held, up to a bound, and sent first; from then on each direction has a
forwarder, which counts the bytes until they are flushed and stops its source while
too many wait.

A frame is known to its forwarder by its number. A send may report frames as flushed,
its own among them, before it returns.
-/
namespace CodexMultiAuth.SidebandRelay
open scoped BigOperators

structure Frame where
  chunks : List (List UInt8)
  isBinary : Bool
  deriving DecidableEq

def rawDataBytes (frame : Frame) : ℕ := (frame.chunks.map List.length).sum

structure Limits where
  highWaterBytes : ℕ
  lowWaterBytes : ℕ

def RELAY_LIMITS : Limits := ⟨4 * 1024 * 1024,1024 * 1024⟩

structure Forwarder where
  pendingBytes : ℤ
  paused : Bool
  /-- Whether the source has been told to stop. -/
  sourcePaused : Bool
  sent : List Frame
  /-- The numbers of the frames that were reported as flushed. -/
  flushed : Finset ℕ

def createBackpressuredForwarder : Forwarder := ⟨0,false,false,[],∅⟩

namespace Forwarder

def sizeAt (f : Forwarder) (number : ℕ) : ℤ := (f.sent[number]?).elim 0 (fun frame => (rawDataBytes frame : ℤ))

def unflushed (f : Forwarder) : ℤ := ∑ number ∈ Finset.range f.sent.length \ f.flushed, f.sizeAt number

def flush (limits : Limits) (f : Forwarder) (number : ℕ) : Forwarder :=
  let pending := f.pendingBytes - f.sizeAt number
  if f.paused = true ∧ pending ≤ limits.lowWaterBytes then
    { f with pendingBytes := pending,flushed := insert number f.flushed,paused := false,sourcePaused := false }
  else { f with pendingBytes := pending,flushed := insert number f.flushed }

/-- The frame is counted and sent; the callbacks are those that the send itself makes. -/
def send (limits : Limits) (f : Forwarder) (frame : Frame) (callbacks : List ℕ) : Forwarder :=
  callbacks.foldl (flush limits) { f with pendingBytes := f.pendingBytes + rawDataBytes frame,sent := f.sent ++ [frame] }

def forward (limits : Limits) (f : Forwarder) (targetOpen : Bool) (frame : Frame) (callbacks : List ℕ) : Forwarder :=
  if targetOpen = false then f
  else
    let f := f.send limits frame callbacks
    if f.paused = false ∧ limits.highWaterBytes < f.pendingBytes then { f with paused := true,sourcePaused := true } else f

/-- The frames that a callback can report. -/
def MayFlush (f : Forwarder) (number : ℕ) : Prop := number < f.sent.length ∧ number ∉ f.flushed

/-- Each callback is made once, for a frame that was sent. -/
def MaySend (f : Forwarder) (callbacks : List ℕ) : Prop := callbacks.Nodup ∧ ∀ number ∈ callbacks, number ≤ f.sent.length ∧ number ∉ f.flushed

instance (f : Forwarder) (number : ℕ) : Decidable (f.MayFlush number) := inferInstanceAs (Decidable (_ ∧ _))
instance (f : Forwarder) (callbacks : List ℕ) : Decidable (f.MaySend callbacks) := inferInstanceAs (Decidable (_ ∧ _))

end Forwarder

inductive Phase where
  | connecting
  /-- The upstream socket is open, the local upgrade is not done. -/
  | opened
  | piped
  | over
  deriving DecidableEq

structure Relay where
  phase : Phase
  upstreamOpen : Bool
  clientOpen : Bool
  early : List Frame
  toClient : Forwarder
  toUpstream : Forwarder
  /-- What the upstream has sent before the upgrade and since. -/
  heldFrames : List Frame
  upstreamFrames : List Frame
  clientFrames : List Frame

def Relay.start : Relay := ⟨.connecting,false,false,[],createBackpressuredForwarder,createBackpressuredForwarder,[],[],[]⟩

inductive Event where
  | upstreamOpens
  /-- An error, another answer, or the client gone. -/
  | handshakeFails
  | upstreamFrame (frame : Frame) (callbacks : List ℕ)
  /-- The local upgrade, with the callbacks of each held frame's send. -/
  | upgrade (callbacks : ℕ → List ℕ)
  | clientFrame (frame : Frame) (callbacks : List ℕ)
  | flushedToClient (number : ℕ)
  | flushedToUpstream (number : ℕ)
  /-- A socket begins to close, or has closed, and the other one with it. -/
  | upstreamLeaves
  | clientLeaves
  | bothLeave

def MAX_EARLY : ℕ := 64

def holdEarly (early : List Frame) (frame : Frame) : List Frame := if early.length < MAX_EARLY then early ++ [frame] else early

/-- The held frames, each with its place. -/
def forwardEarly (limits : Limits) (clientOpen : Bool) (callbacks : ℕ → List ℕ) : List Frame → ℕ → Forwarder → Forwarder
  | [],_,f => f
  | frame :: rest,place,f => forwardEarly limits clientOpen callbacks rest (place + 1) (f.forward limits clientOpen frame (callbacks place))

/-- Each of the sends may make its callbacks. -/
def MayForwardEarly (limits : Limits) (callbacks : ℕ → List ℕ) : List Frame → ℕ → Forwarder → Prop
  | [],_,_ => True
  | frame :: rest,place,f =>
    f.MaySend (callbacks place) ∧ MayForwardEarly limits callbacks rest (place + 1) (f.forward limits true frame (callbacks place))

instance MayForwardEarly.decidable (limits : Limits) (callbacks : ℕ → List ℕ) :
    (early : List Frame) → (place : ℕ) → (f : Forwarder) → Decidable (MayForwardEarly limits callbacks early place f)
  | [],_,_ => isTrue trivial
  | frame :: rest,place,f =>
    haveI := MayForwardEarly.decidable limits callbacks rest (place + 1) (f.forward limits true frame (callbacks place))
    inferInstanceAs (Decidable (_ ∧ _))

namespace Relay

def step (limits : Limits) (r : Relay) : Event → Relay
  | .upstreamOpens => { r with phase := .opened,upstreamOpen := true }
  | .handshakeFails => { r with phase := .over,upstreamOpen := false }
  | .upstreamFrame frame callbacks =>
    if r.phase = .piped then
      { r with toClient := r.toClient.forward limits r.clientOpen frame callbacks,upstreamFrames := r.upstreamFrames ++ [frame] }
    else { r with early := holdEarly r.early frame,heldFrames := r.heldFrames ++ [frame] }
  | .upgrade callbacks =>
    { r with
      phase := .piped
      clientOpen := true
      early := []
      toClient := forwardEarly limits true callbacks r.early 0 r.toClient }
  | .clientFrame frame callbacks =>
    { r with toUpstream := r.toUpstream.forward limits r.upstreamOpen frame callbacks,clientFrames := r.clientFrames ++ [frame] }
  | .flushedToClient number => { r with toClient := r.toClient.flush limits number }
  | .flushedToUpstream number => { r with toUpstream := r.toUpstream.flush limits number }
  | .upstreamLeaves => { r with upstreamOpen := false }
  | .clientLeaves => { r with clientOpen := false }
  | .bothLeave => { r with upstreamOpen := false,clientOpen := false }

def enabled (limits : Limits) (r : Relay) : Event → Prop
  | .upstreamOpens => r.phase = .connecting
  | .handshakeFails => r.phase = .connecting ∨ r.phase = .opened
  | .upstreamFrame _ callbacks => r.phase = .opened ∨ (r.phase = .piped ∧ (r.clientOpen = true → r.toClient.MaySend callbacks))
  | .upgrade callbacks => r.phase = .opened ∧ MayForwardEarly limits callbacks r.early 0 r.toClient
  | .clientFrame _ callbacks => r.phase = .piped ∧ (r.upstreamOpen = true → r.toUpstream.MaySend callbacks)
  | .flushedToClient number => r.toClient.MayFlush number
  | .flushedToUpstream number => r.toUpstream.MayFlush number
  | .upstreamLeaves => r.phase ≠ .connecting
  | .clientLeaves => r.phase = .piped
  | .bothLeave => r.phase = .piped

instance (limits : Limits) (r : Relay) (event : Event) : Decidable (r.enabled limits event) := by
  cases event <;> dsimp only [enabled] <;> infer_instance

end Relay

/-! ### What a forwarder counts -/

namespace Forwarder
variable {limits : Limits} {f : Forwarder}

/-- The count is that of the bytes not flushed, and the source is stopped only above the
    low-water mark. -/
structure Counted (limits : Limits) (f : Forwarder) : Prop where
  known : f.flushed ⊆ Finset.range f.sent.length
  counts : f.pendingBytes = f.unflushed
  source : f.sourcePaused = f.paused
  low : f.paused = true → limits.lowWaterBytes < f.pendingBytes

/-- And above the high-water mark it is stopped. -/
structure Settled (limits : Limits) (f : Forwarder) : Prop extends Counted limits f where
  high : limits.highWaterBytes < f.pendingBytes → f.paused = true

theorem Settled.new : createBackpressuredForwarder.Settled limits where
  known := by simp [createBackpressuredForwarder]
  counts := rfl
  source := rfl
  low := by simp [createBackpressuredForwarder]
  high := by simp [createBackpressuredForwarder]

@[simp] theorem flush_sent (f : Forwarder) (number : ℕ) : (f.flush limits number).sent = f.sent := by
  rw [flush]
  split <;> rfl

@[simp] theorem flush_flushed (f : Forwarder) (number : ℕ) : (f.flush limits number).flushed = insert number f.flushed := by
  rw [flush]
  split <;> rfl

@[simp] theorem flush_pending (f : Forwarder) (number : ℕ) : (f.flush limits number).pendingBytes = f.pendingBytes - f.sizeAt number := by
  rw [flush]
  split <;> rfl

theorem sizeAt_nonneg (f : Forwarder) (number : ℕ) : 0 ≤ f.sizeAt number := by
  rw [sizeAt]
  cases f.sent[number]? with
  | none => exact le_refl _
  | some frame => exact Int.natCast_nonneg _

theorem unflushed_flush {number : ℕ} (may : f.MayFlush number) : (f.flush limits number).unflushed = f.unflushed - f.sizeAt number := by
  have inside : number ∈ Finset.range f.sent.length \ f.flushed := Finset.mem_sdiff.mpr ⟨Finset.mem_range.mpr may.1,may.2⟩
  have sizes : (f.flush limits number).sizeAt = f.sizeAt := by
    funext other
    rw [sizeAt,sizeAt,flush_sent]
  rw [unflushed,unflushed,flush_sent,flush_flushed,sizes,Finset.sdiff_insert,Finset.sum_erase_eq_sub inside]

theorem Counted.flush (counted : Counted limits f) {number : ℕ} (may : f.MayFlush number) : Counted limits (f.flush limits number) where
  known := by
    rw [flush_flushed,flush_sent]
    exact Finset.insert_subset (Finset.mem_range.mpr may.1) counted.known
  counts := by rw [flush_pending,unflushed_flush may,counted.counts]
  source := by
    rw [Forwarder.flush]
    split
    · rfl
    · exact counted.source
  low := by
    rw [Forwarder.flush]
    split
    · intro paused
      cases paused
    · next stays =>
      intro paused
      exact lt_of_not_ge (fun low => stays ⟨paused,low⟩)

theorem Settled.flush (between : limits.lowWaterBytes ≤ limits.highWaterBytes) (settled : Settled limits f) {number : ℕ}
    (may : f.MayFlush number) : Settled limits (f.flush limits number) where
  toCounted := settled.toCounted.flush may
  high := by
    intro above
    rw [flush_pending] at above
    have size := f.sizeAt_nonneg number
    have paused := settled.high (by omega)
    rw [Forwarder.flush]
    rw [if_neg]
    · exact paused
    · rintro ⟨-,low⟩
      omega

theorem Counted.sent (counted : Counted limits f) (frame : Frame) :
    Counted limits { f with pendingBytes := f.pendingBytes + rawDataBytes frame,sent := f.sent ++ [frame] } where
  known := by
    refine subset_trans counted.known ?_
    simp
  counts := by
    have fresh : f.sent.length ∉ Finset.range f.sent.length \ f.flushed := by simp
    have range : Finset.range (f.sent ++ [frame]).length \ f.flushed = insert f.sent.length (Finset.range f.sent.length \ f.flushed) := by
      rw [List.length_append,List.length_singleton,Finset.range_add_one,Finset.insert_sdiff_of_notMem]
      intro flushed
      have := Finset.mem_range.mp (counted.known flushed)
      omega
    rw [unflushed,range,Finset.sum_insert fresh]
    have last : sizeAt { f with pendingBytes := f.pendingBytes + rawDataBytes frame,sent := f.sent ++ [frame] } f.sent.length =
        rawDataBytes frame := by simp [sizeAt]
    have others : ∑ number ∈ Finset.range f.sent.length \ f.flushed,
        sizeAt { f with pendingBytes := f.pendingBytes + rawDataBytes frame,sent := f.sent ++ [frame] } number = f.unflushed := by
      refine Finset.sum_congr rfl (fun number inside => ?_)
      have before := Finset.mem_range.mp (Finset.mem_sdiff.mp inside).1
      rw [sizeAt,sizeAt,List.getElem?_append_left before]
    rw [last,others,← counted.counts]
    exact Int.add_comm _ _
  source := counted.source
  low := by
    intro paused
    have := counted.low paused
    dsimp only
    omega

theorem Counted.flushAll (counted : Counted limits f) {callbacks : List ℕ} (distinct : callbacks.Nodup)
    (may : ∀ number ∈ callbacks, f.MayFlush number) : Counted limits (callbacks.foldl (Forwarder.flush limits) f) := by
  induction callbacks generalizing f with
  | nil => exact counted
  | cons number rest ih =>
    obtain ⟨fresh,distinct⟩ := List.nodup_cons.mp distinct
    refine ih (counted.flush (may number (by simp))) distinct ?_
    intro other member
    have was := may other (List.mem_cons_of_mem _ member)
    refine ⟨by rw [flush_sent]; exact was.1,?_⟩
    rw [flush_flushed,Finset.mem_insert,not_or]
    exact ⟨fun same => fresh (same ▸ member),was.2⟩

@[simp] theorem flushAll_sent (f : Forwarder) (callbacks : List ℕ) : (callbacks.foldl (Forwarder.flush limits) f).sent = f.sent := by
  induction callbacks generalizing f with
  | nil => rfl
  | cons number rest ih => rw [List.foldl_cons,ih,flush_sent]

theorem forward_sent (f : Forwarder) (targetOpen : Bool) (frame : Frame) (callbacks : List ℕ) :
    (f.forward limits targetOpen frame callbacks).sent = if targetOpen = true then f.sent ++ [frame] else f.sent := by
  rw [forward]
  cases targetOpen with
  | false => rfl
  | true =>
    rw [if_neg (by decide),if_pos rfl]
    dsimp only
    split <;> rw [send,flushAll_sent]

theorem Settled.forward (between : limits.lowWaterBytes ≤ limits.highWaterBytes) (settled : Settled limits f) {targetOpen : Bool} (frame : Frame)
    {callbacks : List ℕ} (may : targetOpen = true → f.MaySend callbacks) : Settled limits (f.forward limits targetOpen frame callbacks) := by
  rw [Forwarder.forward]
  cases targetOpen with
  | false => exact settled
  | true =>
    rw [if_neg (by decide)]
    obtain ⟨distinct,known⟩ := may rfl
    have counted : Counted limits (f.send limits frame callbacks) := by
      refine (settled.toCounted.sent frame).flushAll distinct ?_
      intro number member
      refine ⟨?_,(known number member).2⟩
      have := (known number member).1
      rw [List.length_append,List.length_singleton]
      omega
    dsimp only
    split
    · next stops =>
      refine ⟨⟨counted.known,counted.counts,rfl,fun _ => ?_⟩,fun _ => rfl⟩
      have := stops.2
      dsimp only
      omega
    · next goes =>
      refine ⟨counted,fun above => ?_⟩
      by_contra unpaused
      exact goes ⟨Bool.not_eq_true _ ▸ unpaused,above⟩

end Forwarder

/-! ### What the relay forwards -/

theorem holdEarly_take (held : List Frame) (frame : Frame) : holdEarly (held.take MAX_EARLY) frame = (held ++ [frame]).take MAX_EARLY := by
  rw [holdEarly,List.length_take]
  by_cases room : held.length < MAX_EARLY
  · rw [if_pos (by omega),List.take_of_length_le (by omega),List.take_of_length_le (by simp; omega)]
  · rw [if_neg (by omega),List.take_append_of_le_length (by omega)]

theorem forwardEarly_sent (limits : Limits) (callbacks : ℕ → List ℕ) (early : List Frame) (place : ℕ) (f : Forwarder) :
    (forwardEarly limits true callbacks early place f).sent = f.sent ++ early := by
  induction early generalizing place f with
  | nil => rw [forwardEarly,List.append_nil]
  | cons frame rest ih =>
    rw [forwardEarly,ih,Forwarder.forward_sent,if_pos rfl,List.append_assoc]
    rfl

theorem forwardEarly_settled {limits : Limits} (between : limits.lowWaterBytes ≤ limits.highWaterBytes) {callbacks : ℕ → List ℕ}
    {early : List Frame} {place : ℕ} {f : Forwarder} (settled : f.Settled limits) (may : MayForwardEarly limits callbacks early place f) :
    (forwardEarly limits true callbacks early place f).Settled limits := by
  induction early generalizing place f with
  | nil => exact settled
  | cons frame rest ih => exact ih (settled.forward between frame (fun _ => may.1)) may.2

namespace Relay

structure Inv (limits : Limits) (r : Relay) : Prop where
  toClient : r.toClient.Settled limits
  toUpstream : r.toUpstream.Settled limits
  early : r.phase ≠ .piped → r.early = r.heldFrames.take MAX_EARLY ∧ r.upstreamFrames = [] ∧ r.clientFrames = []
  unsent : r.phase ≠ .piped → r.toClient.sent = [] ∧ r.toUpstream.sent = []
  sentToClient : r.phase = .piped → r.clientOpen = true → r.toClient.sent = r.heldFrames.take MAX_EARLY ++ r.upstreamFrames
  sentToUpstream : r.phase = .piped → r.upstreamOpen = true → r.toUpstream.sent = r.clientFrames

theorem inv_start (limits : Limits) : Inv limits start where
  toClient := .new
  toUpstream := .new
  early _ := ⟨rfl,rfl,rfl⟩
  unsent _ := ⟨rfl,rfl⟩
  sentToClient phase := by cases phase
  sentToUpstream phase := by cases phase

theorem Inv.step {limits : Limits} (between : limits.lowWaterBytes ≤ limits.highWaterBytes) (r : Relay) (event : Event)
    (may : r.enabled limits event) (inv : Inv limits r) : Inv limits (r.step limits event) := by
  cases event with
  | upstreamOpens =>
    have unpiped : r.phase ≠ .piped := by
      rw [show r.phase = .connecting from may]
      decide
    refine ⟨inv.toClient,inv.toUpstream,fun _ => inv.early unpiped,fun _ => inv.unsent unpiped,?_,?_⟩
    · intro phase
      cases phase
    · intro phase
      cases phase
  | handshakeFails =>
    have unpiped : r.phase ≠ .piped := by
      intro piped
      rw [enabled,piped] at may
      rcases may with h | h <;> cases h
    refine ⟨inv.toClient,inv.toUpstream,fun _ => inv.early unpiped,fun _ => inv.unsent unpiped,?_,?_⟩
    · intro phase
      cases phase
    · intro phase
      cases phase
  | upstreamFrame frame callbacks =>
    rw [Relay.step]
    by_cases piped : r.phase = .piped
    · rw [if_pos piped]
      have sends : r.clientOpen = true → r.toClient.MaySend callbacks := by
        rcases may with opened | here
        · rw [piped] at opened
          cases opened
        · exact here.2
      refine ⟨inv.toClient.forward between frame sends,inv.toUpstream,fun other => absurd piped other,fun other => absurd piped other,?_,
        inv.sentToUpstream⟩
      intro _ client
      dsimp only at client ⊢
      rw [Forwarder.forward_sent,if_pos client,inv.sentToClient piped client,List.append_assoc]
    · rw [if_neg piped]
      obtain ⟨early,frames⟩ := inv.early piped
      refine ⟨inv.toClient,inv.toUpstream,fun _ => ⟨?_,frames⟩,fun _ => inv.unsent piped,fun now => absurd now piped,fun now => absurd now piped⟩
      dsimp only
      rw [early,holdEarly_take]
  | upgrade callbacks =>
    have unpiped : r.phase ≠ .piped := by
      rw [show r.phase = .opened from may.1]
      decide
    obtain ⟨early,upstreamFrames,clientFrames⟩ := inv.early unpiped
    obtain ⟨clientUnsent,upstreamUnsent⟩ := inv.unsent unpiped
    refine ⟨forwardEarly_settled between inv.toClient may.2,inv.toUpstream,fun other => absurd rfl other,fun other => absurd rfl other,?_,?_⟩
    · intro _ _
      show (forwardEarly limits true callbacks r.early 0 r.toClient).sent = _
      rw [forwardEarly_sent,clientUnsent,early]
      show _ = r.heldFrames.take MAX_EARLY ++ r.upstreamFrames
      rw [upstreamFrames,List.append_nil,List.nil_append]
    · intro _ _
      show r.toUpstream.sent = r.clientFrames
      rw [upstreamUnsent,clientFrames]
  | clientFrame frame callbacks =>
    refine ⟨inv.toClient,inv.toUpstream.forward between frame may.2,fun other => absurd may.1 other,fun other => absurd may.1 other,
      inv.sentToClient,?_⟩
    intro piped upstream
    have upstream : r.upstreamOpen = true := upstream
    show (r.toUpstream.forward limits r.upstreamOpen frame callbacks).sent = r.clientFrames ++ [frame]
    rw [Forwarder.forward_sent,if_pos upstream,inv.sentToUpstream piped upstream]
  | flushedToClient number =>
    refine ⟨inv.toClient.flush between may,inv.toUpstream,inv.early,fun unpiped => ?_,fun piped client => ?_,inv.sentToUpstream⟩
    · exact ⟨(Forwarder.flush_sent _ _).trans (inv.unsent unpiped).1,(inv.unsent unpiped).2⟩
    · exact (Forwarder.flush_sent _ _).trans (inv.sentToClient piped client)
  | flushedToUpstream number =>
    refine ⟨inv.toClient,inv.toUpstream.flush between may,inv.early,fun unpiped => ?_,inv.sentToClient,fun piped upstream => ?_⟩
    · exact ⟨(inv.unsent unpiped).1,(Forwarder.flush_sent _ _).trans (inv.unsent unpiped).2⟩
    · exact (Forwarder.flush_sent _ _).trans (inv.sentToUpstream piped upstream)
  | upstreamLeaves =>
    refine ⟨inv.toClient,inv.toUpstream,inv.early,inv.unsent,inv.sentToClient,fun _ upstream => ?_⟩
    cases upstream
  | clientLeaves =>
    refine ⟨inv.toClient,inv.toUpstream,inv.early,inv.unsent,fun _ client => ?_,inv.sentToUpstream⟩
    cases client
  | bothLeave =>
    refine ⟨inv.toClient,inv.toUpstream,inv.early,inv.unsent,fun _ client => ?_,fun _ upstream => ?_⟩
    · cases client
    · cases upstream

end Relay

/-- What a forwarder keeps to: it counts what is not flushed, its source is stopped above
    the high-water mark and not left stopped at or below the low-water mark. -/
def Forwarder.Keeps (limits : Limits) (f : Forwarder) : Prop :=
  f.pendingBytes = f.unflushed ∧ (limits.highWaterBytes < f.pendingBytes → f.sourcePaused = true) ∧
    (f.pendingBytes ≤ limits.lowWaterBytes → f.sourcePaused = false)

theorem Forwarder.Settled.keeps {limits : Limits} {f : Forwarder} (settled : f.Settled limits) : f.Keeps limits := by
  refine ⟨settled.counts,fun above => ?_,fun below => ?_⟩
  · rw [settled.source]
    exact settled.high above
  · rw [settled.source]
    by_contra paused
    exact absurd (settled.low (Bool.not_eq_false _ ▸ paused)) (not_lt.mpr below)

/-- Along every run, while both sockets are open, the client has been sent the first
    frames that were held and every frame since, and the upstream every frame of the
    client; and both forwarders keep to their marks throughout. -/
theorem relay_forwards {limits : Limits} (between : limits.lowWaterBytes < limits.highWaterBytes) {r : Relay}
    (run : Runs.Run (Relay.step limits) (Relay.enabled limits) Relay.start r) :
    (r.phase = .piped → r.clientOpen = true → r.upstreamOpen = true →
      r.toClient.sent = r.heldFrames.take MAX_EARLY ++ r.upstreamFrames ∧ r.toUpstream.sent = r.clientFrames) ∧
    r.toClient.Keeps limits ∧ r.toUpstream.Keeps limits := by
  have inv : r.Inv limits := run.invariant (Relay.Inv.step between.le) (Relay.inv_start limits)
  refine ⟨fun piped client upstream => ?_,inv.toClient.keeps,inv.toUpstream.keeps⟩
  exact ⟨inv.sentToClient piped client,inv.sentToUpstream piped upstream⟩

def smallFrame : Frame := ⟨[[1,2,3]],false⟩

def shortCall : List Event :=
  [.upstreamOpens,.upstreamFrame smallFrame [],.upstreamFrame smallFrame [],.upgrade (fun place => [place]),.clientFrame smallFrame [],
    .flushedToUpstream 0]

theorem relay_forwards_shortCall :
    (shortCall.foldl (Relay.step RELAY_LIMITS) Relay.start).toClient.sent = [smallFrame,smallFrame] ∧
      (shortCall.foldl (Relay.step RELAY_LIMITS) Relay.start).toUpstream.sent = [smallFrame] :=
  (relay_forwards (show RELAY_LIMITS.lowWaterBytes < RELAY_LIMITS.highWaterBytes by decide) ((Runs.Run.nil Relay.start).ofList shortCall (by decide))).1
    (by decide) (by decide) (by decide)

def manyEarly : List Event := .upstreamOpens :: List.replicate 65 (.upstreamFrame smallFrame []) ++ [.upgrade (fun _ => [])]

/-- The last of sixty-five frames before the upgrade is not sent. -/
theorem early_frame_lost :
    Runs.Run (Relay.step RELAY_LIMITS) (Relay.enabled RELAY_LIMITS) Relay.start (manyEarly.foldl (Relay.step RELAY_LIMITS) Relay.start) ∧
      (manyEarly.foldl (Relay.step RELAY_LIMITS) Relay.start).clientOpen = true ∧
      (manyEarly.foldl (Relay.step RELAY_LIMITS) Relay.start).upstreamOpen = true ∧
      (manyEarly.foldl (Relay.step RELAY_LIMITS) Relay.start).heldFrames.length = 65 ∧
      (manyEarly.foldl (Relay.step RELAY_LIMITS) Relay.start).toClient.sent.length = 64 := by
  refine ⟨(Runs.Run.nil Relay.start).ofList manyEarly (by decide +kernel),?_⟩
  decide +kernel

end CodexMultiAuth.SidebandRelay
