import CodexMultiAuth.Runs

/-!
Programs that ask, one request after another, and go on with the answers; and
calls that have an object to themselves, one after another, as under a lock. A call
is a program of requests; each is answered in one step, from the object's state and
from what comes from outside, and the call may be given up before any of them.

Rules for one program: an invariant holds wherever it is given up, and where it ends
its postcondition. In every run of such calls both hold.
-/
namespace CodexMultiAuth.Dialogue

variable {Request α β : Type} {Answer : Request → Type}

inductive Program {Request : Type} (Answer : Request → Type) (α : Type) where
  | done (result : α)
  | ask (request : Request) (next : Answer request → Program Answer α)

namespace Program

def bind : Program Answer α → (α → Program Answer β) → Program Answer β
  | .done result,rest => rest result
  | .ask request next,rest => .ask request (fun answer => (next answer).bind rest)

instance : Monad (Program Answer) where
  pure := .done
  bind := bind

def request (request : Request) : Program Answer (Answer request) := .ask request .done

end Program
end CodexMultiAuth.Dialogue

namespace CodexMultiAuth.Exclusive
open Dialogue (Program)

variable {Request Input State Tag Result Failure α β : Type} {Answer : Request → Type}

abbrev Task (Failure : Type) (Answer : Request → Type) (α : Type) : Type := ExceptT Failure (Program Answer) α

namespace Task

def ask (request : Request) : Task Failure Answer (Answer request) := ExceptT.lift (Program.request request)

def attempt (task : Task Failure Answer α) : Task Failure Answer (Except Failure α) := ExceptT.lift task.run

end Task

section
variable (respond : State → (request : Request) → Input → State × Answer request) (allowed : State → Request → Input → Prop) (inv : State → Prop)

def safe : Program Answer α → (α → State → Prop) → State → Prop
  | .done result,post,s => inv s ∧ post result s
  | .ask request next,post,s =>
    inv s ∧ ∀ input, allowed s request input → safe (next (respond s request input).2) post (respond s request input).1

end

section
variable {respond : State → (request : Request) → Input → State × Answer request} {allowed : State → Request → Input → Prop} {inv : State → Prop}
  {s : State}

variable {program : Program Answer α}

theorem safe_inv {post : α → State → Prop} (holds : safe respond allowed inv program post s) : inv s := by
  cases program with
  | done result => exact holds.1
  | ask request next => exact holds.1

theorem safe_mono {post weaker : α → State → Prop} (implies : ∀ result s, inv s → post result s → weaker result s)
    (holds : safe respond allowed inv program post s) : safe respond allowed inv program weaker s := by
  induction program generalizing s with
  | done result => exact ⟨holds.1,implies result s holds.1 holds.2⟩
  | ask request next ih => exact ⟨holds.1,fun input may => ih _ (holds.2 input may)⟩

theorem safe_bind {rest : α → Program Answer β} {post : β → State → Prop}
    (holds : safe respond allowed inv program (fun result s => safe respond allowed inv (rest result) post s) s) :
    safe respond allowed inv (program >>= rest) post s := by
  show safe respond allowed inv (program.bind rest) post s
  induction program generalizing s with
  | done result => exact holds.2
  | ask request next ih => exact ⟨holds.1,fun input may => ih _ (holds.2 input may)⟩

variable {post : Except Failure α → State → Prop}

namespace Task

theorem safe_pure {value : α} (here : inv s) (holds : post (.ok value) s) :
    safe respond allowed inv (Pure.pure value : Task Failure Answer α).run post s := ⟨here,holds⟩

theorem safe_throw {failure : Failure} (here : inv s) (holds : post (.error failure) s) :
    safe respond allowed inv (MonadExcept.throw failure : Task Failure Answer α).run post s := ⟨here,holds⟩

theorem safe_bind {task : Task Failure Answer β} {rest : β → Task Failure Answer α}
    (holds : safe respond allowed inv task.run
      (fun result s =>
        match result with
        | .ok value => safe respond allowed inv (rest value).run post s
        | .error failure => post (.error failure) s) s) :
    safe respond allowed inv (task >>= rest).run post s := by
  apply Exclusive.safe_bind
  refine safe_mono ?_ holds
  intro result t here after
  cases result with
  | ok value => exact after
  | error failure => exact ⟨here,after⟩

theorem safe_ask {request : Request} {post : Except Failure (Answer request) → State → Prop} (here : inv s)
    (holds : ∀ input, allowed s request input → inv (respond s request input).1 ∧ post (.ok (respond s request input).2) (respond s request input).1) :
    safe respond allowed inv (Task.ask request : Task Failure Answer (Answer request)).run post s := ⟨here,holds⟩

theorem safe_tryCatch {task : Task Failure Answer α} {handle : Failure → Task Failure Answer α}
    (holds : safe respond allowed inv task.run
      (fun result s =>
        match result with
        | .ok value => post (.ok value) s
        | .error failure => safe respond allowed inv (handle failure).run post s) s) :
    safe respond allowed inv (MonadExcept.tryCatch task handle).run post s := by
  apply Exclusive.safe_bind
  refine safe_mono ?_ holds
  intro result t here after
  cases result with
  | ok value => exact ⟨here,after⟩
  | error failure => exact after

theorem safe_attempt {task : Task Failure Answer α} {post : Except Failure (Except Failure α) → State → Prop}
    (holds : safe respond allowed inv task.run (fun result s => post (.ok result) s) s) :
    safe respond allowed inv task.attempt.run post s := by
  apply Exclusive.safe_bind
  exact safe_mono (fun result t here after => ⟨here,after⟩) holds

end Task

end

/-! ### Runs of calls -/

structure Call {Request : Type} (Answer : Request → Type) (State Tag Result : Type) where
  tag : Tag
  began : State
  program : Program Answer Result

structure World {Request : Type} (Answer : Request → Type) (State Tag Result : Type) where
  state : State
  call : Option (Call Answer State Tag Result)

inductive Action (Input Tag : Type) where
  | begin (tag : Tag)
  | answer (input : Input)
  /-- The call ends, or is given up. -/
  | leave

section
variable (respond : State → (request : Request) → Input → State × Answer request) (allowed : Tag → State → Request → Input → Prop)
  (api : Tag → Program Answer Result)

namespace World

def quiet (state : State) : World Answer State Tag Result := ⟨state,none⟩

def step (w : World Answer State Tag Result) : Action Input Tag → World Answer State Tag Result
  | .begin tag => { w with call := some ⟨tag,w.state,api tag⟩ }
  | .answer input =>
    match w.call with
    | some ⟨tag,began,.ask request next⟩ => ⟨(respond w.state request input).1,some ⟨tag,began,next (respond w.state request input).2⟩⟩
    | _ => w
  | .leave => { w with call := none }

def enabled (w : World Answer State Tag Result) : Action Input Tag → Prop
  | .begin _ => w.call.isNone = true
  | .answer input =>
    match w.call with
    | some ⟨tag,_,.ask request _⟩ => allowed tag w.state request input
    | _ => False
  | .leave => True

instance [∀ tag s request input, Decidable (allowed tag s request input)] (w : World Answer State Tag Result) (action : Action Input Tag) :
    Decidable (w.enabled allowed action) :=
  match w,action with
  | _,.begin _ => inferInstanceAs (Decidable (_ = true))
  | ⟨state,some ⟨tag,_,.ask request _⟩⟩,.answer input => inferInstanceAs (Decidable (allowed tag state request input))
  | ⟨_,some ⟨_,_,.done _⟩⟩,.answer _ => isFalse id
  | ⟨_,none⟩,.answer _ => isFalse id
  | _,.leave => isTrue trivial

end World

abbrev Runs : World Answer State Tag Result → World Answer State Tag Result → Prop :=
  Runs.Run (fun w action => w.step respond api action) (fun w action => w.enabled allowed action)

/-- The invariant holds, and the call under way keeps to its rules. -/
def Keeps (inv : State → Prop) (post : Tag → State → Result → State → Prop) (w : World Answer State Tag Result) : Prop :=
  inv w.state ∧ ∀ call, w.call = some call → safe respond (allowed call.tag) inv call.program (post call.tag call.began) w.state

end

section
variable {respond : State → (request : Request) → Input → State × Answer request} {allowed : Tag → State → Request → Input → Prop}
  {api : Tag → Program Answer Result} {inv : State → Prop} {post : Tag → State → Result → State → Prop}

theorem Keeps.step (starts : ∀ tag s, inv s → safe respond (allowed tag) inv (api tag) (post tag s) s) (w : World Answer State Tag Result)
    (action : Action Input Tag) (may : w.enabled allowed action) (keeps : Keeps respond allowed inv post w) :
    Keeps respond allowed inv post (w.step respond api action) := by
  cases action with
  | begin tag =>
    refine ⟨keeps.1,?_⟩
    rintro call ⟨⟩
    exact starts tag w.state keeps.1
  | answer input =>
    obtain ⟨state,call⟩ := w
    match call with
    | some ⟨tag,began,.ask request next⟩ =>
      have goes := (keeps.2 _ rfl).2 input may
      refine ⟨safe_inv goes,?_⟩
      rintro call ⟨⟩
      exact goes
    | some ⟨tag,began,.done result⟩ => exact keeps
    | none => exact keeps
  | leave =>
    refine ⟨keeps.1,?_⟩
    rintro call ⟨⟩

/-- In every run the invariant holds throughout, and every call that has come to its end
    meets its postcondition there. -/
theorem Keeps.run (starts : ∀ tag s, inv s → safe respond (allowed tag) inv (api tag) (post tag s) s) {s : State} (here : inv s)
    {w : World Answer State Tag Result} (run : Runs respond allowed api (World.quiet s) w) : Keeps respond allowed inv post w := by
  refine run.invariant (fun w action may holds => Keeps.step starts w action may holds) ⟨here,?_⟩
  rintro call ⟨⟩

theorem Keeps.ended {w : World Answer State Tag Result} (keeps : Keeps respond allowed inv post w) {tag : Tag} {began : State} {result : Result}
    (ended : w.call = some ⟨tag,began,.done result⟩) : post tag began result w.state := (keeps.2 _ ended).2

end
end CodexMultiAuth.Exclusive
