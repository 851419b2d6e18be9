import CodexMultiAuth.Runs

/-!
Programs that share one file under an exclusive lock. A program is a tree of the
operations it awaits, each with a continuation for every way it may settle. Any
number of calls run interleaved in processes that may crash, and the lock is
free again after its holder is gone.

Rules say what a call may ask for and write, given what it has seen since it took
the lock and what the file holds. A weakest precondition reduces them to one
program at a time; in a system of programs that keep the rules every step does.
-/
namespace CodexMultiAuth.LockedFile

open Option

/-- A program over a file, a memory that the calls of a process share, and requests to
    the outside. An operation may settle as a rejection. -/
inductive Program (File Memory Request Answer α : Type) where
  | done (result : α)
  /-- Reads the file, which may be absent. -/
  | load (next : Option (Option File) → Program File Memory Request Answer α)
  | store (contents : File) (next : Bool → Program File Memory Request Answer α)
  | ask (request : Request) (next : Option Answer → Program File Memory Request Answer α)
  /-- Changes the memory without an await and goes on with what it was. -/
  | update (change : Memory → Memory) (next : Memory → Program File Memory Request Answer α)
  | acquire (next : Bool → Program File Memory Request Answer α)
  | release (next : Bool → Program File Memory Request Answer α)

variable {File Memory Request Answer Tag α β : Type}

namespace Program

def bind : Program File Memory Request Answer α → (α → Program File Memory Request Answer β) → Program File Memory Request Answer β
  | .done result,rest => rest result
  | .load next,rest => .load (fun answer => (next answer).bind rest)
  | .store contents next,rest => .store contents (fun resolved => (next resolved).bind rest)
  | .ask request next,rest => .ask request (fun answer => (next answer).bind rest)
  | .update change next,rest => .update change (fun memory => (next memory).bind rest)
  | .acquire next,rest => .acquire (fun resolved => (next resolved).bind rest)
  | .release next,rest => .release (fun resolved => (next resolved).bind rest)

theorem bind_done (program : Program File Memory Request Answer α) : program.bind .done = program := by
  induction program with
  | done result => rfl
  | load next ih | store contents next ih | ask request next ih | update change next ih | acquire next ih | release next ih =>
    simp only [bind,ih]

end Program

/-- A program that may throw. -/
def Await (File Memory Request Answer α : Type) : Type := Program File Memory Request Answer (Option α)

namespace Await

def throw : Await File Memory Request Answer α := .done none

/-- Throws where there is no value. -/
def orThrow (value : Option α) : Await File Memory Request Answer α := .done value

instance : Monad (Await File Memory Request Answer) where
  pure value := .done (some value)
  bind program rest :=
    Program.bind program (fun result =>
      match result with
      | none => .done none
      | some value => rest value)

/-- The result, or nothing where it throws. -/
def attempt (program : Await File Memory Request Answer α) : Await File Memory Request Answer (Option α) :=
  Program.bind program (fun result => .done (some result))

/-- Cleans up whether it throws or not. -/
def ensure (program : Await File Memory Request Answer α) (cleanup : Await File Memory Request Answer Unit) : Await File Memory Request Answer α :=
  Program.bind program (fun result =>
    Program.bind cleanup (fun cleaned =>
      match cleaned with
      | none => .done none
      | some _ => .done result))

def load : Await File Memory Request Answer (Option File) := Program.load .done

def store (contents : File) : Await File Memory Request Answer Unit := Program.store contents (fun resolved => .done (if resolved then some () else none))

def ask (request : Request) : Await File Memory Request Answer Answer := Program.ask request .done

def update (change : Memory → Memory) : Await File Memory Request Answer Memory := Program.update change (fun memory => .done (some memory))

/-- Runs the program under the lock, which is given back whatever happens. -/
def withLock (program : Await File Memory Request Answer α) : Await File Memory Request Answer α :=
  .acquire (fun acquired =>
    if acquired then
      Program.bind program (fun result => .release (fun released => .done (if released then result else none)))
    else .done none)

def forget (program : Await File Memory Request Answer α) : Program File Memory Request Answer Unit := Program.bind program (fun _ => .done ())

end Await

/-! ### The system -/

/-- What a call has seen since it took the lock. -/
inductive Event (File Request Answer : Type) where
  | loaded (file : Option File)
  | stored (contents : File)
  | asked (request : Request) (answer : Option Answer)

/-- A call under way; it waits once it has asked. -/
structure Running (File Memory Request Answer Tag : Type) where
  process : Nat
  tag : Tag
  hold : List (Event File Request Answer)
  waiting : Bool
  program : Program File Memory Request Answer Unit

structure World (File Memory Request Answer Tag : Type) where
  file : Option File
  holder : Option Nat
  memory : Nat → Memory
  running : Nat → Option (Running File Memory Request Answer Tag)

/-- How an operation settles; a write that is lost has been made and rejects all the same. -/
inductive Reply (Answer : Type) where
  | resolved
  | rejected
  | lost
  | answered (answer : Answer)

inductive Action (Answer Tag : Type) where
  | start (call process : Nat) (tag : Tag)
  /-- Sends the request that a call has come to. -/
  | issue (call : Nat)
  | settle (call : Nat) (reply : Reply Answer)
  | finish (call : Nat)
  | crash (process : Nat)

namespace World
variable (w : World File Memory Request Answer Tag)

def put (call : Nat) (r : Running File Memory Request Answer Tag) : World File Memory Request Answer Tag :=
  { w with running := fun other => if other = call then some r else w.running other }

/-- The world after an operation of a call has settled, where it can settle so. -/
def settled (call : Nat) (r : Running File Memory Request Answer Tag) (reply : Reply Answer) :
    Option (World File Memory Request Answer Tag) :=
  match r.program,reply with
  | .load next,.resolved => some (w.put call { r with hold := r.hold ++ [.loaded w.file],program := next (some w.file) })
  | .load next,.rejected => some (w.put call { r with program := next none })
  | .store contents next,.resolved =>
    some (({ w with file := some contents } : World File Memory Request Answer Tag).put call
      { r with hold := r.hold ++ [.stored contents],program := next true })
  | .store contents next,.lost =>
    some (({ w with file := some contents } : World File Memory Request Answer Tag).put call
      { r with hold := r.hold ++ [.stored contents],program := next false })
  | .store _ next,.rejected => some (w.put call { r with program := next false })
  | .ask request next,.answered answer =>
    if r.waiting then
      some (w.put call { r with hold := r.hold ++ [.asked request (some answer)],waiting := false,program := next (some answer) })
    else none
  | .ask request next,.rejected =>
    if r.waiting then some (w.put call { r with hold := r.hold ++ [.asked request none],waiting := false,program := next none })
    else none
  | .update change next,.resolved =>
    some (({ w with memory := fun other => if other = r.process then change (w.memory other) else w.memory other } :
      World File Memory Request Answer Tag).put call { r with program := next (w.memory r.process) })
  | .acquire next,.resolved =>
    if w.holder.isNone then some (({ w with holder := some call } : World File Memory Request Answer Tag).put call { r with hold := [],program := next true }) else none
  | .acquire next,.rejected => some (w.put call { r with program := next false })
  | .release next,.resolved =>
    some (({ w with holder := if w.holder = some call then none else w.holder } : World File Memory Request Answer Tag).put call { r with program := next true })
  | .release next,.rejected =>
    some (({ w with holder := if w.holder = some call then none else w.holder } : World File Memory Request Answer Tag).put call { r with program := next false })
  | _,_ => none

/-- The request that a call has come to and not sent yet. -/
def toIssue (r : Running File Memory Request Answer Tag) : Option Request :=
  match r.program with
  | .ask request _ => if r.waiting then none else some request
  | _ => none

variable (api : Tag → Program File Memory Request Answer Unit) (fresh : Memory)

def act : Action Answer Tag → Option (World File Memory Request Answer Tag)
  | .start call process tag => if (w.running call).isNone then some (w.put call ⟨process,tag,[],false,api tag⟩) else none
  | .issue call => (w.running call).bind (fun r => (toIssue r).map (fun _ => w.put call { r with waiting := true }))
  | .settle call reply => (w.running call).bind (fun r => w.settled call r reply)
  | .finish call =>
    (w.running call).bind (fun r =>
      match r.program with
      | .done _ => some { w with running := fun other => if other = call then none else w.running other }
      | _ => none)
  | .crash process =>
    some
      { w with
        holder := w.holder.filter (fun call => (w.running call).any (fun r => decide (r.process ≠ process)))
        memory := fun other => if other = process then fresh else w.memory other
        running := fun call => (w.running call).filter (fun r => decide (r.process ≠ process)) }

def enabled (action : Action Answer Tag) : Prop := (w.act api fresh action).isSome = true

def step (action : Action Answer Tag) : World File Memory Request Answer Tag := (w.act api fresh action).getD w

instance (action : Action Answer Tag) : Decidable (w.enabled api fresh action) := inferInstanceAs (Decidable (_ = true))

end World

/-- A file that nobody works on. -/
def World.quiet (file : Option File) (fresh : Memory) : World File Memory Request Answer Tag := ⟨file,none,fun _ => fresh,fun _ => none⟩

/-- Under the lock, what the call has seen and what the file holds. -/
structure Held (File Request Answer : Type) where
  hold : List (Event File Request Answer)
  file : Option File

structure Rules (File Request Answer Tag : Type) where
  /-- What a call may ask for under the lock. -/
  mayAsk : Tag → Held File Request Answer → Request → Prop
  /-- What may be asked for without the lock. -/
  free : Request → Prop
  /-- What a call may write, which it does under the lock only. -/
  mayStore : Tag → Held File Request Answer → File → Prop

/-- The call may go on by the rules, and where it ends the postcondition holds. -/
def wp (rules : Rules File Request Answer Tag) (tag : Tag) :
    Program File Memory Request Answer α → (Option (Held File Request Answer) → α → Prop) → Option (Held File Request Answer) → Prop
  | .done result,post,mode => post mode result
  | .load next,post,none => ∀ answer, wp rules tag (next answer) post none
  | .load next,post,some held =>
    wp rules tag (next (some held.file)) post (some ⟨held.hold ++ [.loaded held.file],held.file⟩) ∧ wp rules tag (next none) post (some held)
  | .store _ _,_,none => False
  | .store contents next,post,some held =>
    rules.mayStore tag held contents ∧
      (∀ resolved, wp rules tag (next resolved) post (some ⟨held.hold ++ [.stored contents],some contents⟩)) ∧
      wp rules tag (next false) post (some held)
  | .ask request next,post,none => rules.free request ∧ ∀ answer, wp rules tag (next answer) post none
  | .ask request next,post,some held =>
    rules.mayAsk tag held request ∧ ∀ answer, wp rules tag (next answer) post (some ⟨held.hold ++ [.asked request answer],held.file⟩)
  | .update _ next,post,mode => ∀ memory, wp rules tag (next memory) post mode
  | .acquire next,post,none => (∀ file, wp rules tag (next true) post (some ⟨[],file⟩)) ∧ wp rules tag (next false) post none
  | .acquire _,_,some _ => False
  | .release _,_,none => False
  | .release next,post,some _ => ∀ resolved, wp rules tag (next resolved) post none

section
variable {rules : Rules File Request Answer Tag} {tag : Tag}
variable {program : Program File Memory Request Answer α}

theorem wp_bind {rest : α → Program File Memory Request Answer β}
    {post : Option (Held File Request Answer) → α → Prop} {final : Option (Held File Request Answer) → β → Prop}
    (onwards : ∀ mode value, post mode value → wp rules tag (rest value) final mode) {mode : Option (Held File Request Answer)}
    (holds : wp rules tag program post mode) : wp rules tag (program.bind rest) final mode := by
  induction program generalizing mode with
  | done result => exact onwards mode result holds
  | load next ih =>
    cases mode with
    | none => exact fun answer => ih answer (holds answer)
    | some held => exact ⟨ih _ holds.1,ih _ holds.2⟩
  | store contents next ih =>
    cases mode with
    | none => exact holds
    | some held => exact ⟨holds.1,fun resolved => ih resolved (holds.2.1 resolved),ih false holds.2.2⟩
  | ask request next ih =>
    cases mode with
    | none => exact ⟨holds.1,fun answer => ih answer (holds.2 answer)⟩
    | some held => exact ⟨holds.1,fun answer => ih answer (holds.2 answer)⟩
  | update change next ih =>
    rw [wp] at holds
    rw [Program.bind,wp]
    exact fun memory => ih memory (holds memory)
  | acquire next ih =>
    cases mode with
    | none => exact ⟨fun file => ih true (holds.1 file),ih false holds.2⟩
    | some held => exact holds
  | release next ih =>
    cases mode with
    | none => exact holds
    | some held => exact fun resolved => ih resolved (holds resolved)

theorem wp_mono {post weaker : Option (Held File Request Answer) → α → Prop}
    (implies : ∀ mode value, post mode value → weaker mode value) {mode : Option (Held File Request Answer)} (holds : wp rules tag program post mode) :
    wp rules tag program weaker mode := by
  rw [← program.bind_done]
  exact wp_bind implies holds

/-! ### Awaits by the rules -/

/-- Without the lock the program keeps the rules, and ends without it. -/
def Outside (rules : Rules File Request Answer Tag) (tag : Tag) (program : Await File Memory Request Answer α) : Prop :=
  wp rules tag program (fun mode _ => mode = none) none

/-- Under the lock the program keeps the rules and the lock, and where it returns the
    postcondition holds. -/
def Under (rules : Rules File Request Answer Tag) (tag : Tag) (program : Await File Memory Request Answer α)
    (post : Held File Request Answer → α → Prop) (held : Held File Request Answer) : Prop :=
  wp rules tag program (fun mode result => ∃ after, mode = some after ∧ ∀ value, result = some value → post after value) (some held)

variable {program : Await File Memory Request Answer α} {rest : α → Await File Memory Request Answer β}
  {post weaker : Held File Request Answer → α → Prop} {held : Held File Request Answer}

namespace Under

theorem pure {value : α} (holds : post held value) : Under rules tag (Pure.pure value : Await File Memory Request Answer α) post held := by
  refine ⟨held,rfl,?_⟩
  intro other same
  cases same
  exact holds

theorem throw : Under rules tag (Await.throw : Await File Memory Request Answer α) post held := ⟨held,rfl,fun _ none => nomatch none⟩

theorem orThrow {value : Option α} (holds : ∀ here, value = some here → post held here) :
    Under rules tag (Await.orThrow value : Await File Memory Request Answer α) post held := ⟨held,rfl,holds⟩

theorem bind {post : Held File Request Answer → β → Prop}
    (holds : Under rules tag program (fun after value => Under rules tag (rest value) post after) held) :
    Under rules tag (program >>= rest) post held := by
  refine wp_bind ?_ holds
  rintro mode result ⟨after,rfl,returned⟩
  cases result with
  | none => exact ⟨after,rfl,fun _ none => nomatch none⟩
  | some value => exact returned value rfl

theorem mono (holds : Under rules tag program post held) (implies : ∀ after value, post after value → weaker after value) :
    Under rules tag program weaker held := by
  refine wp_mono ?_ holds
  rintro mode result ⟨after,rfl,returned⟩
  exact ⟨after,rfl,fun value same => implies after value (returned value same)⟩

theorem attempt {post : Held File Request Answer → Option α → Prop}
    (holds : wp rules tag program (fun mode result => ∃ after, mode = some after ∧ post after result) (some held)) :
    Under rules tag program.attempt post held := by
  refine wp_bind ?_ holds
  rintro mode result ⟨after,rfl,settled⟩
  refine ⟨after,rfl,?_⟩
  intro value same
  cases same
  exact settled

theorem ensure {cleanup : Await File Memory Request Answer Unit} (holds : Under rules tag program (fun _ _ => True) held)
    (cleans : ∀ after, Under rules tag cleanup (fun _ _ => True) after) : Under rules tag (program.ensure cleanup) (fun _ _ => True) held := by
  refine wp_bind ?_ holds
  rintro mode result ⟨after,rfl,-⟩
  refine wp_bind ?_ (cleans after)
  rintro mode cleaned ⟨last,rfl,-⟩
  cases cleaned with
  | none => exact ⟨last,rfl,fun _ _ => trivial⟩
  | some _ => exact ⟨last,rfl,fun _ _ => trivial⟩

theorem load {post : Held File Request Answer → Option File → Prop} (holds : post ⟨held.hold ++ [.loaded held.file],held.file⟩ held.file) :
    Under rules tag (Await.load : Await File Memory Request Answer (Option File)) post held := by
  refine ⟨⟨_,rfl,?_⟩,⟨_,rfl,fun _ none => nomatch none⟩⟩
  intro value same
  cases same
  exact holds

theorem store {contents : File} {post : Held File Request Answer → Unit → Prop} (may : rules.mayStore tag held contents)
    (holds : post ⟨held.hold ++ [.stored contents],some contents⟩ ()) :
    Under rules tag (Await.store contents : Await File Memory Request Answer Unit) post held := by
  refine ⟨may,?_,⟨_,rfl,fun _ none => nomatch none⟩⟩
  intro resolved
  refine ⟨_,rfl,?_⟩
  intro _ _
  exact holds

theorem ask {request : Request} {post : Held File Request Answer → Answer → Prop} (may : rules.mayAsk tag held request)
    (holds : ∀ answer, post ⟨held.hold ++ [.asked request (some answer)],held.file⟩ answer) :
    Under rules tag (Await.ask request : Await File Memory Request Answer Answer) post held := by
  refine ⟨may,?_⟩
  intro answer
  refine ⟨_,rfl,?_⟩
  intro value same
  cases same
  exact holds value

end Under

namespace Outside

theorem pure {value : α} : Outside rules tag (Pure.pure value : Await File Memory Request Answer α) := rfl

theorem throw : Outside rules tag (Await.throw : Await File Memory Request Answer α) := rfl

theorem orThrow {value : Option α} : Outside rules tag (Await.orThrow value : Await File Memory Request Answer α) := rfl

theorem bind (first : Outside rules tag program) (later : ∀ value, Outside rules tag (rest value)) : Outside rules tag (program >>= rest) := by
  refine wp_bind ?_ first
  rintro mode result rfl
  cases result with
  | none => rfl
  | some value => exact later value

theorem attempt (holds : Outside rules tag program) : Outside rules tag program.attempt :=
  wp_bind (fun _ _ same => same) holds

theorem ensure {cleanup : Await File Memory Request Answer Unit} (holds : Outside rules tag program) (cleans : Outside rules tag cleanup) :
    Outside rules tag (program.ensure cleanup) := by
  refine wp_bind ?_ holds
  rintro mode result rfl
  refine wp_bind ?_ cleans
  rintro mode cleaned rfl
  cases cleaned <;> rfl

theorem load : Outside rules tag (Await.load : Await File Memory Request Answer (Option File)) := fun _ => rfl

theorem ask {request : Request} (free : rules.free request) : Outside rules tag (Await.ask request : Await File Memory Request Answer Answer) :=
  ⟨free,fun _ => rfl⟩

theorem update {change : Memory → Memory} : Outside rules tag (Await.update change : Await File Memory Request Answer Memory) := fun _ => rfl

theorem forget (holds : Outside rules tag program) : wp rules tag program.forget (fun mode _ => mode = none) none :=
  wp_bind (fun _ _ same => same) holds

theorem withLock (holds : ∀ file, Under rules tag program (fun _ _ => True) ⟨[],file⟩) : Outside rules tag program.withLock := by
  refine ⟨?_,rfl⟩
  intro file
  refine wp_bind ?_ (holds file)
  rintro mode result ⟨after,rfl,-⟩
  exact fun _ => rfl

end Outside

end

/-! ### Every step keeps the rules -/

section
variable {rules : Rules File Request Answer Tag}

/-- The lock and the file as a call has them. -/
def World.mode (w : World File Memory Request Answer Tag) (call : Nat) (r : Running File Memory Request Answer Tag) : Option (Held File Request Answer) :=
  if w.holder = some call then some ⟨r.hold,w.file⟩ else none

/-- Every call goes on by the rules, and one that has the lock is under way. -/
structure Secure (rules : Rules File Request Answer Tag) (w : World File Memory Request Answer Tag) : Prop where
  goes : ∀ call r, w.running call = some r → wp rules r.tag r.program (fun mode _ => mode = none) (w.mode call r)
  owned : ∀ call, w.holder = some call → (w.running call).isSome

variable {w : World File Memory Request Answer Tag} {call : Nat} {r : Running File Memory Request Answer Tag}

theorem World.mode_held (held : w.holder = some call) : w.mode call r = some ⟨r.hold,w.file⟩ := if_pos held

theorem World.mode_free (free : w.holder ≠ some call) : w.mode call r = none := if_neg free

theorem Secure.asks (secure : Secure rules w) (under : w.running call = some r) {request : Request} (comes : World.toIssue r = some request) :
    (w.holder = some call → rules.mayAsk r.tag ⟨r.hold,w.file⟩ request) ∧ (w.holder ≠ some call → rules.free request) := by
  have goes := secure.goes call r under
  unfold World.toIssue at comes
  split at comes
  · next asked next here =>
    split at comes
    · cases comes
    · cases comes
      rw [here] at goes
      refine ⟨?_,?_⟩
      · intro held
        rw [World.mode_held held] at goes
        exact goes.1
      · intro free
        rw [World.mode_free free] at goes
        exact goes.1
  · cases comes

variable {after : World File Memory Request Answer Tag}

theorem Secure.put (secure : Secure rules w) {r' : Running File Memory Request Answer Tag}
    (running : ∀ other, after.running other = if other = call then some r' else w.running other)
    (holder : ∀ other, after.holder = some other → other = call ∨ w.holder = some other)
    (others : ∀ other r, other ≠ call → after.mode other r = w.mode other r)
    (goes : wp rules r'.tag r'.program (fun mode _ => mode = none) (after.mode call r')) : Secure rules after := by
  refine ⟨?_,?_⟩
  · intro other r under
    rw [running] at under
    split at under
    · next same =>
      cases under
      rw [same]
      exact goes
    · next apart =>
      rw [others other r apart]
      exact secure.goes other r under
  · intro other held
    rw [running]
    split
    · rfl
    · next apart => exact secure.owned other ((holder other held).resolve_left apart)

theorem World.put_holder (r' : Running File Memory Request Answer Tag) : (w.put call r').holder = w.holder := rfl

theorem World.mode_put (r' : Running File Memory Request Answer Tag) (other : Nat) (s : Running File Memory Request Answer Tag) :
    (w.put call r').mode other s = w.mode other s := rfl

theorem Secure.goes_on (secure : Secure rules w) {r' : Running File Memory Request Answer Tag}
    (goes : wp rules r'.tag r'.program (fun mode _ => mode = none) (if w.holder = some call then some ⟨r'.hold,w.file⟩ else none)) :
    Secure rules (w.put call r') :=
  secure.put (fun _ => rfl) (fun _ held => Or.inr held) (fun _ _ _ => rfl) goes

theorem load_secure (secure : Secure rules w) (under : w.running call = some r) {next : Option (Option File) → Program File Memory Request Answer Unit}
    (here : r.program = .load next) :
    Secure rules (w.put call { r with hold := r.hold ++ [.loaded w.file],program := next (some w.file) }) ∧
      Secure rules (w.put call { r with program := next none }) := by
  have goes := secure.goes call r under
  rw [here] at goes
  by_cases held : w.holder = some call
  · rw [World.mode_held held] at goes
    exact ⟨secure.goes_on (by rw [if_pos held]; exact goes.1),secure.goes_on (by rw [if_pos held]; exact goes.2)⟩
  · rw [World.mode_free held] at goes
    exact ⟨secure.goes_on (by rw [if_neg held]; exact goes _),secure.goes_on (by rw [if_neg held]; exact goes none)⟩

variable {next : Bool → Program File Memory Request Answer Unit}

theorem store_secure (secure : Secure rules w) (under : w.running call = some r) {contents : File}
    (here : r.program = .store contents next) :
    (∀ resolved, Secure rules (({ w with file := some contents } : World File Memory Request Answer Tag).put call
        { r with hold := r.hold ++ [.stored contents],program := next resolved })) ∧
      Secure rules (w.put call { r with program := next false }) ∧
      w.holder = some call ∧ rules.mayStore r.tag ⟨r.hold,w.file⟩ contents := by
  have goes := secure.goes call r under
  rw [here] at goes
  by_cases held : w.holder = some call
  · rw [World.mode_held held] at goes
    refine ⟨?_,secure.goes_on (by rw [if_pos held]; exact goes.2.2),held,goes.1⟩
    intro resolved
    refine secure.put (fun _ => rfl) (fun _ held => Or.inr held) ?_ ?_
    · intro other s apart
      have free : w.holder ≠ some other := by
        rw [held]
        exact fun same => apart (Option.some.inj same).symm
      rw [World.mode_free free]
      exact if_neg free
    · have mine : ({ w with file := some contents } : World File Memory Request Answer Tag).mode call
          { r with hold := r.hold ++ [.stored contents],program := next resolved } = some ⟨r.hold ++ [.stored contents],some contents⟩ :=
        World.mode_held held
      rw [World.mode_put,mine]
      exact goes.2.1 resolved
  · rw [World.mode_free held] at goes
    exact goes.elim

theorem ask_secure (secure : Secure rules w) (under : w.running call = some r) {request : Request}
    {next : Option Answer → Program File Memory Request Answer Unit} (here : r.program = .ask request next) (answer : Option Answer) :
    Secure rules (w.put call { r with hold := r.hold ++ [.asked request answer],waiting := false,program := next answer }) := by
  have goes := secure.goes call r under
  rw [here] at goes
  refine secure.goes_on ?_
  by_cases held : w.holder = some call
  · rw [World.mode_held held] at goes
    rw [if_pos held]
    exact goes.2 answer
  · rw [World.mode_free held] at goes
    rw [if_neg held]
    exact goes.2 answer

theorem acquire_secure (secure : Secure rules w) (under : w.running call = some r)
    (here : r.program = .acquire next) :
    (w.holder = none → Secure rules (({ w with holder := some call } : World File Memory Request Answer Tag).put call { r with hold := [],program := next true })) ∧
      Secure rules (w.put call { r with program := next false }) := by
  have goes := secure.goes call r under
  rw [here] at goes
  by_cases held : w.holder = some call
  · rw [World.mode_held held] at goes
    exact goes.elim
  · rw [World.mode_free held] at goes
    refine ⟨?_,secure.goes_on (by rw [if_neg held]; exact goes.2)⟩
    intro nobody
    refine secure.put (fun _ => rfl) ?_ ?_ ?_
    · intro other mine
      exact Or.inl (Option.some.inj mine).symm
    · intro other s apart
      rw [World.mode_free (w := w) (by rw [nobody]; exact fun none => nomatch none)]
      exact if_neg (fun same => apart (Option.some.inj same).symm)
    · have mine : (({ w with holder := some call } : World File Memory Request Answer Tag).put call { r with hold := [],program := next true }).mode call
          { r with hold := [],program := next true } = some ⟨[],w.file⟩ := if_pos rfl
      rw [mine]
      exact goes.1 w.file

theorem release_secure (secure : Secure rules w) (under : w.running call = some r)
    (here : r.program = .release next) (released : Bool) :
    Secure rules (({ w with holder := if w.holder = some call then none else w.holder } : World File Memory Request Answer Tag).put call
      { r with program := next released }) := by
  have goes := secure.goes call r under
  rw [here] at goes
  by_cases held : w.holder = some call
  · rw [World.mode_held held] at goes
    refine secure.put (fun _ => rfl) ?_ ?_ ?_
    · intro other still
      rw [World.put_holder,if_pos held] at still
      cases still
    · intro other s apart
      have free : w.holder ≠ some other := by
        rw [held]
        exact fun same => apart (Option.some.inj same).symm
      rw [World.mode_free free,World.mode_put]
      exact World.mode_free (by simp [held])
    · have mine : (({ w with holder := if w.holder = some call then none else w.holder } : World File Memory Request Answer Tag).put call
          { r with program := next released }).mode call { r with program := next released } = none := by
        rw [World.mode_put]
        exact World.mode_free (by simp [held])
      rw [mine]
      exact goes released
  · rw [World.mode_free held] at goes
    exact goes.elim

/-- A file that changes is written by the holder of the lock, as it may. -/
structure Writes (rules : Rules File Request Answer Tag) (w after : World File Memory Request Answer Tag) (call : Nat)
    (r : Running File Memory Request Answer Tag) : Prop where
  held : w.holder = some call
  may : ∃ contents, after.file = some contents ∧ rules.mayStore r.tag ⟨r.hold,w.file⟩ contents

theorem settled_secure (secure : Secure rules w) (under : w.running call = some r) {reply : Reply Answer}
    (settles : w.settled call r reply = some after) : Secure rules after ∧ (after.file = w.file ∨ Writes rules w after call r) := by
  unfold World.settled at settles
  split at settles
  · next next here =>
    cases settles
    exact ⟨(load_secure secure under here).1,Or.inl rfl⟩
  · next next here =>
    cases settles
    exact ⟨(load_secure secure under here).2,Or.inl rfl⟩
  · next contents next here =>
    cases settles
    obtain ⟨stored,_,held,may⟩ := store_secure secure under here
    exact ⟨stored true,Or.inr ⟨held,contents,rfl,may⟩⟩
  · next contents next here =>
    cases settles
    obtain ⟨stored,_,held,may⟩ := store_secure secure under here
    exact ⟨stored false,Or.inr ⟨held,contents,rfl,may⟩⟩
  · next contents next here =>
    cases settles
    exact ⟨(store_secure secure under here).2.1,Or.inl rfl⟩
  · next request next answer here =>
    split at settles
    · cases settles
      exact ⟨ask_secure secure under here (some answer),Or.inl rfl⟩
    · cases settles
  · next request next here =>
    split at settles
    · cases settles
      exact ⟨ask_secure secure under here none,Or.inl rfl⟩
    · cases settles
  · next change next here =>
    cases settles
    have goes := secure.goes call r under
    rw [here,wp] at goes
    exact ⟨secure.put (fun _ => rfl) (fun _ held => Or.inr held) (fun _ _ _ => rfl) (goes _),Or.inl rfl⟩
  · next next here =>
    split at settles
    · next nobody =>
      cases settles
      exact ⟨(acquire_secure secure under here).1 (isNone_iff_eq_none.mp nobody),Or.inl rfl⟩
    · cases settles
  · next next here =>
    cases settles
    exact ⟨(acquire_secure secure under here).2,Or.inl rfl⟩
  · next next here =>
    cases settles
    exact ⟨release_secure secure under here true,Or.inl rfl⟩
  · next next here =>
    cases settles
    exact ⟨release_secure secure under here false,Or.inl rfl⟩
  · cases settles

variable {api : Tag → Program File Memory Request Answer Unit} {fresh : Memory}

theorem act_secure (starts : ∀ tag, wp rules tag (api tag) (fun mode _ => mode = none) none)
    (secure : Secure rules w) {action : Action Answer Tag} (acts : w.act api fresh action = some after) :
    Secure rules after ∧ (after.file = w.file ∨ ∃ call r, w.running call = some r ∧ Writes rules w after call r) := by
  cases action with
  | start call process tag =>
    rw [World.act] at acts
    split at acts
    · next vacant =>
      cases acts
      refine ⟨secure.goes_on ?_,Or.inl rfl⟩
      rw [if_neg]
      · exact starts tag
      · intro held
        have taken := secure.owned call held
        rw [isNone_iff_eq_none.mp vacant] at taken
        cases taken
    · cases acts
  | issue call =>
    rw [World.act,bind_eq_some_iff] at acts
    obtain ⟨r,under,rest⟩ := acts
    rw [map_eq_some_iff] at rest
    obtain ⟨_,_,here⟩ := rest
    subst here
    exact ⟨secure.goes_on (secure.goes call r under),Or.inl rfl⟩
  | settle call reply =>
    rw [World.act,bind_eq_some_iff] at acts
    obtain ⟨r,under,settles⟩ := acts
    obtain ⟨kept,files⟩ := settled_secure secure under settles
    exact ⟨kept,files.imp_right (fun writes => ⟨call,r,under,writes⟩)⟩
  | finish call =>
    rw [World.act,bind_eq_some_iff] at acts
    obtain ⟨r,under,rest⟩ := acts
    split at rest
    · next result here =>
      cases rest
      refine ⟨⟨?_,?_⟩,Or.inl rfl⟩
      · intro other s running
        dsimp only at running
        split at running
        · cases running
        · exact secure.goes other s running
      · intro other (held : w.holder = some other)
        have goes := secure.goes call r under
        have apart : other ≠ call := by
          rintro rfl
          rw [here,World.mode_held held] at goes
          exact nomatch goes
        dsimp only
        rw [if_neg apart]
        exact secure.owned other held
    · cases rest
  | crash process =>
    cases acts
    refine ⟨⟨?_,?_⟩,Or.inl rfl⟩
    · intro other s running
      rw [filter_eq_some_iff] at running
      have goes := secure.goes other s running.1
      by_cases held : w.holder = some other
      · rw [World.mode_held held] at goes
        rw [World.mode_held]
        · exact goes
        · rw [filter_eq_some_iff]
          exact ⟨held,by rw [running.1]; exact running.2⟩
      · rw [World.mode_free held] at goes
        rw [World.mode_free]
        · exact goes
        · intro still
          exact held (filter_eq_some_iff.mp still).1
    · intro other still
      obtain ⟨held,alive⟩ := filter_eq_some_iff.mp still
      obtain ⟨r,under⟩ := isSome_iff_exists.mp (secure.owned other held)
      rw [under] at alive
      dsimp only
      rw [under,isSome_iff_exists]
      exact ⟨r,filter_eq_some_iff.mpr ⟨rfl,alive⟩⟩

theorem Secure.quiet {file : Option File} : Secure rules (World.quiet file fresh : World File Memory Request Answer Tag) :=
  ⟨fun _ _ absent => (nomatch absent),fun _ absent => (nomatch absent)⟩

/-- Steps of the system, one after another. -/
abbrev Runs (api : Tag → Program File Memory Request Answer Unit) (fresh : Memory) :
    World File Memory Request Answer Tag → World File Memory Request Answer Tag → Prop :=
  Runs.Run (fun w action => w.step api fresh action) (fun w action => w.enabled api fresh action)

theorem World.act_of_enabled {action : Action Answer Tag} (may : w.enabled api fresh action) : w.act api fresh action = some (w.step api fresh action) := by
  obtain ⟨after,acts⟩ := isSome_iff_exists.mp may
  rw [World.step,acts]
  rfl

theorem Secure.run (starts : ∀ tag, wp rules tag (api tag) (fun mode _ => mode = none) none)
    (run : Runs api fresh w after) (secure : Secure rules w) : Secure rules after :=
  run.invariant (fun _ _ may holds => (act_secure starts holds (World.act_of_enabled may)).1) secure

end
end CodexMultiAuth.LockedFile
