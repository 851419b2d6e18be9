import Mathlib.Logic.Relation
import Mathlib.Tactic.Common

/-!
Runs of a system that takes one action after another. An action may be taken
only where it is enabled; what every enabled action preserves holds throughout.
-/
namespace CodexMultiAuth.Runs
universe u v

variable {State : Type u} {Action : Type v} (step : State → Action → State) (enabled : State → Action → Prop)

/-- One action that is enabled. -/
def Next (s t : State) : Prop := ∃ action, enabled s action ∧ t = step s action

/-- Any number of actions, each enabled where it is taken. -/
def Run : State → State → Prop := Relation.ReflTransGen (Next step enabled)

variable {step enabled}

theorem Run.nil (s : State) : Run step enabled s s := Relation.ReflTransGen.refl

theorem Run.snoc {s t : State} (run : Run step enabled s t) {action : Action} (may : enabled t action) :
    Run step enabled s (step t action) :=
  Relation.ReflTransGen.tail run ⟨action,may,rfl⟩

variable {P : State → Prop}

theorem Run.invariant (preserved : ∀ s action, enabled s action → P s → P (step s action)) {s t : State}
    (run : Run step enabled s t) (holds : P s) : P t := by
  induction run with
  | refl => exact holds
  | tail _ next ih =>
    obtain ⟨action,may,rfl⟩ := next
    exact preserved _ action may ih

variable (step enabled) in
/-- Each action of the list is enabled where it is taken. -/
def Legal : State → List Action → Prop
  | _,[] => True
  | s,action :: rest => enabled s action ∧ Legal (step s action) rest

instance Legal.decidable [∀ s action, Decidable (enabled s action)] : (s : State) → (actions : List Action) →
    Decidable (Legal step enabled s actions)
  | _,[] => isTrue trivial
  | s,action :: rest =>
    haveI := Legal.decidable (step s action) rest
    inferInstanceAs (Decidable (enabled s action ∧ Legal step enabled (step s action) rest))

variable {careful : State → Action → Prop} {s : State} {actions : List Action}

theorem Legal.imp {right : State → Action → Prop} (implies : ∀ s action, enabled s action → right s action)
    (legal : Legal step enabled s actions) : Legal step right s actions := by
  induction actions generalizing s with
  | nil => trivial
  | cons action rest ih => exact ⟨implies s action legal.1,ih legal.2⟩

theorem Legal.congr (same : ∀ s action, enabled s action ↔ careful s action) :
    Legal step enabled s actions ↔ Legal step careful s actions :=
  ⟨.imp fun s action => (same s action).mp,.imp fun s action => (same s action).mpr⟩

theorem Legal.of_invariant {inv : State → Prop} {right : State → Action → Prop}
    (kept : ∀ s action, enabled s action → inv s → inv (step s action))
    (holds : ∀ s action, enabled s action → inv s → careful s action → right s action) (start : inv s)
    (legal : Legal step enabled s actions) (all : Legal step careful s actions) : Legal step right s actions := by
  induction actions generalizing s with
  | nil => trivial
  | cons action rest ih =>
    exact ⟨holds s action legal.1 start all.1,ih (kept s action legal.1 start) legal.2 all.2⟩

/-- Where careful actions keep an invariant under which they are just those that do right, the
    careful runs are those that do right throughout. -/
theorem legal_iff_legal {inv : State → Prop} {right careful : State → Action → Prop}
    (kept : ∀ s action, enabled s action → inv s → careful s action → inv (step s action))
    (holds : ∀ s action, enabled s action → inv s → careful s action → right s action)
    (exact_ : ∀ s action, enabled s action → inv s → right s action → careful s action) (start : inv s)
    (legal : Legal step enabled s actions) : Legal step right s actions ↔ Legal step careful s actions := by
  induction actions generalizing s with
  | nil => exact Iff.rfl
  | cons action rest ih =>
    constructor
    · intro rights
      have here := exact_ s action legal.1 start rights.1
      exact ⟨here,(ih (kept s action legal.1 start here) legal.2).mp rights.2⟩
    · intro all
      exact ⟨holds s action legal.1 start all.1,(ih (kept s action legal.1 start all.1) legal.2).mpr all.2⟩

theorem legal_append {first second : List Action} :
    Legal step enabled s (first ++ second) ↔ Legal step enabled s first ∧ Legal step enabled (first.foldl step s) second := by
  induction first generalizing s with
  | nil => exact (and_iff_right trivial).symm
  | cons action rest ih => exact (and_congr_right fun _ => ih).trans and_assoc.symm

theorem Legal.of_mem {P : Action → Prop} (all : ∀ action ∈ actions, P action) :
    Legal step (fun _ => P) s actions := by
  induction actions generalizing s with
  | nil => trivial
  | cons action rest ih =>
    obtain ⟨here,later⟩ := List.forall_mem_cons.mp all
    exact ⟨here,ih later⟩

theorem Legal.and {one other : State → Action → Prop} (first : Legal step one s actions)
    (second : Legal step other s actions) : Legal step (fun s action => one s action ∧ other s action) s actions := by
  induction actions generalizing s with
  | nil => trivial
  | cons action rest ih => exact ⟨⟨first.1,second.1⟩,ih first.2 second.2⟩

theorem Run.ofList {s t : State} (run : Run step enabled s t) (actions : List Action) (legal : Legal step enabled t actions) :
    Run step enabled s (actions.foldl step t) := by
  induction actions generalizing t with
  | nil => exact run
  | cons action rest ih => exact ih (run.snoc legal.1) legal.2

variable (step) in
/-- Holds before the first action and after each. -/
def Along (P : State → Prop) : State → List Action → Prop
  | s,[] => P s
  | s,action :: rest => P s ∧ Along P (step s action) rest

instance Along.decidable {P : State → Prop} [∀ s, Decidable (P s)] : (s : State) → (actions : List Action) → Decidable (Along step P s actions)
  | s,[] => inferInstanceAs (Decidable (P s))
  | s,action :: rest =>
    haveI := Along.decidable (P := P) (step s action) rest
    inferInstanceAs (Decidable (P s ∧ Along step P (step s action) rest))

theorem Along.last (along : Along step P s actions) : P (actions.foldl step s) := by
  induction actions generalizing s with
  | nil => exact along
  | cons action rest ih => exact ih along.2

theorem Along.head (along : Along step P s actions) : P s := by
  cases actions with
  | nil => exact along
  | cons action rest => exact along.1

/-- Where a careful action is exactly one that keeps a property, the property holds throughout just when every action is careful. -/
theorem along_iff_legal {P good : State → Prop} (holds : ∀ s, good s → P s)
    (kept : ∀ s action, enabled s action → good s → careful s action → good (step s action))
    (exact_ : ∀ s action, enabled s action → good s → P (step s action) → careful s action)
    (legal : Legal step enabled s actions) (start : good s) : Along step P s actions ↔ Legal step careful s actions := by
  induction actions generalizing s with
  | nil => exact ⟨fun _ => trivial,fun _ => holds s start⟩
  | cons action rest ih =>
    constructor
    · intro along
      have here := exact_ s action legal.1 start along.2.head
      exact ⟨here,(ih legal.2 (kept s action legal.1 start here)).mp along.2⟩
    · intro careful
      exact ⟨holds s start,(ih legal.2 (kept s action legal.1 start careful.1)).mpr careful.2⟩

end CodexMultiAuth.Runs
