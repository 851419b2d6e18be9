import Mathlib.Order.Basic

/-!
A pass over a list, repeated until it no longer shortens it. What a pass
preserves holds of the result, and the result is stable. A position is followed
through the passes by the slot that each pass puts its element into.
-/
namespace CodexMultiAuth.Passes
universe u

variable {α : Type u} (pass : List α → List α)

/-- Repeats the pass, at most so many times. -/
def untilStable : Nat → List α → List α
  | 0, current => current
  | fuel + 1, current =>
    if (pass current).length = current.length then pass current else untilStable fuel (pass current)

/-- The lists that the passes are given, in turn. -/
def inputs : Nat → List α → List (List α)
  | 0, _ => []
  | fuel + 1, current => current :: if (pass current).length = current.length then [] else inputs fuel (pass current)

variable {pass}
variable {fuel : Nat} {l : List α}

theorem untilStable_invariant {P : List α → Prop} (step : ∀ l, P l → P (pass l)) (holds : P l) :
    P (untilStable pass fuel l) := by
  induction fuel generalizing l with
  | zero => exact holds
  | succ fuel ih =>
    simp only [untilStable]
    split
    · exact step l holds
    · exact ih (step l holds)

/-- What a pass preserves of a list unless something is wrong with it holds of the result, or it is wrong with the list of some pass. -/
theorem untilStable_or {P Q : List α → Prop} (step : ∀ l, P l → P (pass l) ∨ Q l) (holds : P l) :
    P (untilStable pass fuel l) ∨ ∃ given ∈ inputs pass fuel l, Q given := by
  induction fuel generalizing l with
  | zero => exact .inl holds
  | succ fuel ih =>
    simp only [untilStable,inputs]
    rcases step l holds with kept | wrong
    · split
      · exact .inl kept
      · exact (ih kept).imp_right (fun ⟨given,member,wrong⟩ => ⟨given,List.mem_cons_of_mem _ member,wrong⟩)
    · exact .inr ⟨l,List.mem_cons_self,wrong⟩

section
variable (shrinks : ∀ l, (pass l).length ≤ l.length)
include shrinks

theorem untilStable_stable (enough : l.length < fuel) :
    ∃ last, untilStable pass fuel l = pass last ∧ (pass last).length = last.length := by
  induction fuel generalizing l with
  | zero => omega
  | succ fuel ih =>
    simp only [untilStable]
    split
    · rename_i stable; exact ⟨l,rfl,stable⟩
    · rename_i shorter
      have := shrinks l
      exact ih (by omega)

theorem length_untilStable (fuel : Nat) (l : List α) :
    (untilStable pass fuel l).length ≤ l.length := by
  induction fuel generalizing l with
  | zero => exact Nat.le_refl _
  | succ fuel ih =>
    simp only [untilStable]
    split
    · exact shrinks l
    · exact Nat.le_trans (ih (pass l)) (shrinks l)

theorem length_inputs {l given : List α}
    (member : given ∈ inputs pass fuel l) : (untilStable pass fuel l).length ≤ given.length := by
  induction fuel generalizing l with
  | zero => cases member
  | succ fuel ih =>
    simp only [inputs,List.mem_cons] at member
    rcases member with rfl | later
    · exact length_untilStable shrinks (fuel + 1) given
    · simp only [untilStable]
      split
      · rename_i stable; rw [if_pos stable] at later; cases later
      · rename_i shorter; rw [if_neg shorter] at later; exact ih later

end

theorem follow_le {moves : List (Nat → Nat)} (early : ∀ move ∈ moves, ∀ i, move i ≤ i) (i : Nat) :
    moves.foldl (fun j move => move j) i ≤ i := by
  induction moves generalizing i with
  | nil => exact Nat.le_refl _
  | cons move moves ih =>
    exact Nat.le_trans (ih (fun other member => early other (List.mem_cons_of_mem _ member)) _) (early move (by simp) i)

theorem follow_eq_self {moves : List (Nat → Nat)} (early : ∀ move ∈ moves, ∀ i, move i ≤ i) {i : Nat} :
    moves.foldl (fun j move => move j) i = i ↔ ∀ move ∈ moves, move i = i := by
  induction moves with
  | nil => simp
  | cons move moves ih =>
    have rest : ∀ other ∈ moves, ∀ i : Nat, other i ≤ i := fun other member => early other (List.mem_cons_of_mem _ member)
    simp only [List.foldl_cons,List.forall_mem_cons]
    constructor
    · intro stays
      have first := early move (by simp) i
      have later := follow_le rest (move i)
      have fixed : move i = i := by omega
      rw [fixed] at stays
      exact ⟨fixed,(ih rest).mp stays⟩
    · rintro ⟨fixed,others⟩
      rw [fixed]
      exact (ih rest).mpr others

/-- The position of an element in the result, followed through the passes. -/
def follow (pass : List α → List α) (move : List α → Nat → Nat) (fuel : Nat) (l : List α) (i : Nat) : Nat :=
  ((inputs pass fuel l).map move).foldl (fun j move => move j) i

variable {move : List α → Nat → Nat}

theorem follow_lt (inside : ∀ l i, i < l.length → move l i < (pass l).length) {i : Nat} (here : i < l.length) :
    follow pass move fuel l i < (untilStable pass fuel l).length := by
  unfold follow
  induction fuel generalizing l i with
  | zero => exact here
  | succ fuel ih =>
    have next := inside l i here
    simp only [inputs,untilStable,List.map_cons,List.foldl_cons]
    split
    · exact next
    · exact ih next

theorem follow_reaches (reaches : ∀ l s, s < (pass l).length → ∃ i, i < l.length ∧ move l i = s ∧ (pass l)[s]? = l[i]?) {s : Nat} (here : s < (untilStable pass fuel l).length) :
    ∃ i, i < l.length ∧ follow pass move fuel l i = s ∧ (untilStable pass fuel l)[s]? = l[i]? := by
  unfold follow
  induction fuel generalizing l with
  | zero => exact ⟨s,here,rfl,rfl⟩
  | succ fuel ih =>
    simp only [inputs,untilStable,List.map_cons,List.foldl_cons] at here ⊢
    split at here
    · next stable =>
      simp only [if_pos stable]
      exact reaches l s here
    · next shorter =>
      simp only [if_neg shorter]
      obtain ⟨j,inside,moved,same⟩ := ih here
      obtain ⟨i,begins,first,taken⟩ := reaches l j inside
      exact ⟨i,begins,by rw [first]; exact moved,same.trans taken⟩

end CodexMultiAuth.Passes
