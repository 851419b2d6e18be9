import Mathlib.Data.List.Forall2
import Mathlib.Order.Lattice

/-!
Rows that take results one after another. A result goes to the row it matches among the
rows as they are by then, or to a new row at the end; no row moves.
-/
namespace CodexMultiAuth
open List
universe u v w

/-- How rows take results. -/
structure Upsert (Row : Type u) (Result : Type v) where
  find : List Row → Result → Option ℕ
  insert : Result → Row
  update : Row → Result → Row

namespace Upsert
variable {Row : Type u} {Result : Type v} (s : Upsert Row Result)

def step (rows : List Row) (result : Result) : List Row :=
  match s.find rows result with
  | none => rows ++ [s.insert result]
  | some i => rows.modify i (fun row => s.update row result)

def fold (rows : List Row) (results : List Result) : List Row := results.foldl s.step rows

/-- The position that a result goes to. -/
def place (rows : List Row) (result : Result) : ℕ := (s.find rows result).getD rows.length

def places (rows : List Row) : List Result → List ℕ
  | [] => []
  | result :: rest => s.place rows result :: places (s.step rows result) rest

def comap {Other : Type w} (f : Other → Result) : Upsert Row Other where
  find rows other := s.find rows (f other)
  insert other := s.insert (f other)
  update row other := s.update row (f other)

variable (rows : List Row)

@[simp] theorem fold_nil : s.fold rows [] = rows := rfl

@[simp] theorem fold_cons (result : Result) (rest : List Result) :
    s.fold rows (result :: rest) = s.fold (s.step rows result) rest := rfl

theorem fold_append (before after : List Result) : s.fold rows (before ++ after) = s.fold (s.fold rows before) after :=
  foldl_append

theorem fold_map {Other : Type w} (f : Other → Result) (rows : List Row) (others : List Other) :
    s.fold rows (others.map f) = (s.comap f).fold rows others := foldl_map

theorem length_step (result : Result) : rows.length ≤ (s.step rows result).length := by
  rw [step]
  split
  · rw [length_append]
    exact Nat.le_add_right _ _
  · exact (length_modify _ _ _).ge

theorem length_fold (results : List Result) : rows.length ≤ (s.fold rows results).length := by
  induction results generalizing rows with
  | nil => exact le_refl _
  | cons result rest ih => exact (s.length_step rows result).trans (ih _)

variable {rows : List Row} {result : Result}

theorem getElem?_step {i : ℕ} (there : i < rows.length) (other : s.place rows result ≠ i) :
    (s.step rows result)[i]? = rows[i]? := by
  rw [place] at other
  rw [step]
  cases found : s.find rows result with
  | none => exact List.getElem?_append_left there
  | some j =>
    rw [found] at other
    exact List.getElem?_modify_ne _ _ other

theorem getElem?_fold {results : List Result} {i : ℕ} (there : i < rows.length) (other : i ∉ s.places rows results) :
    (s.fold rows results)[i]? = rows[i]? := by
  induction results generalizing rows with
  | nil => rfl
  | cons result rest ih =>
    rw [places,mem_cons,not_or] at other
    rw [fold_cons,ih (there.trans_le (s.length_step rows result)) other.2,s.getElem?_step there (Ne.symm other.1)]

theorem getElem?_place {row : Row} (here : (s.step rows result)[s.place rows result]? = some row) :
    row = s.insert result ∨ ∃ i old, s.find rows result = some i ∧ rows[i]? = some old ∧ row = s.update old result := by
  rw [step,place] at here
  cases found : s.find rows result with
  | none =>
    rw [found] at here
    left
    rw [Option.getD_none,List.getElem?_append_right (le_refl _),Nat.sub_self] at here
    exact (Option.some.inj here).symm
  | some i =>
    rw [found] at here
    right
    rw [Option.getD_some,List.getElem?_modify_eq] at here
    obtain ⟨old,there,same⟩ := Option.map_eq_some_iff.mp here
    exact ⟨i,old,rfl,there,same.symm⟩

theorem place_lt (inside : ∀ i, s.find rows result = some i → i < rows.length) :
    s.place rows result < (s.step rows result).length := by
  rw [step,place]
  cases found : s.find rows result with
  | none =>
    rw [Option.getD_none,length_append]
    exact Nat.lt_succ_self _
  | some i =>
    rw [Option.getD_some,length_modify]
    exact inside i found

/-- The row that a result goes to stays as the result has left it, if no later one goes there. -/
theorem getElem?_last {before after : List Result}
    (inside : ∀ i, s.find (s.fold rows before) result = some i → i < (s.fold rows before).length)
    (last : s.place (s.fold rows before) result ∉ s.places (s.step (s.fold rows before) result) after) :
    (s.fold rows (before ++ result :: after))[s.place (s.fold rows before) result]? =
      (s.step (s.fold rows before) result)[s.place (s.fold rows before) result]? := by
  rw [fold_append,fold_cons]
  exact s.getElem?_fold (s.place_lt inside) last

theorem fold_keeps {P : Row → Prop} (kept : ∀ row result, P row → P (s.update row result)) {results : List Result} {i : ℕ} {row : Row}
    (here : rows[i]? = some row) (holds : P row) : ∃ later, (s.fold rows results)[i]? = some later ∧ P later := by
  induction results generalizing rows row with
  | nil => exact ⟨row,here,holds⟩
  | cons result rest ih =>
    rw [fold_cons,step]
    cases found : s.find rows result with
    | none => exact ih ((List.getElem?_append_left (List.getElem?_eq_some_iff.mp here).1).trans here) holds
    | some j =>
      by_cases same : j = i
      · subst same
        exact ih ((List.getElem?_modify_eq _ _ _).trans (congrArg (Option.map _) here)) (kept row result holds)
      · exact ih ((List.getElem?_modify_ne _ _ same).trans here) holds

theorem step_related {Row' : Type w} {t : Upsert Row' Result} {R : Row → Row' → Prop} {rows' : List Row'}
    (alike : s.find rows result = t.find rows' result) (inserts : R (s.insert result) (t.insert result))
    (updates : ∀ i row row', s.find rows result = some i → rows[i]? = some row → R row row' → R (s.update row result) (t.update row' result))
    (related : List.Forall₂ R rows rows') : List.Forall₂ R (s.step rows result) (t.step rows' result) := by
  rw [step,step,← alike]
  cases found : s.find rows result with
  | none => exact rel_append related (List.Forall₂.cons inserts List.Forall₂.nil)
  | some i =>
    rw [forall₂_iff_get] at related ⊢
    obtain ⟨lengths,each⟩ := related
    refine ⟨by rw [length_modify,length_modify,lengths],?_⟩
    intro j left right
    rw [length_modify] at left right
    have here := each j left right
    simp only [get_eq_getElem] at here ⊢
    rw [getElem_modify,getElem_modify]
    by_cases same : i = j
    · rw [if_pos same,if_pos same]
      exact updates i _ _ found (same ▸ List.getElem?_eq_getElem left) here
    · rw [if_neg same,if_neg same]
      exact here

end Upsert
end CodexMultiAuth
