import Mathlib.Data.List.Nodup

/-!
Lists that correspond element by element, lists that are changed at the one
element with a key, and lists from which one element is taken.
-/
namespace CodexMultiAuth

open List

variable {α β : Type}

theorem forall₂_member {R : α → β → Prop} {l : List α} {l' : List β} (each : List.Forall₂ R l l') {b : β} (member : b ∈ l') :
    ∃ a ∈ l, R a b := by
  induction each with
  | nil => exact absurd member not_mem_nil
  | cons first _ ih =>
    rcases mem_cons.mp member with same | later
    · subst same
      exact ⟨_,mem_cons_self,first⟩
    · obtain ⟨a,among,related⟩ := ih later
      exact ⟨a,mem_cons_of_mem _ among,related⟩

theorem forall₂_trans {α : Type} {R : α → α → Prop} (trans : ∀ {a b c}, R a b → R b c → R a c) {l l' l'' : List α} (first : List.Forall₂ R l l')
    (second : List.Forall₂ R l' l'') : List.Forall₂ R l l'' := by
  induction first generalizing l'' with
  | nil => exact second
  | cons related _ ih =>
    cases second with
    | cons next others => exact List.Forall₂.cons (trans related next) (ih others)

theorem forall₂_map_eq {α β γ : Type} {f : α → γ} {g : β → γ} {l : List α} {l' : List β}
    (each : List.Forall₂ (fun a b => g b = f a) l l') : l'.map g = l.map f := by
  have same := forall₂_map_left_iff.mpr (forall₂_map_right_iff.mpr (each.imp (fun _ _ equal => equal.symm)))
  exact (forall₂_eq_eq_eq ▸ same).symm

theorem map_eq_of_keys {α β γ : Type} {key : α → β} {f : α → γ} {l l' : List α} (same : l'.map key = l.map key)
    (alike : ∀ a ∈ l, ∀ b ∈ l', key b = key a → f b = f a) : l'.map f = l.map f := by
  induction l generalizing l' with
  | nil => rw [map_eq_nil_iff.mp same]
  | cons a rest ih =>
    cases l' with
    | nil => cases same
    | cons b others =>
      obtain ⟨first,later⟩ := List.cons.inj same
      rw [map_cons,map_cons,alike a mem_cons_self b mem_cons_self first,
        ih later (fun x inside y there => alike x (mem_cons_of_mem _ inside) y (mem_cons_of_mem _ there))]

theorem find?_of_key [DecidableEq β] (key : α → β) {l : List α} (distinct : (l.map key).Nodup) {a : α} (member : a ∈ l) :
    l.find? (fun x => decide (key x = key a)) = some a := by
  induction l with
  | nil => exact absurd member not_mem_nil
  | cons first rest ih =>
    obtain ⟨fresh,others⟩ := nodup_cons.mp distinct
    rcases mem_cons.mp member with rfl | later
    · exact List.find?_cons_of_pos (decide_eq_true rfl)
    · rw [List.find?_cons_of_neg]
      · exact ih others later
      · intro same
        exact fresh (of_decide_eq_true same ▸ mem_map_of_mem later)

theorem set_eq_map [DecidableEq β] (key : α → β) {l : List α} (distinct : (l.map key).Nodup) {i : Nat} {a : α}
    (here : l[i]? = some a) (f g : α → α) : (l.map f).set i (g a) = l.map (fun x => if key x = key a then g x else f x) := by
  refine ext_getElem? (fun j => ?_)
  rw [List.getElem?_set,List.getElem?_map,List.getElem?_map]
  by_cases same : i = j
  · subst same
    obtain ⟨inside,value⟩ := List.getElem?_eq_some_iff.mp here
    simp [inside,value]
  · rw [if_neg same]
    cases there : l[j]? with
    | none => rfl
    | some b =>
      have apart : key b ≠ key a := by
        intro equal
        have at_j : (l.map key)[j]? = some (key a) := by rw [List.getElem?_map,there,Option.map_some,equal]
        have at_i : (l.map key)[i]? = some (key a) := by rw [List.getElem?_map,here,Option.map_some]
        have inside := (List.getElem?_eq_some_iff.mp at_i).1
        exact same ((List.getElem?_inj inside distinct).mp (at_i.trans at_j.symm))
      simp [apart]

theorem modify_eq_set {α : Type} {l : List α} {i : Nat} {a : α} (here : l[i]? = some a) (g : α → α) : l.modify i g = l.set i (g a) := by
  obtain ⟨inside,value⟩ := List.getElem?_eq_some_iff.mp here
  refine ext_getElem? (fun j => ?_)
  rw [List.getElem?_modify,List.getElem?_set]
  by_cases equal : i = j
  · subst equal
    simp [inside,value]
  · cases l[j]? <;> simp [equal]

theorem modify_eq_map [DecidableEq β] (key : α → β) {l : List α} (distinct : (l.map key).Nodup) {i : Nat} {a : α}
    (here : l[i]? = some a) (g : α → α) : l.modify i g = l.map (fun x => if key x = key a then g x else x) := by
  have same := set_eq_map key distinct here id g
  rw [map_id] at same
  exact (modify_eq_set here g).trans same

private theorem head_again {α : Type} {a : α} {l : List α} {j : Nat} (same : l = a :: l.eraseIdx j) : l[j]? = some a := by
  induction l generalizing a j with
  | nil => cases same
  | cons b rest ih =>
    obtain ⟨rfl,later⟩ := List.cons.inj same
    cases j with
    | zero => rfl
    | succ j => exact ih later

theorem eraseIdx_inj {α : Type} {l : List α} {i j : Nat} (inside : i < l.length) (there : j < l.length)
    (same : l.eraseIdx i = l.eraseIdx j) : l[i]? = l[j]? := by
  induction l generalizing i j with
  | nil => exact absurd inside (Nat.not_lt_zero _)
  | cons a rest ih =>
    cases i with
    | zero =>
      cases j with
      | zero => rfl
      | succ j => exact (head_again same).symm
    | succ i =>
      cases j with
      | zero =>
        have later : rest[i]? = some a := head_again same.symm
        exact later
      | succ j => exact ih (Nat.lt_of_succ_lt_succ inside) (Nat.lt_of_succ_lt_succ there) (List.cons.inj same).2

end CodexMultiAuth
