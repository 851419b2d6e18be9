import Mathlib.Data.List.Dedup

/-!
Finite maps that remember the order in which their keys were inserted. A map is
an association list; the first entry of a key is the one that counts. Lookups
are `List.lookup`, so the library's facts about it apply as they are.
-/
namespace CodexMultiAuth
open List
set_option linter.unusedSectionVars false
universe u v w

/-- A map as its entries in insertion order. -/
abbrev OrderedMap (κ : Type u) (ν : Type v) := List (κ × ν)

namespace OrderedMap
variable {κ : Type u} {ν : Type v} {ε : Type w} [DecidableEq κ]

def find (m : OrderedMap κ ν) (k : κ) : Option ν := m.lookup k

def keys (m : OrderedMap κ ν) : List κ := m.map Prod.fst

/-- Replaces the value of a key in place, or appends a new key. -/
def put : OrderedMap κ ν → κ → ν → OrderedMap κ ν
  | [], k, v => [(k,v)]
  | (k',v') :: rest, k, v => if k' = k then (k,v) :: rest else (k',v') :: put rest k v

def remove (m : OrderedMap κ ν) (k : κ) : OrderedMap κ ν := m.filter (fun entry => !decide (entry.1 = k))

/-- Assigning an absent value removes the key. -/
def assign (m : OrderedMap κ ν) (k : κ) : Option ν → OrderedMap κ ν
  | some v => m.put k v
  | none => m.remove k

@[simp] theorem find_nil (k : κ) : find ([] : OrderedMap κ ν) k = none := rfl

theorem find_cons (entry : κ × ν) (m : OrderedMap κ ν) (k : κ) :
    find (entry :: m) k = if entry.1 = k then some entry.2 else find m k := by
  obtain ⟨k',v⟩ := entry
  by_cases same : k' = k
  · subst same; simp [find]
  · have other : (k == k') = false := by simpa using Ne.symm same
    simp [find,lookup_cons,other,same]

variable {m : OrderedMap κ ν}
variable {k : κ}

theorem find_isSome : (m.find k).isSome ↔ k ∈ m.keys := by
  induction m with
  | nil => simp [keys]
  | cons entry m ih =>
    rw [find_cons]
    by_cases same : entry.1 = k
    · simp [keys,same]
    · simpa [keys,same,Ne.symm same] using ih

theorem find_eq_none : m.find k = none ↔ k ∉ m.keys := by
  rw [← find_isSome]; cases m.find k <;> simp

theorem mem_of_find {v : ν} (found : m.find k = some v) : (k,v) ∈ m := by
  induction m with
  | nil => simp at found
  | cons entry m ih =>
    rw [find_cons] at found
    split at found
    · rename_i same
      cases found; subst same; simp
    · exact mem_cons_of_mem _ (ih found)

theorem find_of_mem {v : ν} (distinct : m.keys.Nodup) (member : (k,v) ∈ m) :
    m.find k = some v := by
  induction m with
  | nil => simp at member
  | cons entry m ih =>
    simp only [keys,map_cons,nodup_cons] at distinct
    rw [find_cons]
    rcases mem_cons.mp member with rfl | member
    · simp
    · have other : entry.1 ≠ k := by
        rintro rfl
        exact distinct.1 (mem_map.mpr ⟨_,member,rfl⟩)
      simpa [other] using ih distinct.2 member

@[simp] theorem find_put (m : OrderedMap κ ν) (k k' : κ) (v : ν) :
    (m.put k v).find k' = if k = k' then some v else m.find k' := by
  induction m with
  | nil => simp [put,find_cons]
  | cons entry m ih =>
    simp only [put]
    by_cases same : entry.1 = k
    · subst same; by_cases here : entry.1 = k' <;> simp [find_cons,here]
    · simp only [if_neg same,find_cons,ih]
      by_cases here : entry.1 = k'
      · subst here; simp [Ne.symm same]
      · simp [here]

@[simp] theorem find_remove (m : OrderedMap κ ν) (k k' : κ) :
    (m.remove k).find k' = if k = k' then none else m.find k' := by
  induction m with
  | nil => simp [remove]
  | cons entry m ih =>
    simp only [remove] at ih ⊢
    by_cases same : entry.1 = k
    · subst same
      simp only [filter_cons,decide_true,Bool.not_true,Bool.false_eq_true,if_false,ih,find_cons]
      by_cases here : entry.1 = k' <;> simp [here]
    · simp only [filter_cons,decide_eq_false same,Bool.not_false,if_true,find_cons,ih]
      by_cases here : entry.1 = k'
      · subst here; simp [Ne.symm same]
      · simp [here]

@[simp] theorem find_assign (m : OrderedMap κ ν) (k k' : κ) (v : Option ν) :
    (m.assign k v).find k' = if k = k' then v else m.find k' := by
  cases v <;> simp [assign]

theorem assign_find (m : OrderedMap κ ν) (k : κ) : m.assign k (m.find k) = m := by
  cases found : m.find k with
  | none =>
    refine filter_eq_self.mpr fun entry member => ?_
    have apart : entry.1 ≠ k := fun same => find_eq_none.mp found (same ▸ mem_map_of_mem member)
    simp [apart]
  | some v =>
    show m.put k v = m
    induction m with
    | nil => cases found
    | cons entry rest ih =>
      rw [find_cons] at found
      rw [put]
      split_ifs at found ⊢ with here
      · rw [← here,← Option.some.inj found]
      · rw [ih found]

theorem find_foldl_assign (source : OrderedMap κ ν) (ks : List κ) (m : OrderedMap κ ν) (k : κ) :
    (ks.foldl (fun m key => m.assign key (source.find key)) m).find k = if k ∈ ks then source.find k else m.find k := by
  induction ks generalizing m with
  | nil => simp
  | cons key ks ih =>
    rw [foldl_cons,ih,find_assign]
    by_cases later : k ∈ ks
    · simp [later]
    · by_cases here : key = k
      · subst here; simp
      · simp [later,here,Ne.symm here]

theorem keys_put (m : OrderedMap κ ν) (k : κ) (v : ν) :
    (m.put k v).keys = if k ∈ m.keys then m.keys else m.keys ++ [k] := by
  induction m with
  | nil => simp [put,keys]
  | cons entry m ih =>
    simp only [put]
    by_cases same : entry.1 = k
    · subst same; simp [keys]
    · simp only [keys,if_neg same,map_cons,mem_cons,Ne.symm same,false_or] at ih ⊢
      rw [ih]; split <;> simp_all

theorem mem_put {v : ν} {entry : κ × ν} (member : entry ∈ m.put k v) : entry ∈ m ∨ entry = (k,v) := by
  induction m with
  | nil => exact Or.inr (mem_singleton.mp member)
  | cons first rest ih =>
    rw [put] at member
    split at member
    · rcases mem_cons.mp member with here | later
      · exact Or.inr here
      · exact Or.inl (mem_cons_of_mem _ later)
    · rcases mem_cons.mp member with here | later
      · exact Or.inl (here ▸ mem_cons_self)
      · exact (ih later).imp_left (mem_cons_of_mem _)

theorem put_fresh (fresh : k ∉ m.keys) (v : ν) : m.put k v = m ++ [(k,v)] := by
  induction m with
  | nil => rfl
  | cons first rest ih =>
    rw [keys,map_cons,mem_cons,not_or] at fresh
    rw [put,if_neg (Ne.symm fresh.1),ih fresh.2]
    rfl

theorem nodup_put (distinct : m.keys.Nodup) (k : κ) (v : ν) : (m.put k v).keys.Nodup := by
  rw [keys_put]
  split
  · exact distinct
  · rename_i absent
    refine nodup_append.mpr ⟨distinct,by simp,?_⟩
    rintro other member last here rfl
    exact absent (mem_singleton.mp here ▸ member)

theorem nodup_remove (distinct : m.keys.Nodup) (k : κ) : (m.remove k).keys.Nodup :=
  distinct.sublist (List.Sublist.map _ filter_sublist)

theorem length_pos : 0 < m.length ↔ ∃ k, (m.find k).isSome := by
  simp only [find_isSome,keys,mem_map]
  constructor
  · intro positive
    exact ⟨_,m[0],getElem_mem positive,rfl⟩
  · rintro ⟨_,entry,member,-⟩
    exact length_pos_of_mem member

theorem one_lt_length_of_nodup {α : Type u} {l : List α} (distinct : l.Nodup) :
    1 < l.length ↔ ∃ a ∈ l, ∃ b ∈ l, a ≠ b := by
  constructor
  · intro many
    refine ⟨l[0],getElem_mem _,l[1],getElem_mem _,?_⟩
    intro same
    have := (List.Nodup.getElem_inj_iff distinct).mp same
    omega
  · rintro ⟨a,memberA,b,memberB,different⟩
    by_contra few
    match l with
    | [] => cases memberA
    | [only] => simp at memberA memberB; exact different (memberA.trans memberB.symm)
    | _ :: _ :: _ => simp at few

theorem one_lt_length (distinct : m.keys.Nodup) :
    1 < m.length ↔ ∃ k k', k ≠ k' ∧ (m.find k).isSome ∧ (m.find k').isSome := by
  have size : m.length = m.keys.length := by simp [keys]
  simp only [find_isSome]
  rw [size,one_lt_length_of_nodup distinct]
  constructor
  · rintro ⟨k,first,k',second,different⟩; exact ⟨k,k',different,first,second⟩
  · rintro ⟨k,k',different,first,second⟩; exact ⟨k,first,k',second,different⟩

/-! ### Building a map from a list of keys -/

/-- The keys of several maps in order, each once. -/
def unionKeys (ms : List (List κ)) : List κ := ms.flatten.eraseDups

theorem nodup_eraseDups (ks : List κ) : ks.eraseDups.Nodup := by
  cases ks with
  | nil => simp
  | cons k ks =>
    rw [eraseDups_cons,nodup_cons]
    exact ⟨by simp [mem_eraseDups],nodup_eraseDups _⟩
termination_by ks.length
decreasing_by
  have shorter := length_filter_le (fun other => !other == k) ks
  simp only [length_cons]
  omega

theorem nodup_unionKeys (ms : List (List κ)) : (unionKeys ms).Nodup := nodup_eraseDups _

@[simp] theorem mem_unionKeys {ms : List (List κ)} : k ∈ unionKeys ms ↔ ∃ ks ∈ ms, k ∈ ks := by
  simp [unionKeys,mem_eraseDups]

theorem find_tabulate (f : κ → Option ν) (ks : List κ) (k : κ) :
    find (ks.filterMap (fun k => (f k).map (fun v => (k,v)))) k = if k ∈ ks then f k else none := by
  induction ks with
  | nil => simp
  | cons k' ks ih =>
    cases value : f k' with
    | none =>
      simp only [filterMap_cons,value,Option.map_none,ih,mem_cons]
      by_cases same : k = k'
      · subst same; simp [value]
      · simp [same]
    | some v =>
      simp only [filterMap_cons,value,Option.map_some,find_cons,ih,mem_cons]
      by_cases same : k' = k
      · subst same; simp [value]
      · simp [same,Ne.symm same]

theorem find_mapKeys (f : κ → ν) (ks : List κ) (k : κ) :
    find (ks.map (fun k => (k,f k))) k = if k ∈ ks then some (f k) else none := by
  have same : ks.map (fun k => (k,f k)) = ks.filterMap (fun k => (some (f k)).map (fun v => (k,v))) := by
    simp [filterMap_eq_map']
  rw [same,find_tabulate (fun k => some (f k))]

/-- Computes the result of each element in turn; elements without one are left out. -/
def collect {α : Type u} {β : Type v} (f : α → Except ε (Option β)) : List α → Except ε (List β)
  | [] => .ok []
  | a :: as =>
    match f a with
    | .error e => .error e
    | .ok b =>
      match collect f as with
      | .error e => .error e
      | .ok bs => .ok (b.elim bs (fun b => b :: bs))

theorem collect_error {α : Type u} {β : Type v} {f : α → Except ε (Option β)} {as : List α} {e : ε}
    (failed : collect f as = .error e) : ∃ a ∈ as, f a = .error e := by
  induction as with
  | nil => simp [collect] at failed
  | cons a as ih =>
    simp only [collect] at failed
    cases first : f a with
    | error e' =>
      simp only [first,Except.error.injEq] at failed
      exact ⟨a,by simp,by rw [first,failed]⟩
    | ok b =>
      cases later : collect f as with
      | error e' =>
        simp only [first,later,Except.error.injEq] at failed
        subst failed
        obtain ⟨a',member,bad⟩ := ih later
        exact ⟨a',mem_cons_of_mem _ member,bad⟩
      | ok rest => simp [first,later] at failed

theorem collect_congr {α : Type u} {β : Type v} {f g : α → Except ε (Option β)} {as : List α}
    (same : ∀ a ∈ as, f a = g a) : collect f as = collect g as := by
  induction as with
  | nil => rfl
  | cons a as ih =>
    simp only [collect,same a (by simp),ih (fun other member => same other (mem_cons_of_mem _ member))]

/-- Computes the value of each key; keys without a value are left out. -/
def build (f : κ → Except ε (Option ν)) (ks : List κ) : Except ε (OrderedMap κ ν) :=
  collect (fun k =>
    match f k with
    | .error e => .error e
    | .ok v => .ok (v.map (fun v => (k,v)))) ks

variable {f : κ → Except ε (Option ν)} {ks : List κ}

/-- What a map built from a list with a head is made of. -/
theorem build_cons {k : κ} (built : build f (k :: ks) = .ok m) :
    ∃ v rest, f k = .ok v ∧ build f ks = .ok rest ∧ m = (v.map (fun v => (k,v))).elim rest (fun entry => entry :: rest) := by
  simp only [build,collect] at built
  cases first : f k with
  | error e => simp [first] at built
  | ok v =>
    cases later : build f ks with
    | error e => simp only [build] at later; simp [first,later] at built
    | ok rest =>
      refine ⟨v,rest,rfl,rfl,?_⟩
      simp only [build] at later
      simp only [first,later,Except.ok.injEq] at built
      exact built.symm

theorem build_ok (distinct : ks.Nodup)
    (built : build f ks = .ok m) :
    (∀ k ∈ ks, f k = .ok (m.find k)) ∧ (∀ k ∉ ks, m.find k = none) := by
  induction ks generalizing m with
  | nil => simp only [build,collect,Except.ok.injEq] at built; subst built; simp
  | cons k ks ih =>
    rw [nodup_cons] at distinct
    obtain ⟨v,rest,first,later,rfl⟩ := build_cons built
    obtain ⟨values,absent⟩ := ih distinct.2 later
    have lookup : ∀ k', ((v.map (fun v => (k,v))).elim rest (fun entry => entry :: rest)).find k' =
        if k = k' then v else rest.find k' := by
      intro k'
      cases v with
      | none => by_cases same : k = k' <;> simp [same]; exact absent k' (same ▸ distinct.1)
      | some v => simp [find_cons]
    refine ⟨?_,?_⟩
    · intro k' member
      rw [lookup]
      by_cases same : k = k'
      · subst same; simpa using first
      · have member : k' ∈ ks := by simpa [Ne.symm same] using member
        simpa [same] using values k' member
    · intro k' other
      simp only [mem_cons,not_or] at other
      rw [lookup,if_neg (Ne.symm other.1)]
      exact absent k' other.2

theorem build_error {e : ε} (failed : build f ks = .error e) :
    ∃ k ∈ ks, f k = .error e := by
  obtain ⟨k,member,bad⟩ := collect_error failed
  refine ⟨k,member,?_⟩
  cases value : f k with
  | error e' => simp only [value,Except.error.injEq] at bad; rw [bad]
  | ok v => simp [value] at bad

theorem build_congr {f g : κ → Except ε (Option ν)} (same : ∀ k ∈ ks, f k = g k) : build f ks = build g ks :=
  collect_congr (fun k member => by rw [same k member])

theorem keys_build (built : build f ks = .ok m) :
    m.keys.Sublist ks := by
  induction ks generalizing m with
  | nil => simp only [build,collect,Except.ok.injEq] at built; subst built; simp [keys]
  | cons k ks ih =>
    obtain ⟨v,rest,-,later,rfl⟩ := build_cons built
    cases v with
    | none => exact (ih later).cons _
    | some v => exact (ih later).cons_cons _

theorem build_of_collect {key : ν → κ} {vs : List ν}
    (keyed : ∀ k v, f k = .ok (some v) → key v = k) (done : collect f ks = .ok vs) :
    build f ks = .ok (vs.map (fun v => (key v,v))) := by
  induction ks generalizing vs with
  | nil => simp only [collect,Except.ok.injEq] at done; subst done; rfl
  | cons k ks ih =>
    simp only [collect] at done
    cases first : f k with
    | error e => simp [first] at done
    | ok v =>
      cases later : collect f ks with
      | error e => simp [first,later] at done
      | ok rest =>
        simp only [first,later,Except.ok.injEq] at done
        subst done
        have tail := ih later
        simp only [build] at tail
        simp only [build,collect,first,tail]
        cases v with
        | none => rfl
        | some v => simp [keyed k v first]

end OrderedMap
end CodexMultiAuth
