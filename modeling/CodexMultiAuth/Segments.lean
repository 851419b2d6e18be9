import CodexMultiAuth.OrderedMap

/-!
Pieces that are joined in the order of their keys. A piece that is new or last grows the whole
at its end, so a copy of the whole that is kept beside the pieces may grow with it.
-/
namespace CodexMultiAuth.OrderedMap
open List
set_option linter.unusedSectionVars false
universe u v
variable {κ : Type u} {μ : Type v} [DecidableEq κ]

theorem keys_mapKeys (f : κ → μ) (ks : List κ) : keys (ks.map (fun k => (k,f k))) = ks := by
  rw [keys,map_map]
  exact map_id ks

theorem put_mapKeys {ks : List κ} (distinct : ks.Nodup) (f : κ → μ) (k : κ) (v : μ) :
    put (ks.map (fun other => (other,f other))) k v =
      (if k ∈ ks then ks else ks ++ [k]).map (fun other => (other,if k = other then v else f other)) := by
  induction ks with
  | nil => simp [put]
  | cons first ks ih =>
    obtain ⟨fresh,later⟩ := nodup_cons.mp distinct
    rw [map_cons,put]
    by_cases same : first = k
    · subst same
      have rest : ∀ other ∈ ks, f other = if first = other then v else f other := by
        intro other member
        rw [if_neg]
        rintro rfl
        exact fresh member
      rw [if_pos rfl,if_pos mem_cons_self,map_cons,if_pos rfl]
      exact congrArg _ (map_congr_left (fun other member => by rw [← rest other member]))
    · rw [if_neg same,ih later]
      by_cases member : k ∈ ks <;> simp [member,Ne.symm same]

theorem remove_mapKeys (f : κ → μ) (ks : List κ) (k : κ) :
    remove (ks.map (fun other => (other,f other))) k =
      (ks.filter (fun other => decide (other ≠ k))).map (fun other => (other,f other)) := by
  rw [remove,filter_map]
  simp [Function.comp_def]

theorem find_append_absent {m : OrderedMap κ μ} {k : κ} (absent : k ∉ m.keys) (m' : OrderedMap κ μ) : find (m ++ m') k = find m' k := by
  induction m with
  | nil => rfl
  | cons entry m ih =>
    rw [keys,map_cons,mem_cons,not_or] at absent
    rw [cons_append,find_cons,if_neg (Ne.symm absent.1),ih absent.2]

theorem put_append_absent {m : OrderedMap κ μ} {k : κ} (absent : k ∉ m.keys) (m' : OrderedMap κ μ) (v : μ) :
    put (m ++ m') k v = m ++ put m' k v := by
  induction m with
  | nil => rfl
  | cons entry m ih =>
    rw [keys,map_cons,mem_cons,not_or] at absent
    rw [cons_append,put,if_neg (Ne.symm absent.1),ih absent.2,cons_append]

section
variable (op : μ → μ → μ) (unit : μ)

def joined (m : OrderedMap κ μ) : μ := (m.map Prod.snd).foldr op unit

/-- A piece goes on, or a new one begins. -/
def extend (m : OrderedMap κ μ) (k : κ) (more : μ) : OrderedMap κ μ := m.put k (op ((m.find k).getD unit) more)

variable [Std.Associative op] [Std.LawfulIdentity op unit]

theorem joined_concat (m : OrderedMap κ μ) (entry : κ × μ) : joined op unit (m ++ [entry]) = op (joined op unit m) entry.2 := by
  induction m with
  | nil =>
    have right : op entry.2 unit = entry.2 := Std.LawfulRightIdentity.right_id _
    have left : op unit entry.2 = entry.2 := Std.LawfulLeftIdentity.left_id _
    exact right.trans left.symm
  | cons first m ih =>
    show op first.2 (joined op unit (m ++ [entry])) = op (op first.2 (joined op unit m)) entry.2
    rw [ih]
    exact (Std.Associative.assoc _ _ _).symm

/-- A piece that is last afterwards grows the whole at its end. -/
theorem joined_extend {m : OrderedMap κ μ} (distinct : m.keys.Nodup) {k : κ} {more : μ}
    (last : (extend op unit m k more).keys.getLast? = some k) :
    joined op unit (extend op unit m k more) = op (joined op unit m) more := by
  unfold extend at last ⊢
  rw [keys_put] at last
  by_cases known : k ∈ m.keys
  · rw [if_pos known] at last
    obtain ⟨before,split⟩ := List.getLast?_eq_some_iff.mp last
    obtain ⟨others,tail,rfl,earlier,alone⟩ := map_eq_append_iff.mp split
    obtain ⟨entry,rfl,rfl⟩ := map_eq_singleton_iff.mp alone
    have absent : entry.1 ∉ keys others := by
      rw [split] at distinct
      rw [keys,earlier]
      exact fun member => disjoint_of_nodup_append distinct member mem_cons_self
    rw [find_append_absent absent,put_append_absent absent,find_cons,if_pos rfl,put,if_pos rfl,joined_concat,joined_concat]
    exact (Std.Associative.assoc _ _ _).symm
  · rw [find_eq_none.mpr known,put_fresh known,joined_concat]
    have left : op unit more = more := Std.LawfulLeftIdentity.left_id more
    exact congrArg (op _) left

end
end CodexMultiAuth.OrderedMap
