import Mathlib.Tactic.Linarith
import CodexMultiAuth.OrderedMap

/-!
A max-heap with lazy deletion. An index is live with one entry at a time; giving
it a new key or deleting it leaves its old entry in the heap, and a query drops
the stale entries it meets at the top. An entry is live when it is the very one
that its index was last given, which its stamp tells.
-/
namespace CodexMultiAuth
open List OrderedMap
universe u v

structure HeapEntry (ι : Type u) (κ : Type v) where
  index : ι
  key : κ
  stamp : Nat
  deriving DecidableEq

/-- The heap as an array in level order, the live entry of each index, and the
    stamp of the next entry. -/
structure LazyHeap (ι : Type u) (κ : Type v) where
  live : OrderedMap ι (HeapEntry ι κ) := []
  heap : List (HeapEntry ι κ) := []
  stamp : Nat := 0

namespace LazyHeap
variable {ι : Type u} {κ : Type v} [LinearOrder κ]

/-- Moves smaller parents down until the entry fits at the slot. -/
def siftUp (heap : List (HeapEntry ι κ)) (slot : Nat) (entry : HeapEntry ι κ) : List (HeapEntry ι κ) :=
  if _root : slot = 0 then heap.set slot entry
  else
    match heap[(slot - 1) / 2]? with
    | none => heap.set slot entry
    | some parent =>
      if entry.key ≤ parent.key then heap.set slot entry
      else siftUp (heap.set slot parent) ((slot - 1) / 2) entry
termination_by slot

/-- The slot and entry that hold the larger key: the best so far, or another slot's. -/
def better (heap : List (HeapEntry ι κ)) (best : Nat × HeapEntry ι κ) (slot : Nat) : Nat × HeapEntry ι κ :=
  match heap[slot]? with
  | none => best
  | some entry => if best.2.key < entry.key then (slot,entry) else best

/-- The largest among a slot's entry and its children. -/
def largest (heap : List (HeapEntry ι κ)) (slot : Nat) (entry : HeapEntry ι κ) : Nat × HeapEntry ι κ :=
  better heap (better heap (slot,entry) (slot * 2 + 1)) (slot * 2 + 2)

theorem better_cases (heap : List (HeapEntry ι κ)) (best : Nat × HeapEntry ι κ) (slot : Nat) :
    (better heap best slot = best ∧ ∀ entry, heap[slot]? = some entry → entry.key ≤ best.2.key) ∨
      ∃ entry, heap[slot]? = some entry ∧ best.2.key < entry.key ∧ better heap best slot = (slot,entry) := by
  unfold better
  split
  · rename_i absent; simp [absent]
  · rename_i entry found
    split
    · rename_i larger; exact .inr ⟨entry,found,larger,rfl⟩
    · rename_i smaller; exact .inl ⟨rfl,by rintro other same; cases found.symm.trans same; exact le_of_not_gt smaller⟩

variable {heap : List (HeapEntry ι κ)} {slot : Nat} {entry : HeapEntry ι κ}

theorem largest_cases (here : heap[slot]? = some entry) :
    heap[(largest heap slot entry).1]? = some (largest heap slot entry).2 ∧
      (((largest heap slot entry).1 = slot ∧ (largest heap slot entry).2 = entry) ∨
        ((largest heap slot entry).1 = slot * 2 + 1 ∨ (largest heap slot entry).1 = slot * 2 + 2) ∧
          entry.key < (largest heap slot entry).2.key) ∧
      (∀ child i, i = slot * 2 + 1 ∨ i = slot * 2 + 2 → heap[i]? = some child →
        child.key ≤ (largest heap slot entry).2.key) := by
  unfold largest
  rcases better_cases heap (slot,entry) (slot * 2 + 1) with ⟨first,left⟩ | ⟨l,foundl,larger,first⟩
  · rw [first]
    rcases better_cases heap (slot,entry) (slot * 2 + 2) with ⟨second,right⟩ | ⟨r,foundr,largerr,second⟩
    · rw [second]
      refine ⟨here,.inl ⟨rfl,rfl⟩,?_⟩
      rintro child i (rfl | rfl) found
      · exact left child found
      · exact right child found
    · rw [second]
      refine ⟨foundr,.inr ⟨.inr rfl,largerr⟩,?_⟩
      rintro child i (rfl | rfl) found
      · exact le_trans (left child found) (le_of_lt largerr)
      · cases foundr.symm.trans found; exact le_refl _
  · rw [first]
    rcases better_cases heap (slot * 2 + 1,l) (slot * 2 + 2) with ⟨second,right⟩ | ⟨r,foundr,largerr,second⟩
    · rw [second]
      refine ⟨foundl,.inr ⟨.inl rfl,larger⟩,?_⟩
      rintro child i (rfl | rfl) found
      · cases foundl.symm.trans found; exact le_refl _
      · exact right child found
    · rw [second]
      refine ⟨foundr,.inr ⟨.inr rfl,lt_trans larger largerr⟩,?_⟩
      rintro child i (rfl | rfl) found
      · cases foundl.symm.trans found; exact le_of_lt largerr
      · cases foundr.symm.trans found; exact le_refl _

/-- Exchanges the slot's entry with its largest child until none is larger. -/
def siftDown (heap : List (HeapEntry ι κ)) (slot : Nat) : List (HeapEntry ι κ) :=
  match _here : heap[slot]? with
  | none => heap
  | some entry =>
    if _done : (largest heap slot entry).1 = slot then heap
    else siftDown ((heap.set slot (largest heap slot entry).2).set (largest heap slot entry).1 entry) (largest heap slot entry).1
termination_by heap.length - slot
decreasing_by
  have cases := largest_cases _here
  have inside := (List.getElem?_eq_some_iff.mp cases.1).1
  simp only [length_set]
  rcases cases.2.1 with ⟨same,-⟩ | ⟨below,-⟩
  · exact absurd same _done
  · omega

/-- Removes the top entry. -/
def dropHeapTop (heap : List (HeapEntry ι κ)) : List (HeapEntry ι κ) :=
  match heap.getLast? with
  | none => []
  | some last => if heap.dropLast = [] then [] else siftDown (heap.dropLast.set 0 last) 0

/-! ### The array is a heap -/

/-- No entry exceeds its parent. -/
def Ordered (heap : List (HeapEntry ι κ)) : Prop :=
  ∀ i entry parent, 0 < i → heap[i]? = some entry → heap[(i - 1) / 2]? = some parent → entry.key ≤ parent.key

/-- Ordered away from a slot, around which an entry of this key would leave only
    the slot's own parent to compare. -/
structure OrderedBelow (heap : List (HeapEntry ι κ)) (slot : Nat) (key : κ) : Prop where
  away : ∀ i entry parent, 0 < i → i ≠ slot → (i - 1) / 2 ≠ slot → heap[i]? = some entry →
    heap[(i - 1) / 2]? = some parent → entry.key ≤ parent.key
  children : ∀ i entry, 0 < i → (i - 1) / 2 = slot → heap[i]? = some entry → entry.key ≤ key
  grandchildren : ∀ i entry parent, 0 < i → 0 < slot → (i - 1) / 2 = slot → heap[i]? = some entry →
    heap[(slot - 1) / 2]? = some parent → entry.key ≤ parent.key

/-- Ordered away from a slot, whose children do not exceed the slot's parent. -/
structure OrderedAbove (heap : List (HeapEntry ι κ)) (slot : Nat) : Prop where
  away : ∀ i entry parent, 0 < i → (i - 1) / 2 ≠ slot → heap[i]? = some entry → heap[(i - 1) / 2]? = some parent →
    entry.key ≤ parent.key
  grandchildren : ∀ i entry parent, 0 < i → 0 < slot → (i - 1) / 2 = slot → heap[i]? = some entry →
    heap[(slot - 1) / 2]? = some parent → entry.key ≤ parent.key

theorem ordered_set (below : OrderedBelow heap slot entry.key)
    (fits : ∀ parent, 0 < slot → heap[(slot - 1) / 2]? = some parent → entry.key ≤ parent.key) :
    Ordered (heap.set slot entry) := by
  intro i child parent positive foundChild foundParent
  rw [List.getElem?_set] at foundChild foundParent
  by_cases atSlot : slot = i
  · subst atSlot
    have different : slot ≠ (slot - 1) / 2 := by omega
    rw [if_neg different] at foundParent
    simp only [if_true] at foundChild
    split at foundChild
    · cases foundChild; exact fits parent positive foundParent
    · cases foundChild
  · rw [if_neg atSlot] at foundChild
    by_cases under : slot = (i - 1) / 2
    · simp only [← under,if_true] at foundParent
      split at foundParent
      · cases foundParent; exact below.children i child positive under.symm foundChild
      · cases foundParent
    · rw [if_neg under] at foundParent
      exact below.away i child parent positive (Ne.symm atSlot) (Ne.symm under) foundChild foundParent

theorem orderedBelow_parent {key : κ} {parent : HeapEntry ι κ}
    (below : OrderedBelow heap slot key) (positive : 0 < slot) (found : heap[(slot - 1) / 2]? = some parent)
    (smaller : parent.key < key) : OrderedBelow (heap.set slot parent) ((slot - 1) / 2) key where
  away i entry above p n m foundEntry foundAbove := by
    rw [List.getElem?_set] at foundEntry foundAbove
    have atSlot : slot ≠ i := by rintro rfl; exact m rfl
    rw [if_neg atSlot] at foundEntry
    by_cases under : slot = (i - 1) / 2
    · simp only [← under,if_true] at foundAbove
      split at foundAbove
      · cases foundAbove; exact below.grandchildren i entry _ p positive under.symm foundEntry found
      · cases foundAbove
    · rw [if_neg under] at foundAbove
      exact below.away i entry above p (Ne.symm atSlot) (Ne.symm under) foundEntry foundAbove
  children i entry p under foundEntry := by
    rw [List.getElem?_set] at foundEntry
    by_cases atSlot : slot = i
    · simp only [atSlot,if_true] at foundEntry
      split at foundEntry
      · cases foundEntry; exact le_of_lt smaller
      · cases foundEntry
    · rw [if_neg atSlot] at foundEntry
      have different : (i - 1) / 2 ≠ slot := by omega
      exact le_trans (below.away i entry parent p (Ne.symm atSlot) different foundEntry (under ▸ found)) (le_of_lt smaller)
  grandchildren i entry above p q under foundEntry foundAbove := by
    rw [List.getElem?_set] at foundEntry foundAbove
    have far : slot ≠ ((slot - 1) / 2 - 1) / 2 := by omega
    rw [if_neg far] at foundAbove
    have step := below.away ((slot - 1) / 2) parent above q (by omega) (by omega) found foundAbove
    by_cases atSlot : slot = i
    · simp only [atSlot,if_true] at foundEntry
      split at foundEntry
      · cases foundEntry; exact step
      · cases foundEntry
    · rw [if_neg atSlot] at foundEntry
      exact le_trans (below.away i entry parent p (Ne.symm atSlot) (by omega) foundEntry (under ▸ found)) step

theorem siftUp_ordered (below : OrderedBelow heap slot entry.key) : Ordered (siftUp heap slot entry) := by
  induction heap, slot using siftUp.induct entry with
  | case1 heap =>
    unfold siftUp
    exact ordered_set below (fun _ positive => absurd positive (lt_irrefl 0))
  | case2 heap slot root absent =>
    unfold siftUp
    simp only [dif_neg root,absent]
    exact ordered_set below (fun parent _ found => by rw [absent] at found; cases found)
  | case3 heap slot root parent found fits =>
    unfold siftUp
    simp only [dif_neg root,found,if_pos fits]
    exact ordered_set below (fun other _ same => by cases found.symm.trans same; exact fits)
  | case4 heap slot root parent found larger ih =>
    unfold siftUp
    simp only [dif_neg root,found,if_neg larger]
    exact ih (orderedBelow_parent below (Nat.pos_of_ne_zero root) found (not_le.mp larger))

theorem siftUp_perm (inside : slot < heap.length) :
    (siftUp heap slot entry).Perm (heap.set slot entry) := by
  induction heap, slot using siftUp.induct entry with
  | case1 heap => unfold siftUp; simp
  | case2 heap slot root absent => unfold siftUp; simp [root,absent]
  | case3 heap slot root parent found fits => unfold siftUp; simp [root,found,fits]
  | case4 heap slot root parent found larger ih =>
    unfold siftUp
    simp only [dif_neg root,found,if_neg larger]
    obtain ⟨bound,value⟩ := List.getElem?_eq_some_iff.mp found
    refine (ih (by simpa using bound)).trans ?_
    -- The two slots exchange their entries in the array that already holds the new one.
    have exchange := @set_set_perm _ (heap.set slot entry) slot ((slot - 1) / 2) (by simpa using inside) (by simpa using bound)
    have different : slot ≠ (slot - 1) / 2 := by omega
    simpa [getElem_set,different,value] using exchange

theorem orderedAbove_child (above : OrderedAbove heap slot) (here : heap[slot]? = some entry) (moves : (largest heap slot entry).1 ≠ slot) :
    OrderedAbove ((heap.set slot (largest heap slot entry).2).set (largest heap slot entry).1 entry) (largest heap slot entry).1 := by
  obtain ⟨foundBest,place,most⟩ := largest_cases here
  generalize largest heap slot entry = best at foundBest place most moves
  obtain ⟨b,bestEntry⟩ := best
  simp only at foundBest place most moves ⊢
  rcases place with ⟨same,-⟩ | ⟨child,larger⟩
  · exact absurd same moves
  have inside := (List.getElem?_eq_some_iff.mp here).1
  have insideBest := (List.getElem?_eq_some_iff.mp foundBest).1
  have get : ∀ i, ((heap.set slot bestEntry).set b entry)[i]? =
      if b = i then some entry else if slot = i then some bestEntry else heap[i]? := by
    intro i
    simp only [List.getElem?_set,length_set,inside,insideBest,if_true]
  constructor
  · intro i lower upper positive apart foundLower foundUpper
    rw [get] at foundLower foundUpper
    rw [if_neg (Ne.symm apart)] at foundUpper
    by_cases isBest : b = i
    · subst isBest
      have parentSlot : slot = (b - 1) / 2 := by omega
      simp only [if_true,Option.some.injEq,← parentSlot] at foundLower foundUpper
      subst foundLower foundUpper
      exact le_of_lt larger
    · rw [if_neg isBest] at foundLower
      by_cases isSlot : slot = i
      · subst isSlot
        have different : slot ≠ (slot - 1) / 2 := by omega
        simp only [if_true,Option.some.injEq,if_neg different] at foundLower foundUpper
        subst foundLower
        exact above.grandchildren b bestEntry upper (by omega) positive (by omega) foundBest foundUpper
      · rw [if_neg isSlot] at foundLower
        by_cases under : slot = (i - 1) / 2
        · simp only [← under,if_true,Option.some.injEq] at foundUpper
          subst foundUpper
          exact most lower i (by omega) foundLower
        · rw [if_neg under] at foundUpper
          exact above.away i lower upper positive (Ne.symm under) foundLower foundUpper
  · intro i lower upper positive _ under foundLower foundUpper
    rw [get] at foundLower foundUpper
    have parentSlot : slot = (b - 1) / 2 := by omega
    have different : b ≠ slot := by omega
    simp only [← parentSlot,if_neg different,if_true,Option.some.injEq] at foundUpper
    subst foundUpper
    have notBest : b ≠ i := by omega
    have notSlot : slot ≠ i := by omega
    rw [if_neg notBest,if_neg notSlot] at foundLower
    exact above.away i lower bestEntry positive (by omega) foundLower (under ▸ foundBest)

theorem siftDown_ordered (above : OrderedAbove heap slot) :
    Ordered (siftDown heap slot) := by
  induction heap, slot using siftDown.induct with
  | case1 heap slot absent =>
    unfold siftDown
    split
    · intro i entry parent positive found foundParent
      refine above.away i entry parent positive ?_ found foundParent
      rintro rfl
      rw [absent] at foundParent; cases foundParent
    · rename_i entry here; rw [absent] at here; cases here
  | case2 heap slot entry here done =>
    unfold siftDown
    split
    · rename_i absent; rw [here] at absent; cases absent
    · rename_i other same
      cases here.symm.trans same
      rw [dif_pos done]
      obtain ⟨-,place,most⟩ := largest_cases here
      intro i lower upper positive found foundParent
      by_cases under : (i - 1) / 2 = slot
      · rcases place with ⟨-,value⟩ | ⟨child,-⟩
        · have := most lower i (by omega) found
          rw [under,here] at foundParent
          cases foundParent
          exact value ▸ this
        · omega
      · exact above.away i lower upper positive under found foundParent
  | case3 heap slot entry here moves ih =>
    unfold siftDown
    split
    · rename_i absent; rw [here] at absent; cases absent
    · rename_i other same
      cases here.symm.trans same
      rw [dif_neg moves]
      exact ih (orderedAbove_child above here moves)

theorem siftDown_perm (heap : List (HeapEntry ι κ)) (slot : Nat) : (siftDown heap slot).Perm heap := by
  induction heap, slot using siftDown.induct with
  | case1 heap slot absent =>
    unfold siftDown
    split
    · exact List.Perm.refl _
    · rename_i entry here; rw [absent] at here; cases here
  | case2 heap slot entry here done =>
    unfold siftDown
    split
    · exact List.Perm.refl _
    · rename_i other same; cases here.symm.trans same; rw [dif_pos done]
  | case3 heap slot entry here moves ih =>
    unfold siftDown
    split
    · exact List.Perm.refl _
    · rename_i other same
      cases here.symm.trans same
      rw [dif_neg moves]
      refine ih.trans ?_
      obtain ⟨inside,value⟩ := List.getElem?_eq_some_iff.mp here
      obtain ⟨insideBest,valueBest⟩ := List.getElem?_eq_some_iff.mp (largest_cases here).1
      have exchange := set_set_perm inside insideBest
      rwa [value,valueBest] at exchange

theorem dropHeapTop_spec {top : HeapEntry ι κ} {rest : List (HeapEntry ι κ)}
    (shape : heap = top :: rest) (ordered : Ordered heap) :
    Ordered (dropHeapTop heap) ∧ (top :: dropHeapTop heap).Perm heap := by
  subst shape
  rcases eq_nil_or_concat rest with rfl | ⟨middle,last,rfl⟩
  · simp [dropHeapTop,Ordered]
  · have value : dropHeapTop (top :: (middle ++ [last])) = siftDown (last :: middle) 0 := by
      have final : (top :: (middle ++ [last])).getLast? = some last := by
        rw [← cons_append]; exact List.getLast?_concat
      have start : (top :: (middle ++ [last])).dropLast = top :: middle := by
        rw [← cons_append]; exact dropLast_concat
      simp [dropHeapTop,final,start]
    rw [concat_eq_append,value]
    constructor
    · refine siftDown_ordered ⟨?_,fun _ _ _ _ positive => absurd positive (lt_irrefl 0)⟩
      intro i lower upper positive apart foundLower foundUpper
      obtain ⟨j,rfl⟩ : ∃ j, i = j + 1 := ⟨i - 1,by omega⟩
      obtain ⟨k,parent⟩ : ∃ k, (j + 1 - 1) / 2 = k + 1 := ⟨(j + 1 - 1) / 2 - 1,by omega⟩
      rw [parent] at foundUpper
      refine ordered (j + 1) lower upper positive ?_ ?_
      · have bound := (List.getElem?_eq_some_iff.mp foundLower).1
        simp only [length_cons] at bound
        rw [concat_eq_append,List.getElem?_cons_succ,List.getElem?_append_left (by omega)]
        exact foundLower
      · have bound := (List.getElem?_eq_some_iff.mp foundUpper).1
        simp only [length_cons] at bound
        rw [parent,concat_eq_append,List.getElem?_cons_succ,List.getElem?_append_left (by omega)]
        exact foundUpper
    · refine List.Perm.cons top ((siftDown_perm _ _).trans ?_)
      exact perm_append_singleton last middle |>.symm

theorem length_dropHeapTop (heap : List (HeapEntry ι κ)) : (dropHeapTop heap).length = heap.length - 1 := by
  rcases eq_nil_or_concat heap with rfl | ⟨initial,last,rfl⟩
  · simp [dropHeapTop]
  · simp only [dropHeapTop,concat_eq_append,List.getLast?_concat,dropLast_concat]
    split
    · rename_i only; simp [only]
    · rw [(siftDown_perm _ _).length_eq]; simp

theorem ordered_top {top : HeapEntry ι κ} (ordered : Ordered heap)
    (first : heap[0]? = some top) : ∀ entry ∈ heap, entry.key ≤ top.key := by
  have at_index : ∀ (i : Nat) (entry : HeapEntry ι κ), heap[i]? = some entry → entry.key ≤ top.key := by
    intro i
    induction i using Nat.strongRecOn with
    | _ i ih =>
      intro entry found
      rcases Nat.eq_zero_or_pos i with rfl | positive
      · cases first.symm.trans found; exact le_refl _
      · have smaller : (i - 1) / 2 < i := by omega
        have inside : (i - 1) / 2 < heap.length := lt_trans smaller (List.getElem?_eq_some_iff.mp found).1
        have parent : heap[(i - 1) / 2]? = some heap[(i - 1) / 2] := List.getElem?_eq_getElem inside
        exact le_trans (ordered i entry _ positive found parent) (ih _ smaller _ parent)
  intro entry member
  obtain ⟨i,bound,value⟩ := getElem_of_mem member
  exact at_index i entry (List.getElem?_eq_some_iff.mpr ⟨bound,value⟩)

variable [DecidableEq ι]

def set (h : LazyHeap ι κ) (index : ι) (key : κ) : LazyHeap ι κ :=
  let entry : HeapEntry ι κ := ⟨index,key,h.stamp⟩
  ⟨h.live.put index entry,siftUp (h.heap ++ [entry]) h.heap.length entry,h.stamp + 1⟩

def delete (h : LazyHeap ι κ) (index : ι) : LazyHeap ι κ := { h with live := h.live.remove index }

def size (h : LazyHeap ι κ) : Nat := h.live.length

def settle (live : OrderedMap ι (HeapEntry ι κ)) (heap : List (HeapEntry ι κ)) : List (HeapEntry ι κ) :=
  match heap with
  | [] => []
  | top :: rest => if live.find top.index = some top then top :: rest else settle live (dropHeapTop (top :: rest))
termination_by heap.length
decreasing_by simp [length_dropHeapTop]

/-- The index with the largest key, and the heap without the stale entries above it. -/
def newestIndex (h : LazyHeap ι κ) : Option ι × LazyHeap ι κ :=
  let heap := settle h.live h.heap
  (heap.head?.map HeapEntry.index,{ h with heap := heap })

/-- The heap holds exactly these keys. -/
structure Represents (h : LazyHeap ι κ) (keys : ι → Option κ) : Prop where
  ordered : Ordered h.heap
  present : ∀ i entry, h.live.find i = some entry → entry ∈ h.heap ∧ entry.index = i
  distinct : h.live.keys.Nodup
  value : ∀ i, (h.live.find i).map HeapEntry.key = keys i

theorem represents_empty : Represents ({} : LazyHeap ι κ) (fun _ => none) where
  ordered := by simp [Ordered]
  present := by simp
  distinct := by simp [OrderedMap.keys]
  value := by simp

variable {h : LazyHeap ι κ} {keys : ι → Option κ}

theorem represents_set (rep : Represents h keys) (index : ι) (key : κ) :
    Represents (h.set index key) (fun i => if index = i then some key else keys i) where
  ordered := by
    refine siftUp_ordered ⟨?_,?_,?_⟩
    · intro i lower upper positive _ _ foundLower foundUpper
      have bound := (List.getElem?_eq_some_iff.mp foundLower).1
      simp only [length_append,length_singleton] at bound
      have inside : i < h.heap.length := by omega
      rw [List.getElem?_append_left inside] at foundLower
      rw [List.getElem?_append_left (by omega)] at foundUpper
      exact rep.ordered i lower upper positive foundLower foundUpper
    · intro i lower positive under found
      have bound := (List.getElem?_eq_some_iff.mp found).1
      simp only [length_append,length_singleton] at bound
      omega
    · intro i lower upper positive _ under found _
      have bound := (List.getElem?_eq_some_iff.mp found).1
      simp only [length_append,length_singleton] at bound
      omega
  present i entry found := by
    have rearranged : (h.set index key).heap.Perm (h.heap ++ [⟨index,key,h.stamp⟩]) := by
      refine (siftUp_perm (by simp)).trans ?_
      simp
    rw [rearranged.mem_iff]
    simp only [set,find_put] at found
    split at found
    · rename_i same; cases found; exact ⟨by simp,same⟩
    · obtain ⟨member,same⟩ := rep.present i entry found
      exact ⟨mem_append_left _ member,same⟩
  distinct := nodup_put rep.distinct _ _
  value i := by
    simp only [set,find_put]
    split
    · rfl
    · exact rep.value i

theorem represents_delete (rep : Represents h keys) (index : ι) :
    Represents (h.delete index) (fun i => if index = i then none else keys i) where
  ordered := rep.ordered
  present i entry found := by
    simp only [delete,find_remove] at found
    split at found
    · cases found
    · exact rep.present i entry found
  distinct := nodup_remove rep.distinct _
  value i := by
    simp only [delete,find_remove]
    split
    · rfl
    · exact rep.value i

theorem settle_spec {live : OrderedMap ι (HeapEntry ι κ)} (ordered : Ordered heap)
    (present : ∀ i entry, live.find i = some entry → entry ∈ heap ∧ entry.index = i) :
    Ordered (settle live heap) ∧ (∀ i entry, live.find i = some entry → entry ∈ settle live heap ∧ entry.index = i) ∧
      (∀ top, (settle live heap).head? = some top → live.find top.index = some top) := by
  induction heap using settle.induct live with
  | case1 => simpa [settle,ordered] using present
  | case2 top rest fresh =>
    have value : settle live (top :: rest) = top :: rest := by unfold settle; rw [if_pos fresh]
    rw [value]
    exact ⟨ordered,present,by rintro _ ⟨⟩; exact fresh⟩
  | case3 top rest stale ih =>
    have value : settle live (top :: rest) = settle live (dropHeapTop (top :: rest)) := by
      conv_lhs => unfold settle
      rw [if_neg stale]
    obtain ⟨dropped,others⟩ := dropHeapTop_spec rfl ordered
    rw [value]
    refine ih dropped ?_
    intro i entry found
    obtain ⟨member,same⟩ := present i entry found
    refine ⟨?_,same⟩
    rcases mem_cons.mp (others.mem_iff.mpr member) with rfl | member
    · exact absurd (same ▸ found) stale
    · exact member

theorem newestIndex_spec (rep : Represents h keys) :
    Represents h.newestIndex.2 keys ∧
      match h.newestIndex.1 with
      | none => ∀ i, keys i = none
      | some i => ∃ key, keys i = some key ∧ ∀ j other, keys j = some other → other ≤ key := by
  obtain ⟨ordered,present,fresh⟩ := settle_spec rep.ordered rep.present
  refine ⟨⟨ordered,present,rep.distinct,rep.value⟩,?_⟩
  simp only [newestIndex]
  match shape : settle h.live h.heap with
  | [] =>
    intro i
    rw [← rep.value i]
    cases found : h.live.find i with
    | none => rfl
    | some entry =>
      have member := (present i entry found).1
      rw [shape] at member; cases member
  | top :: rest =>
    have live := fresh top (by rw [shape]; rfl)
    refine ⟨top.key,by rw [← rep.value,live]; rfl,?_⟩
    intro j other holds
    rw [← rep.value j,Option.map_eq_some_iff] at holds
    obtain ⟨entry,found,rfl⟩ := holds
    exact ordered_top ordered (by rw [shape]; rfl) entry (present j entry found).1

theorem size_pos (rep : Represents h keys) :
    0 < h.size ↔ ∃ i, (keys i).isSome := by
  simp only [size,length_pos,← rep.value,Option.isSome_map]

theorem one_lt_size (rep : Represents h keys) :
    1 < h.size ↔ ∃ i j, i ≠ j ∧ (keys i).isSome ∧ (keys j).isSome := by
  simp only [size,one_lt_length rep.distinct,← rep.value,Option.isSome_map]

end LazyHeap
end CodexMultiAuth
