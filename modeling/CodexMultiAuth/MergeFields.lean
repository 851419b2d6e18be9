import Mathlib.Algebra.Order.Ring.Rat
import CodexMultiAuth.SnapshotMerge

/-!
What a three-way merge owes its sides (the side that kept the base has no say, what
either side removed is gone, what either side added is there), and what the merge of one
account does to each of its fields. The observations have rules of their own.
-/
namespace CodexMultiAuth

open OrderedMap OrderedMap

section
universe u v

/-- Where only one side changed the value, its value is merged. -/
structure ThreeWay {α : Type u} (base disk loc merged : α) : Prop where
  locKept : loc = base → merged = disk
  diskKept : disk = base → merged = loc

/-- Both sides changed the value, and differently. -/
def Diverged {α : Type u} (base disk loc : α) : Prop := base ≠ disk ∧ base ≠ loc ∧ disk ≠ loc

variable {α : Type u} {β : Type v} {base disk loc merged : α}

theorem ThreeWay.map (merge : ThreeWay base disk loc merged) (read : α → β)
    (locSees : read loc = read base → loc = base) (diskSees : read disk = read base → disk = base) :
    ThreeWay (read base) (read disk) (read loc) (read merged) where
  locKept same := congrArg read (merge.locKept (locSees same))
  diskKept same := congrArg read (merge.diskKept (diskSees same))

/-- Whether something is there after the merge. -/
def Present (base disk loc : Prop) : Prop := (base → disk ∧ loc) ∧ (disk ∨ loc)

theorem present_base {base disk loc : Prop} (known : base) : Present base disk loc ↔ disk ∧ loc :=
  ⟨fun here => here.1 known,fun both => ⟨fun _ => both,.inl both.1⟩⟩

theorem present_threeWay (base disk loc : Prop) : ThreeWay base disk loc (Present base disk loc) where
  locKept same := by
    subst same
    by_cases known : loc <;> simp [Present,known]
  diskKept same := by
    subst same
    by_cases known : disk <;> simp [Present,known]

end

/-! ### Any JSON value -/

variable {base disk loc : Option Json}

private theorem mergeLevel_congr {f g : Option Json → Option Json → Option Json → Except StorageError (Option Json)}
    (same : ∀ d k, disk = some (.obj d) → ∀ b l, f b (find d k) l = g b (find d k) l) :
    mergeLevel f base disk loc = mergeLevel g base disk loc := by
  unfold mergeLevel
  split
  · rfl
  · split
    · rfl
    · split
      · rename_i b d l _ onDisk _
        rw [build_congr (fun k _ => same d k rfl _ _)]
      · rfl

private theorem mergeValueTo_eq {depth : Nat} (enough : (disk.map Json.depth).getD 0 ≤ depth)
    (base loc : Option Json) : mergeValueTo depth base disk loc = mergeValue base disk loc := by
  unfold mergeValue
  induction depth using Nat.strongRecOn generalizing base disk loc with
  | _ depth ih =>
    rcases Nat.eq_or_lt_of_le enough with equal | less
    · rw [equal]
    · -- Both descend through the same fields, each of which is less deep.
      obtain ⟨depth,rfl⟩ : ∃ n, depth = n + 1 := ⟨depth - 1,by omega⟩
      have field : ∀ d k, disk = some (.obj d) → ((find d k).map Json.depth).getD 0 < (disk.map Json.depth).getD 0 := by
        rintro d k rfl
        cases found : find d k with
        | none => simp [Json.depth]
        | some value => simpa using Json.depth_field found
      cases own : (disk.map Json.depth).getD 0 with
      | zero =>
        simp only [mergeValueTo]
        refine mergeLevel_congr ?_
        intro d k onDisk b l
        have := field d k onDisk
        omega
      | succ n =>
        simp only [mergeValueTo]
        refine mergeLevel_congr ?_
        intro d k onDisk b l
        have shallow := field d k onDisk
        rw [ih depth (by omega) (by omega) b l]
        exact (ih n (by omega) (by omega) b l).symm

theorem mergeValue_eq (base disk loc : Option Json) : mergeValue base disk loc = mergeLevel mergeValue base disk loc := by
  have shallow : ∀ d k, disk = some (.obj d) → ((find d k).map Json.depth).getD 0 < (disk.map Json.depth).getD 0 := by
    rintro d k rfl
    cases found : find d k with
    | none => simp [Json.depth]
    | some value => simpa using Json.depth_field found
  rw [← mergeValueTo_eq (Nat.le_succ _) base loc]
  simp only [mergeValueTo]
  refine mergeLevel_congr ?_
  intro d k onDisk b l
  exact mergeValueTo_eq (Nat.le_of_lt (shallow d k onDisk)) b l

theorem mergeValue_settled (settled : ¬ Diverged base disk loc) :
    mergeValue base disk loc = .ok (if base = loc ∨ disk = loc then disk else loc) := by
  rw [mergeValue_eq]
  unfold mergeLevel
  split
  · rfl
  · rename_i changed
    rw [not_or] at changed
    have kept : base = disk := by
      by_contra different
      exact settled ⟨different,changed.1,changed.2⟩
    rw [if_pos kept]

theorem mergeValue_same (base value : Option Json) : mergeValue base value value = .ok value := by
  rw [mergeValue_settled (fun diverged => diverged.2.2 rfl)]; simp

variable {merged : Option Json}

theorem mergeValue_threeWay (done : mergeValue base disk loc = .ok merged) :
    ThreeWay base disk loc merged := by
  by_cases diverged : Diverged base disk loc
  · exact ⟨fun same => absurd same.symm diverged.2.1,fun same => absurd same.symm diverged.1⟩
  · rw [mergeValue_settled diverged,Except.ok.injEq] at done
    subst done
    refine ⟨fun same => by simp [same],fun same => ?_⟩
    subst same
    by_cases equal : disk = loc <;> simp [equal]

theorem mergeValue_error {e : StorageError} (failed : mergeValue base disk loc = .error e) :
    Diverged base disk loc := by
  by_contra settled
  rw [mergeValue_settled settled] at failed
  cases failed

theorem mergeValue_objects_ok {base : Option Record} {disk loc : Record}
    (done : mergeValue (base.map .obj) (some (.obj disk)) (some (.obj loc)) = .ok merged) :
    ∃ result : Record, merged = some (.obj result) ∧
      ∀ k, mergeValue (base.bind (fun b => b.find k)) (disk.find k) (loc.find k) = .ok (result.find k) := by
  rw [mergeValue_eq] at done
  unfold mergeLevel at done
  by_cases keptLocal : base.map Json.obj = some (Json.obj loc) ∨ some (Json.obj disk) = some (Json.obj loc)
  · rw [if_pos keptLocal,Except.ok.injEq] at done
    refine ⟨disk,done.symm,fun k => ?_⟩
    rcases keptLocal with same | same
    · obtain ⟨b,rfl,same⟩ := Option.map_eq_some_iff.mp same
      cases same
      rw [Option.bind_some,mergeValue_settled (fun diverged => diverged.2.1 rfl)]; simp
    · cases same
      exact mergeValue_same _ _
  · rw [if_neg keptLocal] at done
    by_cases keptDisk : base.map Json.obj = some (Json.obj disk)
    · rw [if_pos keptDisk,Except.ok.injEq] at done
      refine ⟨loc,done.symm,fun k => ?_⟩
      obtain ⟨b,rfl,same⟩ := Option.map_eq_some_iff.mp keptDisk
      cases same
      rw [Option.bind_some,mergeValue_settled (fun diverged => diverged.1 rfl)]
      by_cases same : disk.find k = loc.find k <;> simp [same]
    · rw [if_neg keptDisk] at done
      have before : (base.map Json.obj).or (some (.obj [])) = some (.obj (base.getD [])) := by cases base <;> rfl
      have field : ∀ k, find (base.getD []) k = base.bind (fun b => b.find k) := by intro k; cases base <;> rfl
      simp only [before,field] at done
      cases built : build (fun k => mergeValue (base.bind (fun b => b.find k)) (disk.find k) (loc.find k))
          (unionKeys [keys (base.getD []),disk.keys,loc.keys]) with
      | error e => simp [built] at done
      | ok result =>
        simp only [built,Except.ok.injEq] at done
        refine ⟨result,done.symm,fun k => ?_⟩
        obtain ⟨values,absent⟩ := build_ok (nodup_unionKeys _) built
        by_cases known : k ∈ unionKeys [keys (base.getD []),disk.keys,loc.keys]
        · exact values k known
        · rw [absent k known]
          simp only [mem_unionKeys,List.mem_cons,List.not_mem_nil,or_false,exists_eq_or_imp,exists_eq_left,
            not_or,← find_eq_none,field] at known
          rw [known.1,known.2.1,known.2.2]
          exact mergeValue_same none none

theorem mergeValue_objects_error {base : Option Record} {disk loc : Record} {e : StorageError}
    (failed : mergeValue (base.map .obj) (some (.obj disk)) (some (.obj loc)) = .error e) :
    ∃ k, mergeValue (base.bind (fun b => b.find k)) (disk.find k) (loc.find k) = .error e := by
  rw [mergeValue_eq] at failed
  unfold mergeLevel at failed
  split at failed
  · cases failed
  · split at failed
    · cases failed
    · have before : (base.map Json.obj).or (some (.obj [])) = some (.obj (base.getD [])) := by cases base <;> rfl
      have field : ∀ k, find (base.getD []) k = base.bind (fun b => b.find k) := by intro k; cases base <;> rfl
      simp only [before,field] at failed
      split at failed
      · rename_i built
        cases failed
        obtain ⟨k,-,wrong⟩ := build_error built
        exact ⟨k,wrong⟩
      · cases failed

theorem mergeRecord_ok {base disk loc merged : Record} (done : mergeRecord base disk loc = .ok merged) (k : String) :
    mergeValue (base.find k) (disk.find k) (loc.find k) = .ok (merged.find k) := by
  simp only [mergeRecord] at done
  split at done
  · cases done
  · rename_i value finished
    obtain ⟨result,rfl,fields⟩ := @mergeValue_objects_ok _ (some base) _ _ finished
    cases done
    exact fields k

theorem mergeRecord_error {base disk loc : Record} {e : StorageError} (failed : mergeRecord base disk loc = .error e) :
    ∃ k, mergeValue (base.find k) (disk.find k) (loc.find k) = .error e := by
  simp only [mergeRecord] at failed
  split at failed
  · rename_i bad
    cases failed
    exact @mergeValue_objects_error (some base) _ _ _ bad
  · cases failed

theorem mergeRecord_kept (base disk : Record) : mergeRecord base disk base = .ok disk := by
  rw [mergeRecord,mergeValue_settled (fun diverged => diverged.2.1 rfl)]
  simp [Json.asRecord]

section
variable (done : mergeValue base disk loc = .ok merged)
include done

/-- A merged value is the disk's, or the writer's where the disk kept the base,
    or all three are objects. -/
theorem mergeValue_cases :
    ((base = loc ∨ disk = loc) ∧ merged = disk) ∨ (base = disk ∧ merged = loc) ∨
      ∃ m d l : Record, merged = some (.obj m) ∧ disk = some (.obj d) ∧ loc = some (.obj l) ∧ Diverged base disk loc := by
  rw [mergeValue_eq] at done
  unfold mergeLevel at done
  split at done
  · rename_i kept
    cases done; exact .inl ⟨kept,rfl⟩
  · rename_i changed
    rw [not_or] at changed
    split at done
    · rename_i kept
      cases done; exact .inr (.inl ⟨kept,rfl⟩)
    · rename_i diverged
      split at done
      · split at done
        · cases done
        · cases done
          exact .inr (.inr ⟨_,_,_,rfl,rfl,rfl,diverged,changed.1,changed.2⟩)
      · cases done

theorem mergeValue_text
    (same : disk.bind Json.asText = loc.bind Json.asText) : merged.bind Json.asText = disk.bind Json.asText := by
  rcases mergeValue_cases done with ⟨-,rfl⟩ | ⟨-,rfl⟩ | ⟨m,d,l,rfl,rfl,rfl,-⟩
  · rfl
  · exact same.symm
  · rfl

theorem mergeValue_plain
    (plain : disk.bind Json.asRecord = none) : ¬ Diverged base disk loc := by
  rintro ⟨onDisk,onLocal,apart⟩
  rcases mergeValue_cases done with ⟨kept | same,-⟩ | ⟨kept,-⟩ | ⟨m,d,l,rfl,rfl,rfl,-⟩
  · exact onLocal kept
  · exact apart same
  · exact onDisk kept
  · simp [Json.asRecord] at plain

end

/-- The side whose value is merged. What both sides changed has no side. -/
def pickField (base disk loc : Option Json) : Option Json :=
  if base = loc ∨ disk = loc then disk else if base = disk then loc else none

theorem mergeValue_pick (done : mergeValue base disk loc = .ok merged) :
    merged.bind Json.asText = (pickField base disk loc).bind Json.asText := by
  unfold pickField
  rcases mergeValue_cases done with ⟨kept,rfl⟩ | ⟨kept,rfl⟩ | ⟨m,d,l,rfl,rfl,rfl,onDisk,onLocal,apart⟩
  · rw [if_pos kept]
  · rw [if_pos kept]
    split
    · rename_i same
      rcases same with same | same
      · rw [← kept,same]
      · rw [same]
    · rfl
  · rw [if_neg (not_or.mpr ⟨onLocal,apart⟩),if_neg onDisk]
    rfl

theorem mergeRateLimit_threeWay (base disk loc : Option Json) : ThreeWay base disk loc (mergeRateLimit base disk loc) where
  locKept same := by
    subst same
    unfold mergeRateLimit
    by_cases kept : disk = loc
    · subst kept; by_cases gone : disk = none <;> simp [gone]
    · by_cases gone : disk = none
      · subst gone; simp [kept,Ne.symm kept]
      · simp [kept,gone]
  diskKept same := by
    subst same
    unfold mergeRateLimit
    by_cases gone : loc = none
    · subst gone; simp
    · by_cases known : disk = none <;> simp [gone,known]

theorem mergeRateLimit_later (onDisk : disk ≠ base) (onLocal : loc ≠ base)
    (either : disk ≠ none ∨ loc ≠ none) :
    mergeRateLimit base disk loc = some (.num (max (numberOrZero disk) (numberOrZero loc))) := by
  unfold mergeRateLimit
  rw [if_neg]
  · simp [onDisk,onLocal]
  · rintro ⟨-,⟨-,same⟩ | ⟨-,same⟩ | ⟨noDisk,noLocal⟩⟩
    · exact onLocal same
    · exact onDisk same
    · rcases either with h | h
      · exact h noDisk
      · exact h noLocal

theorem find_mergeRateLimits (base disk loc : Record) (k : String) :
    (mergeRateLimits base disk loc).find k = mergeRateLimit (base.find k) (disk.find k) (loc.find k) := by
  rw [mergeRateLimits,find_tabulate]
  split
  · rfl
  · rename_i absent
    simp only [mem_unionKeys,List.mem_cons,List.not_mem_nil,or_false,exists_eq_or_imp,exists_eq_left,not_or,
      ← find_eq_none] at absent
    rw [absent.1,absent.2]
    by_cases known : base.find k = none <;> simp [mergeRateLimit,known]

/-- What the merge of the cooldown owes the two sides while the credential stays. -/
structure CooldownMerged (base disk loc : CooldownRow) (merged : Option Json × Option Json) : Prop where
  unchanged : (disk.coolingDownUntil,disk.cooldownReason) = (base.coolingDownUntil,base.cooldownReason) →
    (loc.coolingDownUntil,loc.cooldownReason) = (base.coolingDownUntil,base.cooldownReason) →
    merged = (base.coolingDownUntil,base.cooldownReason)
  /-- A deadline that one side cleared while the other kept it is cleared. -/
  cleared : base.coolingDownUntil ≠ none →
    (disk.coolingDownUntil = none ∧ loc.coolingDownUntil = base.coolingDownUntil) ∨
      (loc.coolingDownUntil = none ∧ disk.coolingDownUntil = base.coolingDownUntil) → merged = (none,none)
  /-- A deadline that the disk did not lower is the disk's. -/
  diskRaised : loc.coolingDownUntil = base.coolingDownUntil → disk.coolingDownUntil ≠ none →
    numberOrZero base.coolingDownUntil ≤ numberOrZero disk.coolingDownUntil →
    merged = (disk.coolingDownUntil,disk.cooldownReason)
  /-- A deadline that the writer raised is the writer's. -/
  locRaised : disk.coolingDownUntil = base.coolingDownUntil → loc.coolingDownUntil ≠ none →
    numberOrZero base.coolingDownUntil < numberOrZero loc.coolingDownUntil →
    merged = (loc.coolingDownUntil,loc.cooldownReason)
  /-- Of two deadlines the later one is kept. -/
  later : disk.coolingDownUntil ≠ none → loc.coolingDownUntil ≠ none →
    numberOrZero merged.1 = max (numberOrZero disk.coolingDownUntil) (numberOrZero loc.coolingDownUntil)

theorem mergeAccountCooldown_merged {base disk loc : CooldownRow} (onLocal : loc.refreshToken = base.refreshToken)
    (current : loc.cooldownReason = some (.str "auth-failure") → disk.refreshToken = base.refreshToken) :
    CooldownMerged base disk loc (mergeAccountCooldown base disk loc) := by
  have value : mergeAccountCooldown base disk loc =
      if base.coolingDownUntil ≠ none ∧
        ((disk.coolingDownUntil = none ∧ (loc.coolingDownUntil = none ∨ loc.coolingDownUntil = base.coolingDownUntil)) ∨
          (loc.coolingDownUntil = none ∧ disk.coolingDownUntil = base.coolingDownUntil)) then (none,none)
      else if numberOrZero loc.coolingDownUntil ≤ numberOrZero disk.coolingDownUntil then (disk.coolingDownUntil,disk.cooldownReason)
      else (loc.coolingDownUntil,loc.cooldownReason) := by
    have own : ¬ (loc.cooldownReason = some (.str "auth-failure") ∧ base.refreshToken ≠ disk.refreshToken) :=
      fun obsolete => obsolete.2 (current obsolete.1).symm
    simp only [mergeAccountCooldown,onLocal,if_true,ne_eq,not_true_eq_false,and_false,if_false,if_neg own]
    split
    · rfl
    · split <;> rfl
  rw [value]
  obtain ⟨untilB,reasonB,tokenB⟩ := base
  obtain ⟨untilD,reasonD,tokenD⟩ := disk
  obtain ⟨untilL,reasonL,tokenL⟩ := loc
  constructor
  · simp only [Prod.mk.injEq]
    rintro ⟨rfl,rfl⟩ ⟨rfl,rfl⟩
    by_cases known : untilL = none <;> simp [known]
  · rintro known (⟨rfl,rfl⟩ | ⟨rfl,rfl⟩) <;> simp_all
  · rintro rfl known raised
    simp only at known raised
    rw [if_neg (by simp_all),if_pos raised]
  · rintro rfl known raised
    simp only at known raised
    rw [if_neg (by simp_all),if_neg (not_le.mpr raised)]
  · intro onDisk inPool
    simp only at onDisk inPool
    rw [if_neg (by simp [onDisk,inPool])]
    split
    · rename_i less; exact (max_eq_left less).symm
    · rename_i more; exact (max_eq_right (le_of_lt (not_le.mp more))).symm

end CodexMultiAuth
