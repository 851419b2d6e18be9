import CodexMultiAuth.ToolSteps

/-!
Copies of plain data and the scan. A copy differs from its original only in who
made its objects, which neither the steps nor the scan look at. Where the scan
finds nothing to change, cleaning a value gives the value back.
-/
namespace CodexMultiAuth.ToolSchema
set_option linter.unusedSectionVars false

namespace Value

theorem relabelItems_eq (items : List Value) : relabelItems items = items.map relabel := by
  induction items with
  | nil => rfl
  | cons item items ih => rw [relabelItems,ih,List.map_cons]

theorem relabelFields_eq (fields : List (String × Value)) : relabelFields fields = fields.map (fun field => (field.1,relabel field.2)) := by
  induction fields with
  | nil => rfl
  | cons field fields ih => rw [relabelFields,ih,List.map_cons]

theorem cloneItems_eq (items : List Value) : cloneItems items = items.map cloneRecord := by
  induction items with
  | nil => rfl
  | cons item items ih => rw [cloneItems,ih,List.map_cons]

theorem cloneFields_eq (fields : List (String × Value)) : cloneFields fields = fields.map (fun field => (field.1,cloneRecord field.2)) := by
  induction fields with
  | nil => rfl
  | cons field fields ih => rw [cloneFields,ih,List.map_cons]

def copyFields (copy : Value → Value) (fields : List (String × Value)) : List (String × Value) := fields.map (fun field => (field.1,copy field.2))

theorem copyFields_relabel (fields : List (String × Value)) : copyFields relabel fields = relabelFields fields := (relabelFields_eq fields).symm

theorem find_copyFields (copy : Value → Value) (fields : Fields) (key : String) :
    OrderedMap.find (copyFields copy fields) key = (fields.find key).map copy := by
  induction fields with
  | nil => rfl
  | cons field fields ih =>
    rw [copyFields,List.map_cons,OrderedMap.find_cons,OrderedMap.find_cons]
    split
    · rfl
    · exact ih

theorem keys_copyFields (copy : Value → Value) (fields : List (String × Value)) : (copyFields copy fields).map Prod.fst = fields.map Prod.fst := by
  simp [copyFields,Function.comp_def]

/-- A copy that makes every list and object anew, and may lose the sign of a zero. -/
structure Rebuilds (copy : Value → Value) : Prop where
  flat : ∀ value, value.depth = 0 → copy value = value ∨ value = .negativeZero ∧ copy value = .num 0
  arr : ∀ owner items, copy (.arr owner items) = .arr .own (items.map copy)
  obj : ∀ owner fields, copy (.obj owner fields) = .obj .own (copyFields copy fields)

theorem rebuilds_relabel : Rebuilds relabel where
  flat value flat := by
    cases value with
    | arr | obj => cases flat
    | _ => exact Or.inl rfl
  arr _ items := by rw [relabel,relabelItems_eq]
  obj _ fields := by rw [relabel,copyFields_relabel]

theorem rebuilds_cloneRecord : Rebuilds cloneRecord where
  flat value flat := by
    cases value with
    | arr | obj => cases flat
    | negativeZero => exact Or.inr ⟨rfl,rfl⟩
    | _ => exact Or.inl rfl
  arr _ items := by rw [cloneRecord,cloneItems_eq]
  obj _ fields := by rw [cloneRecord,cloneFields_eq,copyFields]

namespace Rebuilds
variable {copy : Value → Value} (rebuilds : Rebuilds copy)
include rebuilds

theorem same {β : Type} {f : Value → β} (zero : f (.num 0) = f .negativeZero) {value : Value} (flat : value.depth = 0) :
    f (copy value) = f value := by
  rcases rebuilds.flat value flat with same | ⟨rfl,same⟩
  · rw [same]
  · rw [same,zero]

mutual
theorem depth_eq : ∀ value, (copy value).depth = value.depth
  | .null | .bool _ | .num _ | .negativeZero | .str _ => rebuilds.same rfl rfl
  | .arr _ items => by rw [rebuilds.arr,depth,depth,depthItems_eq items]
  | .obj _ fields => by rw [rebuilds.obj,depth,depth,depthFields_eq fields]
theorem depthItems_eq : ∀ items, depthItems (items.map copy) = depthItems items
  | [] => rfl
  | item :: items => congrArg₂ max (depth_eq item) (depthItems_eq items)
theorem depthFields_eq : ∀ fields, depthFields (copyFields copy fields) = depthFields fields
  | [] => rfl
  | field :: fields => congrArg₂ max (depth_eq field.2) (depthFields_eq fields)
end

mutual
theorem distinct : ∀ value, (copy value).Distinct ↔ value.Distinct
  | .null | .bool _ | .num _ | .negativeZero | .str _ => iff_of_eq (rebuilds.same rfl rfl)
  | .arr _ items => by
    rw [rebuilds.arr,Distinct,Distinct]
    exact distinctItems items
  | .obj _ fields => by rw [rebuilds.obj,Distinct,Distinct,keys_copyFields,distinctFields fields]
theorem distinctItems : ∀ items, DistinctItems (items.map copy) ↔ DistinctItems items
  | [] => Iff.rfl
  | item :: items => and_congr (distinct item) (distinctItems items)
theorem distinctFields : ∀ fields, DistinctFields (copyFields copy fields) ↔ DistinctFields fields
  | [] => Iff.rfl
  | field :: fields => and_congr (distinct field.2) (distinctFields fields)
end

mutual
theorem nodes : ∀ (value : Value) (mode : Mode), schemaNodes mode (copy value) = (schemaNodes mode value).map (copyFields copy)
  | .null,_ | .bool _,_ | .num _,_ | .negativeZero,_ | .str _,_ => rebuilds.same rfl rfl
  | .arr _ items,mode => by rw [rebuilds.arr,schemaNodes,schemaNodes,nodesItems items]
  | .obj _ fields,mode => by
    rw [rebuilds.obj,schemaNodes,schemaNodes,nodesFields fields,List.map_append]
    split <;> rfl
theorem nodesItems : ∀ (items : List Value) (mode : Mode),
    schemaNodesItems mode (items.map copy) = (schemaNodesItems mode items).map (copyFields copy)
  | [],_ => rfl
  | item :: items,mode => by rw [List.map_cons,schemaNodesItems,schemaNodesItems,nodes item,nodesItems items,List.map_append]
theorem nodesFields : ∀ (fields : List (String × Value)) (mode : Mode),
    schemaNodesFields mode (copyFields copy fields) = (schemaNodesFields mode fields).map (copyFields copy)
  | [],_ => rfl
  | field :: fields,mode => by
    rw [copyFields,List.map_cons,schemaNodesFields,schemaNodesFields,nodes field.2,← copyFields,nodesFields fields,List.map_append]
end

end Rebuilds

mutual
theorem relabel_relabel : ∀ value, relabel (relabel value) = relabel value
  | .null | .bool _ | .num _ | .negativeZero | .str _ => rfl
  | .arr _ items => by rw [relabel,relabel,relabelItems_relabelItems items]
  | .obj _ fields => by rw [relabel,relabel,relabelFields_relabelFields fields]
theorem relabelItems_relabelItems : ∀ items, relabelItems (relabelItems items) = relabelItems items
  | [] => rfl
  | item :: items => by rw [relabelItems,relabelItems,relabel_relabel item,relabelItems_relabelItems items]
theorem relabelFields_relabelFields : ∀ fields, relabelFields (relabelFields fields) = relabelFields fields
  | [] => rfl
  | field :: fields => by rw [relabelFields,relabelFields,relabel_relabel field.2,relabelFields_relabelFields fields]
end

theorem depth_le_of_mem_items {items : List Value} {item : Value} (member : item ∈ items) : depth item ≤ depthItems items := by
  induction items with
  | nil => exact absurd member List.not_mem_nil
  | cons first items ih =>
    rw [depthItems]
    rcases List.mem_cons.mp member with rfl | later
    · exact Nat.le_max_left _ _
    · exact (ih later).trans (Nat.le_max_right _ _)

theorem depth_le_of_mem_fields {fields : List (String × Value)} {field : String × Value} (member : field ∈ fields) :
    depth field.2 ≤ depthFields fields := by
  induction fields with
  | nil => exact absurd member List.not_mem_nil
  | cons first fields ih =>
    rw [depthFields]
    rcases List.mem_cons.mp member with rfl | later
    · exact Nat.le_max_left _ _
    · exact (ih later).trans (Nat.le_max_right _ _)

/-- What is made through JSON text is the function's own throughout. -/
def Owned (value : Value) : Prop := relabel value = value

mutual
theorem owned_cloneRecord : ∀ value, Owned (cloneRecord value)
  | .null | .bool _ | .num _ | .negativeZero | .str _ => rfl
  | .arr _ items => by rw [Owned,cloneRecord,relabel,relabelItems_cloneItems items]
  | .obj _ fields => by rw [Owned,cloneRecord,relabel,relabelFields_cloneFields fields]
theorem relabelItems_cloneItems : ∀ items, relabelItems (cloneItems items) = cloneItems items
  | [] => rfl
  | item :: items => by rw [cloneItems,relabelItems,owned_cloneRecord item,relabelItems_cloneItems items]
theorem relabelFields_cloneFields : ∀ fields, relabelFields (cloneFields fields) = cloneFields fields
  | [] => rfl
  | field :: fields => by rw [cloneFields,relabelFields,owned_cloneRecord field.2,relabelFields_cloneFields fields]
end

end Value

section
open Value

mutual
theorem cloneRecord_of_serializable : ∀ (value : Value) (depth : Nat), jsonSerializable depth value = true → cloneRecord value = relabel value
  | .null,_,_ | .bool _,_,_ | .num _,_,_ | .str _,_,_ => rfl
  | .negativeZero,_,plain => by simp [jsonSerializable] at plain
  | .arr _ items,depth,plain => by
    simp only [jsonSerializable,Bool.and_eq_true] at plain
    rw [cloneRecord,relabel,cloneItems_of_serializable items (depth + 1) plain.2]
  | .obj _ fields,depth,plain => by
    simp only [jsonSerializable,Bool.and_eq_true] at plain
    rw [cloneRecord,relabel,cloneFields_of_serializable fields (depth + 1) plain.2]
theorem cloneItems_of_serializable : ∀ (items : List Value) (depth : Nat), serializableItems depth items = true → cloneItems items = relabelItems items
  | [],_,_ => rfl
  | item :: items,depth,plain => by
    simp only [serializableItems,Bool.and_eq_true] at plain
    rw [cloneItems,relabelItems,cloneRecord_of_serializable item depth plain.1,cloneItems_of_serializable items depth plain.2]
theorem cloneFields_of_serializable : ∀ (fields : List (String × Value)) (depth : Nat), serializableFields depth fields = true →
    cloneFields fields = relabelFields fields
  | [],_,_ => rfl
  | field :: fields,depth,plain => by
    simp only [serializableFields,Bool.and_eq_true] at plain
    rw [cloneFields,relabelFields,cloneRecord_of_serializable field.2 depth plain.1,cloneFields_of_serializable fields depth plain.2]
end

mutual
theorem clonePlainValue_eq : ∀ value, clonePlainValue value = relabel value
  | .null | .bool _ | .num _ | .negativeZero | .str _ => rfl
  | .arr _ items => by rw [clonePlainValue,relabel,clonePlainItems_eq items]
  | .obj _ fields => by rw [clonePlainValue,relabel,clonePlainFields_eq fields]
theorem clonePlainItems_eq : ∀ items, clonePlainItems items = relabelItems items
  | [] => rfl
  | item :: items => by rw [clonePlainItems,relabelItems,clonePlainValue_eq item,clonePlainItems_eq items]
theorem clonePlainFields_eq : ∀ fields, clonePlainFields fields = relabelFields fields
  | [] => rfl
  | field :: fields => by rw [clonePlainFields,relabelFields,clonePlainValue_eq field.2,clonePlainFields_eq fields]
end

/-! ### What does not depend on who made an object -/

theorem find_relabelFields (fields : Fields) (key : String) : OrderedMap.find (relabelFields fields) key = (fields.find key).map relabel := by
  rw [← copyFields_relabel,find_copyFields]

theorem keys_relabelFields (fields : Fields) : OrderedMap.keys (relabelFields fields) = fields.keys := by
  rw [← copyFields_relabel]
  exact keys_copyFields relabel fields

theorem any_keys_relabelFields (fields : Fields) (test : String → Bool) :
    (relabelFields fields).any (fun field => test field.1) = fields.any (fun field => test field.1) := by
  rw [relabelFields_eq,List.any_map]
  rfl

variable (value : Option Value)

theorem truthy_relabel : truthy (value.map relabel) = truthy value := by
  rcases value with _ | value
  · rfl
  · cases value <;> rfl

theorem isNullText_relabel (value : Value) : isNullText (relabel value) = isNullText value := by
  cases value <;> rfl

theorem isObjectType_relabel : isObjectType (value.map relabel) = isObjectType value := by
  rcases value with _ | value
  · rfl
  · cases value <;> rfl

theorem keyCount_relabel (value : Value) : keyCount (relabel value) = keyCount value := by
  cases value with
  | arr owner items => simp [relabel,keyCount,relabelItems_eq]
  | obj owner fields => simp [relabel,keyCount,relabelFields_eq]
  | _ => rfl

theorem isEmptyProperties_relabel : isEmptyProperties (value.map relabel) = isEmptyProperties value := by
  rcases value with _ | value
  · rfl
  · have truth := truthy_relabel (some value)
    simp only [Option.map_some] at truth
    simp only [Option.map_some,isEmptyProperties,truth,keyCount_relabel]

theorem everyConst_relabel (items : List Value) : everyConst (relabelItems items) = everyConst items := by
  induction items with
  | nil => rfl
  | cons item items ih =>
    cases item with
    | obj owner fields => simp only [relabelItems,relabel,everyConst,find_relabelFields,Option.isSome_map,ih]
    | _ => rfl

theorem propertyKeys_relabel : propertyKeys (value.map relabel) = propertyKeys value := by
  rcases value with _ | value
  · rfl
  · cases value with
    | arr owner items => simp [relabel,propertyKeys,relabelItems_eq]
    | obj owner fields => simp [relabel,propertyKeys,relabelFields_eq,Function.comp_def]
    | _ => rfl

theorem ownKeys_relabel : ownKeys (value.map relabel) = ownKeys value := by
  rcases value with _ | value
  · rfl
  · cases value with
    | arr owner items =>
      simp only [Option.map_some,relabel,ownKeys,Option.some.injEq]
      funext key
      simp [hasOwn,relabelItems_eq]
    | obj owner fields =>
      simp only [Option.map_some,relabel,ownKeys,Option.some.injEq]
      funext key
      simp [hasOwn,find_relabelFields]
    | _ => rfl

variable [Host] (numberText : ℚ → String)

mutual
theorem propertyKey_relabel : ∀ value, propertyKey numberText (relabel value) = propertyKey numberText value
  | .null | .bool _ | .num _ | .negativeZero | .str _ => rfl
  | .arr _ items => by rw [relabel,propertyKey,propertyKey,joinedKeys_relabelItems items]
  | .obj _ fields => by rw [relabel,propertyKey,propertyKey,any_keys_relabelFields fields (fun key => key == "toString")]
theorem joinedKeys_relabelItems : ∀ items, joinedKeys numberText (relabelItems items) = joinedKeys numberText items
  | [] => rfl
  | .null :: items => by rw [relabelItems,relabel,joinedKeys,joinedKeys,joinedKeys_relabelItems items] <;> simp
  | .bool value :: items => by rw [relabelItems,relabel,joinedKeys,joinedKeys,joinedKeys_relabelItems items] <;> simp
  | .num value :: items => by rw [relabelItems,relabel,joinedKeys,joinedKeys,joinedKeys_relabelItems items] <;> simp
  | .negativeZero :: items => by rw [relabelItems,relabel,joinedKeys,joinedKeys,joinedKeys_relabelItems items] <;> simp
  | .str value :: items => by rw [relabelItems,relabel,joinedKeys,joinedKeys,joinedKeys_relabelItems items] <;> simp
  | .arr owner inner :: items => by
    have same := propertyKey_relabel (.arr owner inner)
    rw [relabel] at same
    rw [relabelItems,relabel,joinedKeys,joinedKeys,joinedKeys_relabelItems items,same] <;> simp
  | .obj owner inner :: items => by
    have same := propertyKey_relabel (.obj owner inner)
    rw [relabel] at same
    rw [relabelItems,relabel,joinedKeys,joinedKeys,joinedKeys_relabelItems items,same] <;> simp
end

theorem countRequired_relabel (keys : List String) (required : List Value) :
    countRequired numberText keys (relabelItems required) = countRequired numberText keys required := by
  induction required with
  | nil => rfl
  | cons key required ih => rw [relabelItems,countRequired,countRequired,propertyKey_relabel,ih]

variable (schema : Fields)

theorem unionWouldChange_relabel : unionWouldChange (relabelFields schema) = unionWouldChange schema := by
  unfold unionWouldChange
  rw [find_relabelFields]
  rcases schema.find "anyOf" with _ | value
  · rfl
  · cases value with
    | arr owner items =>
      simp only [Option.map_some,relabel,everyConst_relabel]
      simp [relabelItems_eq]
    | _ => rfl

theorem typeWouldChange_relabel : typeWouldChange (relabelFields schema) = typeWouldChange schema := by
  unfold typeWouldChange
  rw [find_relabelFields]
  rcases schema.find "type" with _ | value
  · rfl
  · cases value with
    | arr owner items => simp [relabel,relabelItems_eq,Function.comp_def,isNullText_relabel]
    | _ => rfl

theorem requiredWouldChange_relabel :
    requiredWouldChange numberText (relabelFields schema) = requiredWouldChange numberText schema := by
  unfold requiredWouldChange
  rw [find_relabelFields,find_relabelFields,propertyKeys_relabel]
  rcases schema.find "required" with _ | value
  · rfl
  · cases value with
    | arr owner items =>
      have size : (relabelItems items).length = items.length := by rw [relabelItems_eq,List.length_map]
      simp only [Option.map_some,relabel]
      cases propertyKeys (OrderedMap.find schema "properties") with
      | none => rfl
      | some keys => simp only [countRequired_relabel,size]
    | _ => rfl

theorem propertiesWouldChange_relabel : propertiesWouldChange (relabelFields schema) = propertiesWouldChange schema := by
  unfold propertiesWouldChange
  rw [find_relabelFields,find_relabelFields,isObjectType_relabel,propertyKeys_relabel]
  rcases schema.find "properties" with _ | value
  · rfl
  · have truth := truthy_relabel (some value)
    simp only [Option.map_some] at truth
    simp only [Option.map_some]
    cases propertyKeys (some value) with
    | none => simp only [truth,keyCount_relabel]
    | some keys => rfl

theorem schemaWouldChange_relabel :
    schemaWouldChange numberText (relabelFields schema) = schemaWouldChange numberText schema := by
  unfold schemaWouldChange
  rw [unionWouldChange_relabel,typeWouldChange_relabel,requiredWouldChange_relabel,propertiesWouldChange_relabel,
    any_keys_relabelFields schema isUnsupported]

end

/-! ### Where the scan finds nothing -/

section
variable [Host] (numberText : ℚ → String)
variable {schema : Fields}

theorem flattenUnion_unchanged (same : unionWouldChange schema = some false) : flattenUnion schema = some schema := by
  unfold unionWouldChange at same
  unfold flattenUnion
  split at same
  · next anyOf _ =>
    cases anyOf with
    | nil => rfl
    | cons first rest =>
      simp only [List.isEmpty_cons,Bool.false_eq_true,if_false] at same
      rw [same]
      rfl
  · rfl

theorem collapseType_unchanged (same : typeWouldChange schema = false) : collapseType schema = some schema := by
  unfold typeWouldChange at same
  unfold collapseType
  split at same
  · next types _ =>
    have none_left : types.filter (fun type => !isNullText type) = [] := by
      rw [List.filter_eq_nil_iff]
      intro type member kept
      exact (List.any_eq_false.mp same) type member kept
    rw [none_left]
  · rfl

variable {keys : List String}

theorem ownKeys_of_propertyKeys {properties : Option Value} (found : propertyKeys properties = some keys) :
    ∃ own, ownKeys properties = some own ∧ ∀ key ∈ keys, own key = true := by
  rcases properties with _ | value
  · cases found
  · cases value with
    | obj owner fields =>
      simp only [propertyKeys,Option.some.injEq] at found
      subst found
      refine ⟨_,rfl,?_⟩
      intro key member
      exact OrderedMap.find_isSome.mpr member
    | arr owner items =>
      simp only [propertyKeys,Option.some.injEq] at found
      subst found
      refine ⟨_,rfl,?_⟩
      intro key member
      rw [hasOwn,Bool.or_eq_true]
      exact Or.inr (by rw [List.contains_iff_mem]; exact member)
    | _ => cases found

theorem countRequired_le {required : List Value} {valid : Nat} (counted : countRequired numberText keys required = some valid) :
    valid ≤ required.length := by
  induction required generalizing valid with
  | nil => cases counted; exact Nat.le_refl 0
  | cons key required ih =>
    rw [countRequired,bind_map_eq_some_iff] at counted
    obtain ⟨text,_,count,later,here⟩ := counted
    have bound := ih later
    rw [List.length_cons]
    split at here <;> omega

theorem validRequired_of_count {own : String → Bool} (owned : ∀ key ∈ keys, own key = true) {required : List Value}
    (counted : countRequired numberText keys required = some required.length) : validRequired numberText own required = some required := by
  induction required with
  | nil => rfl
  | cons key required ih =>
    rw [countRequired,bind_map_eq_some_iff] at counted
    obtain ⟨text,named,count,later,here⟩ := counted
    have bound := countRequired_le numberText later
    rw [List.length_cons] at here
    split at here
    · next among =>
      have all : count = required.length := by omega
      subst all
      have valid : own text = true := owned text (List.contains_iff_mem.mp among)
      rw [validRequired,named,Option.bind_some,ih later,Option.map_some,valid,if_pos rfl]
    · omega

theorem filterRequired_unchanged (same : requiredWouldChange numberText schema = some false) :
    filterRequired numberText schema = some schema := by
  unfold requiredWouldChange at same
  unfold filterRequired
  split at same
  · next required keys listed found =>
    rw [Option.map_eq_some_iff] at same
    obtain ⟨valid,counted,kept⟩ := same
    simp only [Bool.or_eq_false_iff,decide_eq_false_iff_not,not_not] at kept
    rw [kept.2] at counted
    obtain ⟨own,owns,covers⟩ := ownKeys_of_propertyKeys found
    rw [listed,owns]
    dsimp only
    rw [validRequired_of_count numberText covers counted,Option.map_some]
    cases required with
    | nil => exact absurd kept.2 kept.1
    | cons first rest => simp
  · next other =>
    split
    · next required own listed owns =>
      rcases present : OrderedMap.find schema "properties" with _ | value
      · rw [present] at owns
        cases owns
      · cases value with
        | obj owner fields => exact absurd (by rw [present]; rfl) (other _ _ _ listed)
        | arr owner items => exact absurd (by rw [present]; rfl) (other _ _ _ listed)
        | _ => rw [present] at owns; cases owns
    · rfl

theorem fillProperties_unchanged (same : propertiesWouldChange schema = false) : fillProperties schema = schema := by
  unfold propertiesWouldChange at same
  unfold fillProperties
  cases object : isObjectType (schema.find "type") with
  | false => rfl
  | true =>
    rw [object,Bool.true_and] at same
    rcases present : schema.find "properties" with _ | value
    · rw [present] at same
      cases same
    · rw [present] at same
      have kept : isEmptyProperties (some value) = false := by
        cases value with
        | obj owner fields => simpa [isEmptyProperties,propertyKeys,Value.truthy,keyCount] using same
        | arr owner items => simpa [isEmptyProperties,propertyKeys,Value.truthy,keyCount] using same
        | _ => exact same
      rw [kept]
      rfl

theorem dropUnsupported_unchanged (same : schema.any (fun field => isUnsupported field.1) = false) : dropUnsupported schema = schema := by
  refine List.filter_eq_self.mpr ?_
  intro field member
  have supported := (List.any_eq_false.mp same) field member
  simpa using supported

theorem schema_unchanged (same : schemaWouldChange numberText schema = some false) :
    applySchemaTransforms numberText schema = some schema ∧ dropUnsupported schema = schema := by
  unfold schemaWouldChange at same
  rw [Option.bind_eq_some_iff] at same
  obtain ⟨union,unions,rest⟩ := same
  split at rest
  · cases rest
  · next neither =>
    simp only [Bool.or_eq_true,not_or,Bool.not_eq_true] at neither
    rw [neither.1] at unions
    rw [Option.map_eq_some_iff] at rest
    obtain ⟨required,requires,kept⟩ := rest
    simp only [Bool.or_eq_false_iff] at kept
    rw [kept.1.1] at requires
    refine ⟨?_,dropUnsupported_unchanged kept.2⟩
    rw [applySchemaTransforms,flattenUnion_unchanged unions,Option.bind_some,collapseType_unchanged neither.2,Option.bind_some,
      filterRequired_unchanged numberText requires,Option.map_some,fillProperties_unchanged kept.1.2]

theorem mem_schemaNodesItems {mode : Mode} {items : List Value} {item : Value} {node : Fields} (member : item ∈ items)
    (inside : node ∈ schemaNodes mode item) : node ∈ schemaNodesItems mode items := by
  induction items with
  | nil => exact absurd member List.not_mem_nil
  | cons first items ih =>
    rw [schemaNodesItems,List.mem_append]
    rcases List.mem_cons.mp member with rfl | later
    · exact Or.inl inside
    · exact Or.inr (ih later)

theorem mem_schemaNodesFields {mode : Mode} {fields : List (String × Value)} {field : String × Value} {node : Fields} (member : field ∈ fields)
    (inside : node ∈ schemaNodes (childSchemaMode mode field.1) field.2) : node ∈ schemaNodesFields mode fields := by
  induction fields with
  | nil => exact absurd member List.not_mem_nil
  | cons first fields ih =>
    rw [schemaNodesFields,List.mem_append]
    rcases List.mem_cons.mp member with rfl | later
    · exact Or.inl inside
    · exact Or.inr (ih later)

variable {clean : Value → Option (Done Value)}

theorem cleanItems_unchanged {items : List Value}
    (same : ∀ item ∈ items, ∃ written, clean item = some ⟨item,written⟩) : ∃ written, cleanItems clean items = some ⟨items,written⟩ := by
  induction items with
  | nil => exact ⟨[],rfl⟩
  | cons item items ih =>
    obtain ⟨here,cleaned⟩ := same item List.mem_cons_self
    obtain ⟨later,rest⟩ := ih (fun other member => same other (List.mem_cons_of_mem _ member))
    exact ⟨here ++ later,by rw [cleanItems,cleaned,Option.bind_some,rest,Option.map_some]⟩

theorem cleanFields_unchanged {fields : List (String × Value)}
    (same : ∀ field ∈ fields, ∃ written, clean field.2 = some ⟨field.2,written⟩) :
    ∃ written, cleanFields clean fields = some ⟨fields,written⟩ := by
  induction fields with
  | nil => exact ⟨[],rfl⟩
  | cons field fields ih =>
    obtain ⟨here,cleaned⟩ := same field List.mem_cons_self
    obtain ⟨later,rest⟩ := ih (fun other member => same other (List.mem_cons_of_mem _ member))
    exact ⟨here ++ later,by rw [cleanFields,cleaned,Option.bind_some,rest,Option.map_some]⟩

theorem put_find_self {fields : Fields} {key : String} {value : Value} (found : fields.find key = some value) : fields.put key value = fields := by
  induction fields with
  | nil => cases found
  | cons field fields ih =>
    rw [OrderedMap.find_cons] at found
    split at found
    · next here =>
      cases found
      simp [OrderedMap.put,← here]
    · next apart => simp [OrderedMap.put,apart,ih found]

theorem cleanField_unchanged {key : String} {fields : Fields}
    (same : ∀ value, fields.find key = some value → ∃ written, clean value = some ⟨value,written⟩) :
    ∃ written, cleanField clean key fields = some ⟨fields,written⟩ := by
  unfold cleanField
  split
  · exact ⟨[],rfl⟩
  · next value found =>
    obtain ⟨written,cleaned⟩ := same value found
    exact ⟨written,by rw [cleaned,Option.map_some,put_find_self found]⟩

theorem cleanupSchema_settled {fuel : Nat} {value : Value} (shallow : value.depth < fuel)
    (same : ∀ node ∈ schemaNodes .schema value, applySchemaTransforms numberText node = some node ∧ dropUnsupported node = node) :
    ∃ written, cleanupSchema numberText fuel value = some ⟨value,written⟩ := by
  induction fuel generalizing value with
  | zero => exact absurd shallow (Nat.not_lt_zero _)
  | succ fuel ih =>
    cases value with
    | obj owner fields =>
      have root : fields ∈ schemaNodes .schema (.obj owner fields) := by simp [schemaNodes]
      obtain ⟨steps,dropped⟩ := same fields root
      have within : ∀ field ∈ fields, ∀ node ∈ schemaNodes (childSchemaMode .schema field.1) field.2,
          applySchemaTransforms numberText node = some node ∧ dropUnsupported node = node := by
        intro field member node inside
        exact same node (by rw [schemaNodes,List.mem_append]; exact Or.inr (mem_schemaNodesFields member inside))
      rw [Value.depth] at shallow
      obtain ⟨first,properties⟩ : ∃ written, cleanField (cleanProperties (cleanupSchema numberText fuel)) "properties" fields = some ⟨fields,written⟩ := by
        refine cleanField_unchanged ?_
        intro value found
        have member := OrderedMap.mem_of_find found
        have bound := Value.depth_le_of_mem_fields member
        have nodes := within _ member
        cases value with
        | obj inner props =>
          rw [Value.depth] at bound
          obtain ⟨written,cleaned⟩ := @cleanFields_unchanged _ (cleanupSchema numberText fuel) props (by
            intro field among
            have depth := Value.depth_le_of_mem_fields among
            refine ih (by omega) ?_
            intro node inside
            exact nodes node (by
              rw [schemaNodes,List.mem_append]
              exact Or.inr (mem_schemaNodesFields among inside)))
          exact ⟨written,by rw [cleanProperties,cleaned,Option.map_some]⟩
        | arr inner items =>
          rw [Value.depth] at bound
          obtain ⟨written,cleaned⟩ := @cleanItems_unchanged _ (cleanupSchema numberText fuel) items (by
            intro item among
            have depth := Value.depth_le_of_mem_items among
            refine ih (by omega) ?_
            intro node inside
            exact nodes node (by rw [schemaNodes]; exact mem_schemaNodesItems among inside))
          exact ⟨written,by rw [cleanProperties,cleaned,Option.map_some]⟩
        | _ => exact ⟨[],rfl⟩
      obtain ⟨second,items⟩ : ∃ written, cleanField (cleanupSchema numberText fuel) "items" fields = some ⟨fields,written⟩ := by
        refine cleanField_unchanged ?_
        intro value found
        have member := OrderedMap.mem_of_find found
        have bound : value.depth ≤ Value.depthFields fields := Value.depth_le_of_mem_fields member
        exact ih (by omega) (within _ member)
      refine ⟨owner :: (first ++ second),?_⟩
      rw [cleanupSchema,steps,Option.bind_some,dropped,properties,Option.bind_some,items,Option.map_some]
    | arr owner items => exact ⟨[owner],rfl⟩
    | _ => exact ⟨[],rfl⟩

theorem cleanupSchema_unchanged {fuel : Nat} {value : Value} (shallow : value.depth < fuel)
    (same : ∀ node ∈ schemaNodes .schema value, schemaWouldChange numberText node = some false) :
    ∃ written, cleanupSchema numberText fuel value = some ⟨value,written⟩ :=
  cleanupSchema_settled numberText shallow fun node member => schema_unchanged numberText (same node member)

end
end CodexMultiAuth.ToolSchema
