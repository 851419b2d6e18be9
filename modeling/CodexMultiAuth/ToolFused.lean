import CodexMultiAuth.ToolClones

/-!
The single pass that clones and cleans at once. It cleans the children of a node
before the steps at the node, and the unsupported keywords are left out before
too; the steps do not notice, so the result is that of the clean-up in place.
-/
namespace CodexMultiAuth.ToolSchema
open List OrderedMap Option Value
set_option linter.unusedSectionVars false

structure Keeps (before after : Fields) : Prop where
  find : ∀ key ∉ stepKeys, OrderedMap.find after key = OrderedMap.find before key
  nodup : before.keys.Nodup → after.keys.Nodup

namespace Keeps
variable {before middle after : Fields}

theorem refl (schema : Fields) : Keeps schema schema := ⟨fun _ _ => rfl,id⟩

theorem trans (first : Keeps before middle) (second : Keeps middle after) : Keeps before after := by
  refine ⟨?_,fun distinct => second.nodup (first.nodup distinct)⟩
  intro key apart
  rw [second.find key apart,first.find key apart]

theorem put (keeps : Keeps before after) {key : String} (member : key ∈ stepKeys) (value : Value) : Keeps before (after.put key value) := by
  refine ⟨?_,fun distinct => nodup_put (keeps.nodup distinct) key value⟩
  intro other apart
  rw [find_put,if_neg (fun same : key = other => apart (same ▸ member)),keeps.find other apart]

theorem remove (keeps : Keeps before after) {key : String} (member : key ∈ stepKeys) : Keeps before (after.remove key) := by
  refine ⟨?_,fun distinct => nodup_remove (keeps.nodup distinct) key⟩
  intro other apart
  rw [find_remove,if_neg (fun same : key = other => apart (same ▸ member)),keeps.find other apart]

end Keeps

section
variable [Host] (numberText : ℚ → String)

theorem keeps_flattenUnion {schema flat : Fields} (done : flattenUnion schema = some flat) : Keeps schema flat := by
  unfold flattenUnion at done
  split at done
  · next anyOf _ =>
    rw [map_eq_some_iff] at done
    obtain ⟨allConst,_,here⟩ := done
    subst here
    have flattened := ((Keeps.refl schema).put (show "enum" ∈ stepKeys by decide) (.arr .own (anyOf.map constOf))).remove (show "anyOf" ∈ stepKeys by decide)
    cases allConst with
    | false => exact Keeps.refl schema
    | true =>
      cases anyOf with
      | nil => exact Keeps.refl schema
      | cons first rest =>
        dsimp only
        split
        · exact flattened
        · split
          · exact flattened.put (by decide) _
          · exact flattened
  · cases done
    exact Keeps.refl schema

theorem keeps_noteNullable {schema noted : Fields} (done : noteNullable schema = some noted) : Keeps schema noted := by
  unfold noteNullable at done
  split at done
  · split at done
    · split at done
      · cases done
        exact Keeps.refl schema
      · cases done
        exact (Keeps.refl schema).put (by decide) _
    · cases done
  · cases done
    exact (Keeps.refl schema).put (by decide) _

theorem keeps_collapseType {schema collapsed : Fields} (done : collapseType schema = some collapsed) : Keeps schema collapsed := by
  unfold collapseType at done
  split at done
  · split at done
    · cases done
      exact Keeps.refl schema
    · next first _ _ =>
      have typed := (Keeps.refl schema).put (show "type" ∈ stepKeys by decide) first
      split at done
      · exact typed.trans (keeps_noteNullable done)
      · cases done
        exact typed
  · cases done
    exact Keeps.refl schema

theorem keeps_filterRequired {schema filtered : Fields} (done : filterRequired numberText schema = some filtered) : Keeps schema filtered := by
  unfold filterRequired at done
  split at done
  · rw [map_eq_some_iff] at done
    obtain ⟨valid,_,here⟩ := done
    subst here
    split
    · exact (Keeps.refl schema).remove (by decide)
    · split
      · exact (Keeps.refl schema).put (by decide) _
      · exact Keeps.refl schema
  · cases done
    exact Keeps.refl schema

theorem keeps_rewriteNode {schema rewritten : Fields} (done : rewriteNode numberText schema = some rewritten) : Keeps schema rewritten := by
  unfold rewriteNode at done
  rw [bind_eq_some_iff] at done
  obtain ⟨flat,flattened,rest⟩ := done
  rw [bind_eq_some_iff] at rest
  obtain ⟨collapsed,typed,filtered⟩ := rest
  exact ((keeps_flattenUnion flattened).trans (keeps_collapseType typed)).trans (keeps_filterRequired numberText filtered)

theorem Transparent.rewriteNode {pass : Fields → Fields} (transparent : Transparent pass) {schema : Fields}
    (own : ∀ other : Fields, Keeps schema other → ownKeys ((pass other).find "properties") = ownKeys (other.find "properties")) :
    rewriteNode numberText (pass schema) = (rewriteNode numberText schema).map pass := by
  unfold ToolSchema.rewriteNode
  rw [transparent.flattenUnion]
  cases flattened : ToolSchema.flattenUnion schema with
  | none => rfl
  | some flat =>
    simp only [map_some,bind_some]
    rw [transparent.collapseType]
    cases typed : ToolSchema.collapseType flat with
    | none => rfl
    | some collapsed =>
      simp only [map_some,bind_some]
      exact transparent.filterRequired numberText collapsed (own collapsed ((keeps_flattenUnion flattened).trans (keeps_collapseType typed)))

end

/-- The unsupported keywords left out, properties and items replaced where they are. -/
def withChildren (properties items : Value) (schema : Fields) : Fields :=
  replace "items" items (replace "properties" properties (dropUnsupported schema))

section
variable {properties items : Value}

theorem transparent_withChildren : Transparent (withChildren properties items) := by
  have drop := transparent_dropUnsupported
  have first := transparent_replace (show "properties" ∉ stepKeys by decide) properties
  have second := transparent_replace (show "items" ∉ stepKeys by decide) items
  refine ⟨?_,?_,?_⟩
  · intro key member schema
    rw [withChildren,second.find key member,first.find key member,drop.find key member]
  · intro key member schema value
    rw [withChildren,drop.put key member,first.put key member,second.put key member,withChildren]
  · intro key member schema
    rw [withChildren,drop.remove key member,first.remove key member,second.remove key member,withChildren]

theorem find_properties_withChildren (schema : Fields) :
    OrderedMap.find (withChildren properties items schema) "properties" = (schema.find "properties").map (fun _ => properties) := by
  rw [withChildren,find_replace,if_neg (by decide),find_replace,if_pos rfl,find_dropUnsupported schema (by decide)]

/-- Properties that look the same to the steps. -/
structure Alike (properties other : Value) : Prop where
  own : ownKeys (some properties) = ownKeys (some other)
  empty : isEmptyProperties (some properties) = isEmptyProperties (some other)

theorem nodup_dropUnsupported {schema : Fields} (distinct : schema.keys.Nodup) : (dropUnsupported schema).keys.Nodup :=
  distinct.sublist (List.Sublist.map _ filter_sublist)

/-- The fourth step on a node with its children cleaned first: the placeholder stands in
    the place of whatever properties there were. -/
theorem fillProperties_withChildren {schema : Fields} (distinct : schema.keys.Nodup)
    (alike : ∀ value, schema.find "properties" = some value → Alike properties value) :
    fillProperties (withChildren properties items schema) =
      if isObjectType (schema.find "type") && isEmptyProperties (schema.find "properties") then
        replace "items" items (dropUnsupported (schema.put "properties" placeholder))
      else withChildren properties items schema := by
  have kind : OrderedMap.find (withChildren properties items schema) "type" = schema.find "type" :=
    transparent_withChildren.find "type" (by decide) schema
  have emptiness : isEmptyProperties ((withChildren properties items schema).find "properties") = isEmptyProperties (schema.find "properties") := by
    rw [find_properties_withChildren]
    cases present : schema.find "properties" with
    | none => rfl
    | some value => exact (alike value present).empty
  unfold fillProperties
  rw [kind,emptiness]
  split
  · rw [withChildren,← replace_put (by decide),put_replace_self (nodup_dropUnsupported distinct),dropUnsupported_put _ (by decide)]
  · rfl

variable [Host] (numberText : ℚ → String)

theorem rewriteNode_withChildren {schema : Fields} (alike : ∀ value, schema.find "properties" = some value → Alike properties value) :
    rewriteNode numberText (withChildren properties items schema) = (rewriteNode numberText schema).map (withChildren properties items) := by
  refine transparent_withChildren.rewriteNode numberText ?_
  intro other keeps
  rw [find_properties_withChildren,keeps.find "properties" (by decide)]
  cases present : schema.find "properties" with
  | none => rfl
  | some value => exact (alike value present).own

end

/-! ### Cleaning the children -/

section
variable {clean : Value → Option (Done Value)}

theorem cleanField_some {key : String} {schema : Fields} {done : Done Fields} (distinct : schema.keys.Nodup)
    (cleaned : cleanField clean key schema = some done) :
    ∃ child, done.value = replace key child schema ∧ ∀ value, schema.find key = some value → clean value = some ⟨child,done.written⟩ := by
  unfold cleanField at cleaned
  split at cleaned
  · next absent =>
    cases cleaned
    refine ⟨.null,(replace_absent absent).symm,?_⟩
    intro value found
    rw [absent] at found
    cases found
  · next value found =>
    rw [map_eq_some_iff] at cleaned
    obtain ⟨child,inside,here⟩ := cleaned
    subst here
    refine ⟨child.value,put_eq_replace distinct (by rw [found]; rfl),?_⟩
    intro other same
    rw [found] at same
    cases same
    exact inside

theorem keys_cleanFields {fields : List (String × Value)} {done : Done (List (String × Value))} (cleaned : cleanFields clean fields = some done) :
    done.value.map Prod.fst = fields.map Prod.fst := by
  induction fields generalizing done with
  | nil => cases cleaned; rfl
  | cons field fields ih =>
    rw [cleanFields,bind_map_eq_some_iff] at cleaned
    obtain ⟨child,_,others,later,rfl⟩ := cleaned
    rw [map_cons,map_cons,ih later]

theorem length_cleanItems {items : List Value} {done : Done (List Value)} (cleaned : cleanItems clean items = some done) :
    done.value.length = items.length := by
  induction items generalizing done with
  | nil => cases cleaned; rfl
  | cons item items ih =>
    rw [cleanItems,bind_map_eq_some_iff] at cleaned
    obtain ⟨child,_,others,later,rfl⟩ := cleaned
    rw [length_cons,length_cons,ih later]

theorem alike_cleanProperties {value : Value} {done : Done Value} (cleaned : cleanProperties clean value = some done) : Alike done.value value := by
  cases value with
  | obj owner fields =>
    rw [cleanProperties,map_eq_some_iff] at cleaned
    obtain ⟨others,inside,here⟩ := cleaned
    subst here
    have keys := keys_cleanFields inside
    have size : others.value.length = fields.length := by simpa using congrArg List.length keys
    refine ⟨?_,by simp [isEmptyProperties,truthy,keyCount,size]⟩
    simp only [ownKeys,Option.some.injEq]
    funext key
    rw [hasOwn,hasOwn,Bool.eq_iff_iff,find_isSome,find_isSome,OrderedMap.keys,OrderedMap.keys,keys]
  | arr owner items =>
    rw [cleanProperties,map_eq_some_iff] at cleaned
    obtain ⟨others,inside,here⟩ := cleaned
    subst here
    have size := length_cleanItems inside
    refine ⟨?_,by simp [isEmptyProperties,truthy,keyCount,size]⟩
    simp only [ownKeys,Option.some.injEq]
    funext key
    rw [hasOwn,hasOwn,size]
  | _ => cases cleaned; exact ⟨rfl,rfl⟩

end

/-- Whatever is cleaned writes to the function's own objects only. -/
def WritesOwn {α : Type} (done : Done α) : Prop := ∀ owner ∈ done.written, owner = .own

theorem writesOwn_nil {α : Type} {value : α} : WritesOwn ⟨value,[]⟩ := forall_mem_nil _

theorem writesOwn_append {α β γ : Type} {first : Done α} {second : Done β} {value : γ} (here : WritesOwn first) (later : WritesOwn second) :
    WritesOwn (⟨value,first.written ++ second.written⟩ : Done γ) := by
  intro owner member
  rcases mem_append.mp member with inFirst | inSecond
  · exact here owner inFirst
  · exact later owner inSecond

section
variable [Host] (numberText : ℚ → String)

theorem cleanProperties_placeholder (fuel : Nat) :
    ∃ written, cleanProperties (cleanupSchema numberText fuel) placeholder = some ⟨placeholder,written⟩ := by
  cases fuel with
  | zero => exact ⟨[],rfl⟩
  | succ fuel =>
    have inner : ∃ written, cleanFields (cleanupSchema numberText (fuel + 1)) [("_placeholder",.obj .own
        [("type",.str "boolean"),("description",.str "This property is a placeholder and should be ignored.")])] =
        some ⟨[("_placeholder",.obj .own
          [("type",.str "boolean"),("description",.str "This property is a placeholder and should be ignored.")])],written⟩ := by
      refine cleanFields_unchanged ?_
      intro field member
      rw [mem_singleton] at member
      subst member
      obtain ⟨steps,dropped⟩ := @schema_unchanged _ numberText [("type",.str "boolean"),
        ("description",.str "This property is a placeholder and should be ignored.")] (by rfl)
      refine ⟨[.own],?_⟩
      dsimp only
      rw [cleanupSchema,steps,bind_some,dropped]
      rfl
    obtain ⟨written,cleaned⟩ := inner
    exact ⟨written,by rw [placeholder,cleanProperties,cleaned,map_some]⟩

/-! ### The copy of a node -/

variable {fields : List (String × Value)}

theorem cloneNodeFields_eq {properties items : Value}
    (first : ∀ value, ("properties",value) ∈ fields → ∃ written, clonePropertiesMap numberText value = some ⟨properties,written⟩)
    (second : ∀ value, ("items",value) ∈ fields → ∃ written, cloneSchemaChild numberText value = some ⟨items,written⟩) :
    ∃ written, cloneNodeFields numberText fields = some ⟨withChildren properties items (relabelFields fields),written⟩ := by
  induction fields with
  | nil => exact ⟨[],rfl⟩
  | cons field fields ih =>
    obtain ⟨later,rest⟩ := ih (fun value member => first value (mem_cons_of_mem _ member))
      (fun value member => second value (mem_cons_of_mem _ member))
    obtain ⟨key,value⟩ := field
    simp only [cloneNodeFields,relabelFields,withChildren,dropUnsupported,filter_cons] at rest ⊢
    cases unsupported : isUnsupported key with
    | true =>
      simp only [Bool.not_true,Bool.false_eq_true,if_true,if_false]
      exact ⟨later,rest⟩
    | false =>
      simp only [Bool.not_false,Bool.false_eq_true,if_true,if_false]
      by_cases atProperties : key = "properties"
      · subst atProperties
        obtain ⟨here,cloned⟩ := first value mem_cons_self
        refine ⟨here ++ later,?_⟩
        rw [if_pos rfl,cloned,bind_some,rest,map_some]
        simp [replace]
      · rw [if_neg atProperties]
        by_cases atItems : key = "items"
        · subst atItems
          obtain ⟨here,cloned⟩ := second value mem_cons_self
          refine ⟨here ++ later,?_⟩
          rw [if_pos rfl,cloned,bind_some,rest,map_some]
          simp [replace]
        · refine ⟨[] ++ later,?_⟩
          rw [if_neg atItems,bind_some,rest,map_some,clonePlainValue_eq]
          simp [replace,atProperties,atItems]

theorem clonePropertyFields_eq {clean : Value → Option (Done Value)} {done : Done (List (String × Value))}
    (agree : ∀ field ∈ fields, ∀ child, clean (relabel field.2) = some child →
      ∃ written, cloneSchemaChild numberText field.2 = some ⟨child.value,written⟩)
    (cleaned : cleanFields clean (relabelFields fields) = some done) :
    ∃ written, clonePropertyFields numberText fields = some ⟨done.value,written⟩ := by
  induction fields generalizing done with
  | nil => cases cleaned; exact ⟨[],rfl⟩
  | cons field fields ih =>
    rw [relabelFields,cleanFields,bind_map_eq_some_iff] at cleaned
    obtain ⟨child,inside,others,later,rfl⟩ := cleaned
    obtain ⟨first,cloned⟩ := agree field mem_cons_self child inside
    obtain ⟨second,copied⟩ := ih (fun other member => agree other (mem_cons_of_mem _ member)) later
    exact ⟨first ++ second,by rw [clonePropertyFields,cloned,bind_some,copied,map_some]⟩

theorem clonePropertyItems_eq {clean : Value → Option (Done Value)} {items : List Value} {done : Done (List Value)}
    (agree : ∀ item ∈ items, ∀ child, clean (relabel item) = some child →
      ∃ written, cloneSchemaChild numberText item = some ⟨child.value,written⟩)
    (cleaned : cleanItems clean (relabelItems items) = some done) :
    ∃ written, clonePropertyItems numberText items = some ⟨done.value,written⟩ := by
  induction items generalizing done with
  | nil => cases cleaned; exact ⟨[],rfl⟩
  | cons item items ih =>
    rw [relabelItems,cleanItems,bind_map_eq_some_iff] at cleaned
    obtain ⟨child,inside,others,later,rfl⟩ := cleaned
    obtain ⟨first,cloned⟩ := agree item mem_cons_self child inside
    obtain ⟨second,copied⟩ := ih (fun other member => agree other (mem_cons_of_mem _ member)) later
    exact ⟨first ++ second,by rw [clonePropertyItems,cloned,bind_some,copied,map_some]⟩

theorem clonePropertiesMap_empty {value : Value} (empty : isEmptyProperties (some value) = true) :
    ∃ written, clonePropertiesMap numberText value = some ⟨relabel value,written⟩ := by
  cases value with
  | obj owner fields =>
    have none_there : fields = [] := by simpa [isEmptyProperties,truthy,keyCount] using empty
    subst none_there
    exact ⟨[],rfl⟩
  | arr owner items =>
    have none_there : items = [] := by simpa [isEmptyProperties,truthy,keyCount] using empty
    subst none_there
    exact ⟨[],rfl⟩
  | _ => exact ⟨[],rfl⟩

theorem distinct_of_mem_fields (distinct : Value.DistinctFields fields) {field : String × Value} (member : field ∈ fields) :
    Value.Distinct field.2 := by
  induction fields with
  | nil => exact absurd member not_mem_nil
  | cons first fields ih =>
    rcases mem_cons.mp member with rfl | later
    · exact distinct.1
    · exact ih distinct.2 later

theorem distinct_of_mem_items {items : List Value} (distinct : Value.DistinctItems items) {item : Value} (member : item ∈ items) :
    Value.Distinct item := by
  induction items with
  | nil => exact absurd member not_mem_nil
  | cons first items ih =>
    rcases mem_cons.mp member with rfl | later
    · exact distinct.1
    · exact ih distinct.2 later

/-- The single pass on a value gives what cleaning its copy gives. -/
def FusedAgrees (fuel : Nat) (value : Value) : Prop :=
  ∀ done, cleanupSchema numberText fuel (relabel value) = some done → ∃ written, cloneSchemaChild numberText value = some ⟨done.value,written⟩

variable {fuel : Nat}

theorem clonePropertiesMap_eq {value : Value} {done : Done Value}
    (agree : ∀ child : Value, child.Distinct → child.depth < value.depth → FusedAgrees numberText fuel child) (distinct : value.Distinct)
    (cleaned : cleanProperties (cleanupSchema numberText fuel) (relabel value) = some done) :
    ∃ written, clonePropertiesMap numberText value = some ⟨done.value,written⟩ := by
  cases value with
  | obj owner fields =>
    rw [relabel,cleanProperties,map_eq_some_iff] at cleaned
    obtain ⟨others,inside,here⟩ := cleaned
    subst here
    obtain ⟨written,copied⟩ := clonePropertyFields_eq numberText (by
      intro field member
      refine agree field.2 (distinct_of_mem_fields distinct.2 member) ?_
      rw [depth]
      exact Nat.lt_succ_of_le (depth_le_of_mem_fields member)) inside
    exact ⟨written,by rw [clonePropertiesMap,copied,map_some]⟩
  | arr owner items =>
    rw [relabel,cleanProperties,map_eq_some_iff] at cleaned
    obtain ⟨others,inside,here⟩ := cleaned
    subst here
    obtain ⟨written,copied⟩ := clonePropertyItems_eq numberText (by
      intro item member
      refine agree item (distinct_of_mem_items distinct member) ?_
      rw [depth]
      exact Nat.lt_succ_of_le (depth_le_of_mem_items member)) inside
    exact ⟨written,by rw [clonePropertiesMap,copied,map_some]⟩
  | _ => cases cleaned; exact ⟨[],rfl⟩

/-- The properties that the single pass puts in a node's copy, and what the fourth step
    makes of the copy. -/
theorem properties_copied {after : Fields} {inner : Done Fields} (distinct : (fields.map Prod.fst).Nodup)
    (agree : ∀ child : Value, child.Distinct → child.depth < depthFields fields → FusedAgrees numberText fuel child)
    (within : Value.DistinctFields fields) (unique : after.keys.Nodup)
    (found : after.find "properties" = (OrderedMap.find fields "properties").map relabel)
    (cleaned : cleanField (cleanProperties (cleanupSchema numberText fuel)) "properties" (dropUnsupported (fillProperties after)) = some inner) :
    ∃ properties, (∀ value, ("properties",value) ∈ fields → ∃ written, clonePropertiesMap numberText value = some ⟨properties,written⟩) ∧
      (∀ value, after.find "properties" = some value → Alike properties value) ∧
      ∀ items, fillProperties (withChildren properties items after) = replace "items" items inner.value := by
  cases filled : isObjectType (after.find "type") && isEmptyProperties (after.find "properties") with
  | true =>
    -- the placeholder takes the place of properties that have no keys
    have steps : fillProperties after = after.put "properties" placeholder := by rw [fillProperties,filled,if_pos rfl]
    have stays : inner.value = dropUnsupported (after.put "properties" placeholder) := by
      rw [steps] at cleaned
      obtain ⟨written,same⟩ := @cleanField_unchanged _ (cleanProperties (cleanupSchema numberText fuel)) "properties"
        (dropUnsupported (after.put "properties" placeholder)) (by
          intro value here
          rw [find_dropUnsupported _ (by decide),find_put,if_pos rfl,Option.some.injEq] at here
          subst here
          exact cleanProperties_placeholder numberText fuel)
      rw [same] at cleaned
      cases cleaned
      rfl
    rw [Bool.and_eq_true] at filled
    refine ⟨((OrderedMap.find fields "properties").map relabel).getD .null,?_,?_,?_⟩
    · intro value member
      have here := find_of_mem distinct member
      rw [here]
      refine clonePropertiesMap_empty numberText ?_
      rw [← isEmptyProperties_relabel,← here,← found]
      exact filled.2
    · intro value here
      rw [← found,here]
      exact ⟨rfl,rfl⟩
    · intro items
      rw [fillProperties_withChildren unique (by
        intro value here
        rw [← found,here]
        exact ⟨rfl,rfl⟩),filled.1,filled.2,stays]
      rfl
  | false =>
    have steps : fillProperties after = after := by rw [fillProperties,filled]; rfl
    rw [steps] at cleaned
    obtain ⟨properties,replaced,inside⟩ := cleanField_some (nodup_dropUnsupported unique) cleaned
    have cleans : ∀ value, after.find "properties" = some value →
        cleanProperties (cleanupSchema numberText fuel) value = some ⟨properties,inner.written⟩ := by
      intro value here
      exact inside value (by rw [find_dropUnsupported _ (by decide),here])
    have alike : ∀ value, after.find "properties" = some value → Alike properties value := by
      intro value here
      exact alike_cleanProperties (cleans value here)
    refine ⟨properties,?_,alike,?_⟩
    · intro value member
      have here := find_of_mem distinct member
      have bound : value.depth ≤ depthFields fields := depth_le_of_mem_fields member
      refine clonePropertiesMap_eq numberText ?_ (distinct_of_mem_fields within member) (cleans (relabel value) (by rw [found,here]; rfl))
      intro child separate (shallower : child.depth < value.depth)
      exact agree child separate (by omega)
    · intro items
      rw [fillProperties_withChildren unique alike,filled,replaced]
      rfl

/-- At a node the steps on the copy of its fields leave what cleaning in place leaves. -/
theorem cloneNode_eq {owner : Owner} {done : Done Value}
    (distinct : (obj owner fields).Distinct)
    (agree : ∀ child : Value, child.Distinct → child.depth < depthFields fields + 1 → FusedAgrees numberText fuel child)
    (cleaned : cleanupSchema numberText (fuel + 1) (.obj .own (relabelFields fields)) = some done) :
    ∃ written, cloneSchemaChild numberText (.obj owner fields) = some ⟨done.value,written⟩ := by
  obtain ⟨separate,within⟩ := distinct
  rw [cleanupSchema,applySchemaTransforms_eq,bind_eq_some_iff] at cleaned
  obtain ⟨transformed,steps,rest⟩ := cleaned
  rw [map_eq_some_iff] at steps
  obtain ⟨after,rewritten,filled⟩ := steps
  rw [← filled,bind_map_eq_some_iff] at rest
  obtain ⟨inner,properties,last,items,here⟩ := rest
  have keeps := keeps_rewriteNode numberText rewritten
  have unique : after.keys.Nodup := keeps.nodup (by rw [keys_relabelFields]; exact separate)
  have found : ∀ key ∉ stepKeys, after.find key = (OrderedMap.find fields key).map relabel := by
    intro key apart
    rw [keeps.find key apart,find_relabelFields]
  obtain ⟨copied,first,alike,fill⟩ := properties_copied numberText separate (fun child single shallow => agree child single (by omega))
    within unique (found "properties" (by decide)) properties
  have filledUnique : (fillProperties after).keys.Nodup := by
    unfold fillProperties
    split
    · exact nodup_put unique _ _
    · exact unique
  have innerFields : ∃ child, inner.value = replace "properties" child (dropUnsupported (fillProperties after)) := by
    obtain ⟨child,replaced,_⟩ := cleanField_some (nodup_dropUnsupported filledUnique) properties
    exact ⟨child,replaced⟩
  obtain ⟨child,replaced⟩ := innerFields
  have innerUnique : inner.value.keys.Nodup := by
    rw [replaced,keys_replace]
    exact nodup_dropUnsupported filledUnique
  have innerItems : inner.value.find "items" = (OrderedMap.find fields "items").map relabel := by
    rw [replaced,find_replace,if_neg (by decide),find_dropUnsupported _ (by decide),← found "items" (by decide)]
    unfold fillProperties
    split
    · rw [find_put,if_neg (by decide)]
    · rfl
  obtain ⟨cleanedItems,lastFields,inside⟩ := cleanField_some innerUnique items
  have second : ∀ value, ("items",value) ∈ fields → ∃ written, cloneSchemaChild numberText value = some ⟨cleanedItems,written⟩ := by
    intro value member
    have bound : value.depth ≤ depthFields fields := depth_le_of_mem_fields member
    have present := find_of_mem separate member
    exact agree value (distinct_of_mem_fields within member) (by omega) _ (inside _ (by rw [innerItems,present]; rfl))
  obtain ⟨written,cloned⟩ := cloneNodeFields_eq numberText first second
  refine ⟨.own :: written,?_⟩
  have same : ∀ value, OrderedMap.find (relabelFields fields) "properties" = some value → Alike copied value := by
    intro value present
    exact alike value (by rw [keeps.find "properties" (by decide)]; exact present)
  rw [cloneSchemaChild,cloned,bind_some,applySchemaTransforms_eq]
  dsimp only
  rw [rewriteNode_withChildren numberText same,rewritten,map_some,map_some,fill,← lastFields,map_some,← here]

theorem cloneSchemaChild_eq {value : Value} (distinct : value.Distinct) (shallow : value.depth < fuel) : FusedAgrees numberText fuel value := by
  induction fuel generalizing value with
  | zero => exact absurd shallow (Nat.not_lt_zero _)
  | succ fuel ih =>
    intro done cleaned
    cases value with
    | obj owner fields =>
      rw [depth] at shallow
      refine cloneNode_eq numberText distinct ?_ cleaned
      intro child separate shallower
      exact ih separate (by omega)
    | arr owner items =>
      cases cleaned
      refine ⟨[],?_⟩
      rw [cloneSchemaChild,clonePlainValue_eq,relabel]
      simp
    | _ => cases cleaned; exact ⟨[],rfl⟩

mutual
theorem cloneSchemaChild_written : ∀ (value : Value) (done : Done Value), cloneSchemaChild numberText value = some done → WritesOwn done
  | .null,done,cloned | .bool _,done,cloned | .num _,done,cloned | .negativeZero,done,cloned | .str _,done,cloned | .arr _ _,done,cloned => by
    cases cloned
    exact writesOwn_nil
  | .obj _ fields,done,cloned => by
    rw [cloneSchemaChild,bind_map_eq_some_iff] at cloned
    obtain ⟨out,copied,node,_,rfl⟩ := cloned
    have inside := cloneNodeFields_written fields out copied
    simpa [WritesOwn] using inside
theorem cloneNodeFields_written : ∀ (fields : List (String × Value)) (done : Done (List (String × Value))), cloneNodeFields numberText fields = some done →
    WritesOwn done
  | [],done,cloned => by
    cases cloned
    exact writesOwn_nil
  | field :: fields,done,cloned => by
    rw [cloneNodeFields] at cloned
    split at cloned
    · exact cloneNodeFields_written fields done cloned
    · rw [bind_map_eq_some_iff] at cloned
      obtain ⟨child,first,out,later,rfl⟩ := cloned
      refine writesOwn_append ?_ (cloneNodeFields_written fields out later)
      split at first
      · exact clonePropertiesMap_written field.2 child first
      · split at first
        · exact cloneSchemaChild_written field.2 child first
        · cases first
          exact writesOwn_nil
theorem clonePropertiesMap_written : ∀ (value : Value) (done : Done Value), clonePropertiesMap numberText value = some done → WritesOwn done
  | .null,done,cloned | .bool _,done,cloned | .num _,done,cloned | .negativeZero,done,cloned | .str _,done,cloned => by
    cases cloned
    exact writesOwn_nil
  | .obj _ fields,done,cloned => by
    rw [clonePropertiesMap,map_eq_some_iff] at cloned
    obtain ⟨out,copied,here⟩ := cloned
    subst here
    exact clonePropertyFields_written fields out copied
  | .arr _ items,done,cloned => by
    rw [clonePropertiesMap,map_eq_some_iff] at cloned
    obtain ⟨out,copied,here⟩ := cloned
    subst here
    exact clonePropertyItems_written items out copied
theorem clonePropertyFields_written : ∀ (fields : List (String × Value)) (done : Done (List (String × Value))), clonePropertyFields numberText fields = some done →
    WritesOwn done
  | [],done,cloned => by
    cases cloned
    exact writesOwn_nil
  | field :: fields,done,cloned => by
    rw [clonePropertyFields,bind_map_eq_some_iff] at cloned
    obtain ⟨child,first,out,later,rfl⟩ := cloned
    exact writesOwn_append (cloneSchemaChild_written field.2 child first) (clonePropertyFields_written fields out later)
theorem clonePropertyItems_written : ∀ (items : List Value) (done : Done (List Value)), clonePropertyItems numberText items = some done →
    WritesOwn done
  | [],done,cloned => by
    cases cloned
    exact writesOwn_nil
  | item :: items,done,cloned => by
    rw [clonePropertyItems,bind_map_eq_some_iff] at cloned
    obtain ⟨child,first,out,later,rfl⟩ := cloned
    exact writesOwn_append (cloneSchemaChild_written item child first) (clonePropertyItems_written items out later)
end

end
end CodexMultiAuth.ToolSchema
