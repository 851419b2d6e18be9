import CodexMultiAuth.ToolSafety

/-!
What the clean-up of a tool schema leaves. Every node that is left has no unsupported
keyword, and properties where it is an object.
-/
namespace CodexMultiAuth.ToolSchema
open Value List OrderedMap

/-- The type once a list of types has been collapsed. -/
def collapsedType (schema : Fields) : Option Value :=
  match schema.find "type" with
  | some (.arr _ types) => types.find? (fun type => !isNullText type)
  | type => type

/-- A node that the order of the steps suits: its list of types does not begin with a list, and
    no list of required properties stands on an object that has no properties. -/
structure Suited (schema : Fields) : Prop where
  types : ∀ owner types, collapsedType schema ≠ some (.arr owner types)
  required : isObjectType (collapsedType schema) = true → isEmptyProperties (schema.find "properties") = true →
    (∀ owner fields, schema.find "properties" ≠ some (.obj owner fields)) → ∀ owner required, schema.find "required" ≠ some (.arr owner required)

/-- A node without the keywords that are not supported, and with properties where it is an object. -/
structure Supported (schema : Fields) : Prop where
  keywords : ∀ field ∈ schema, isUnsupported field.1 = false
  properties : isObjectType (schema.find "type") = true → isEmptyProperties (schema.find "properties") = false

section
variable [Host] (numberText : ℚ → String)

/-- Required properties are among those there are. -/
def RequiredOwned (schema : Fields) : Prop :=
  ∀ owner required own, schema.find "required" = some (.arr owner required) → ownKeys (schema.find "properties") = some own →
    required ≠ [] ∧ ∀ key ∈ required, ∃ text, propertyKey numberText key = some text ∧ own text = true

/-- No union is left that the first step flattens. -/
def UnionKept (schema : Fields) : Prop :=
  ∀ owner anyOf, schema.find "anyOf" = some (.arr owner anyOf) → anyOf = [] ∨ everyConst anyOf = some false

structure NodeNormal (schema : Fields) : Prop extends Supported schema where
  union : UnionKept schema
  types : ∀ owner types, schema.find "type" = some (.arr owner types) → ∀ type ∈ types, isNullText type = true
  required : RequiredOwned numberText schema

/-! ### The steps leave a normal form -/

omit [Host] in
theorem flattenUnion_leaves {schema flat : Fields} (done : flattenUnion schema = some flat) :
    UnionKept flat ∧ (flat.find "type" = schema.find "type" ∨ ∃ text, flat.find "type" = some (.str text) ∧ text ≠ "object") := by
  unfold flattenUnion at done
  split at done
  case h_2 other =>
    cases done
    exact ⟨fun owner anyOf found => absurd found (other owner anyOf),Or.inl rfl⟩
  case h_1 owner anyOf found =>
    obtain ⟨allConst,every,rfl⟩ := Option.map_eq_some_iff.mp done
    split
    case h_2 different =>
      refine ⟨fun maker options same => ?_,Or.inl rfl⟩
      cases found.symm.trans same
      cases anyOf with
      | nil => exact Or.inl rfl
      | cons first rest =>
        cases allConst with
        | true => exact absurd rfl (different first rest rfl)
        | false => exact Or.inr every
    case h_1 first rest =>
      dsimp only
      have removed : ∀ maker options,
          ((schema.put "enum" (.arr .own ((first :: rest).map constOf))).remove "anyOf").find "anyOf" ≠ some (.arr maker options) := by
        intro maker options
        rw [find_remove,if_pos rfl]
        exact nofun
      have same : ((schema.put "enum" (.arr .own ((first :: rest).map constOf))).remove "anyOf").find "type" = schema.find "type" := by
        rw [find_remove,if_neg (by decide),find_put,if_neg (by decide)]
      split
      · exact ⟨fun maker options here => absurd here (removed maker options),Or.inl same⟩
      · split
        case h_2 => exact ⟨fun maker options here => absurd here (removed maker options),Or.inl same⟩
        case h_1 type inferred =>
          refine ⟨fun maker options here => ?_,Or.inr ⟨type,by rw [find_put,if_pos rfl],?_⟩⟩
          · rw [find_put,if_neg (by decide)] at here
            exact absurd here (removed maker options)
          · rintro rfl
            cases const : constOf first <;> simp [const,inferredType] at inferred

theorem collapseType_leaves {schema collapsed : Fields} (done : collapseType schema = some collapsed) :
    collapsed.find "type" = collapsedType schema ∨
      ∃ owner types, collapsed.find "type" = some (.arr owner types) ∧ ∀ type ∈ types, isNullText type = true := by
  unfold collapseType at done
  split at done
  case h_2 other =>
    cases done
    left
    unfold collapsedType
    cases found : schema.find "type" with
    | none => rfl
    | some value =>
      cases value with
      | arr owner types => exact absurd found (other owner types)
      | _ => rfl
  case h_1 owner types found =>
    have typed : collapsedType schema = types.find? (fun type => !isNullText type) := by
      unfold collapsedType
      rw [found]
    split at done
    case h_1 none_ =>
      cases done
      exact Or.inr ⟨owner,types,found,by simpa using filter_eq_nil_iff.mp none_⟩
    case h_2 first rest kept =>
      left
      rw [typed,← List.head?_filter,kept,List.head?_cons]
      dsimp only at done
      split at done
      · rw [find_noteNullable done (by decide),find_put,if_pos rfl]
      · cases done
        rw [find_put,if_pos rfl]

omit [Host] in
theorem validRequired_owned {own : String → Bool} {required valid : List Value} (done : validRequired numberText own required = some valid) :
    valid.Sublist required ∧ ∀ key ∈ valid, ∃ text, propertyKey numberText key = some text ∧ own text = true := by
  induction required generalizing valid with
  | nil =>
    cases done
    exact ⟨List.Sublist.slnil,fun key member => absurd member not_mem_nil⟩
  | cons key required ih =>
    obtain ⟨text,named,later,kept,rfl⟩ := bind_map_eq_some_iff.mp done
    obtain ⟨sublist,owned⟩ := ih kept
    split
    case isTrue own_ => exact ⟨sublist.cons_cons key,forall_mem_cons.mpr ⟨⟨text,named,own_⟩,owned⟩⟩
    case isFalse => exact ⟨sublist.cons key,owned⟩

omit [Host] in
theorem filterRequired_leaves {schema filtered : Fields} (done : filterRequired numberText schema = some filtered) :
    (∀ key, key ≠ "required" → filtered.find key = schema.find key) ∧ RequiredOwned numberText filtered ∧
      ∀ owner required, filtered.find "required" = some (.arr owner required) → ∃ maker given, schema.find "required" = some (.arr maker given) := by
  unfold filterRequired at done
  split at done
  case h_2 other =>
    cases done
    exact ⟨fun _ _ => rfl,fun owner required own listed owned => absurd owned (other owner required own listed),
      fun owner required listed => ⟨owner,required,listed⟩⟩
  case h_1 owner required own listed owned =>
    obtain ⟨valid,filtered_,rfl⟩ := Option.map_eq_some_iff.mp done
    obtain ⟨sublist,named⟩ := validRequired_owned numberText filtered_
    split
    case h_1 =>
      have apart : ∀ key, key ≠ "required" → (schema.remove "required").find key = schema.find key := fun key apart => by
        rw [find_remove,if_neg (Ne.symm apart)]
      have none_ : (schema.remove "required").find "required" = none := by rw [find_remove,if_pos rfl]
      refine ⟨apart,fun maker listed_ owns here => ?_,fun maker listed_ _ => ⟨owner,required,listed⟩⟩
      cases none_.symm.trans here
    case h_2 first rest =>
      split
      case isTrue =>
        have apart : ∀ key, key ≠ "required" → (schema.put "required" (.arr .own (first :: rest))).find key = schema.find key := fun key apart => by
          rw [find_put,if_neg (Ne.symm apart)]
        refine ⟨apart,fun maker listed_ owns here same => ?_,fun maker listed_ _ => ⟨owner,required,listed⟩⟩
        rw [apart _ (by decide),owned] at same
        rw [find_put,if_pos rfl] at here
        cases same
        cases here
        exact ⟨cons_ne_nil _ _,named⟩
      case isFalse whole =>
        have all : first :: rest = required := sublist.eq_of_length (not_not.mp whole)
        refine ⟨fun _ _ => rfl,fun maker listed_ owns here same => ?_,fun maker listed_ here => ⟨maker,listed_,here⟩⟩
        cases owned.symm.trans same
        cases listed.symm.trans here
        exact ⟨all ▸ cons_ne_nil _ _,all ▸ named⟩

/-- The parts of the normal form that the clean-up of properties and items leaves alone. -/
structure StepsLeave (schema node : Fields) : Prop where
  properties : isObjectType (node.find "type") = true → isEmptyProperties (node.find "properties") = false
  union : UnionKept node
  types : Suited schema → ∀ owner types, node.find "type" = some (.arr owner types) → ∀ type ∈ types, isNullText type = true
  required : Suited schema → RequiredOwned numberText node

theorem applySchemaTransforms_leaves {schema node : Fields} (done : applySchemaTransforms numberText schema = some node) :
    StepsLeave numberText schema node := by
  obtain ⟨flat,flattened,rest⟩ := Option.bind_eq_some_iff.mp done
  obtain ⟨collapsed,type_,filtered,required_,rfl⟩ := bind_map_eq_some_iff.mp rest
  obtain ⟨union,flatType⟩ := flattenUnion_leaves flattened
  have flat_ := flattenUnion_flattened flattened
  obtain ⟨others,owned,listed⟩ := filterRequired_leaves numberText required_
  have kept : ∀ key, key ≠ "type" → key ≠ "description" → key ≠ "required" → filtered.find key = flat.find key := fun key notType notDescription notRequired =>
    (others key notRequired).trans (find_collapseType type_ notType notDescription)
  -- the type after the steps, read from the type that was given
  have typed : filtered.find "type" = collapsedType schema ∨ (∃ text, filtered.find "type" = some (.str text) ∧ text ≠ "object") ∨
      ∃ owner types, filtered.find "type" = some (.arr owner types) ∧ ∀ type ∈ types, isNullText type = true := by
    rw [others _ (by decide)]
    rcases collapseType_leaves type_ with same | nulls
    · rw [same]
      rcases flatType with same | ⟨text,here,apart⟩
      · exact Or.inl (by rw [collapsedType,same]; rfl)
      · exact Or.inr (Or.inl ⟨text,by rw [collapsedType,here],apart⟩)
    · exact Or.inr (Or.inr nulls)
  have nulls : Suited schema → ∀ owner types, filtered.find "type" = some (.arr owner types) → ∀ type ∈ types, isNullText type = true := by
    intro suited owner types here
    rcases typed with same | ⟨text,same,-⟩ | ⟨maker,list,same,nulls⟩
    · exact absurd (same.symm.trans here) (suited.types owner types)
    · cases same.symm.trans here
    · cases same.symm.trans here
      exact nulls
  unfold fillProperties
  split
  case isFalse unfilled =>
    refine ⟨fun object => ?_,?_,nulls,fun _ => owned⟩
    · rw [object,Bool.true_and] at unfilled
      exact Bool.eq_false_iff.mpr unfilled
    · exact fun owner anyOf here => union owner anyOf ((kept "anyOf" (by decide) (by decide) (by decide)).symm.trans here)
  case isTrue filled =>
    obtain ⟨object,empty⟩ := Bool.and_eq_true_iff.mp filled
    have apart : ∀ key, key ≠ "properties" → (filtered.put "properties" placeholder).find key = filtered.find key := fun key apart => by
      rw [find_put,if_neg (Ne.symm apart)]
    refine ⟨fun _ => by rw [find_put,if_pos rfl]; rfl,fun owner anyOf here => ?_,fun suited => ?_,fun suited owner required own here => ?_⟩
    · rw [apart _ (by decide),kept "anyOf" (by decide) (by decide) (by decide)] at here
      exact union owner anyOf here
    · rw [apart _ (by decide)]
      exact nulls suited
    · -- a list of required properties would have been removed with the empty properties it names
      rw [apart _ (by decide)] at here
      have same : filtered.find "properties" = schema.find "properties" := (kept "properties" (by decide) (by decide) (by decide)).trans flat_.properties
      have object_ : isObjectType (collapsedType schema) = true := by
        rcases typed with same | ⟨text,same,other⟩ | ⟨maker,list,same,-⟩
        · rwa [same] at object
        · rw [same] at object
          exact absurd (of_decide_eq_true object) other
        · rw [same] at object
          cases object
      obtain ⟨maker,given,listed_⟩ := listed owner required here
      rw [find_collapseType type_ (by decide) (by decide),flat_.required] at listed_
      by_cases objects : ∀ maker fields, schema.find "properties" ≠ some (.obj maker fields)
      · exact absurd listed_ (suited.required object_ (same ▸ empty) objects maker given)
      · push Not at objects
        obtain ⟨holder,fields,present⟩ := objects
        rw [same,present] at empty
        have none_ : fields = [] := by simpa [isEmptyProperties,truthy,keyCount] using empty
        subst none_
        obtain ⟨some_,named⟩ := owned owner required _ here (by rw [same,present]; rfl)
        obtain ⟨first,rest,rfl⟩ := exists_cons_of_ne_nil some_
        obtain ⟨text,-,nothing⟩ := named first mem_cons_self
        cases nothing

theorem NodeNormal.settled {schema : Fields} (normal : NodeNormal numberText schema) :
    applySchemaTransforms numberText schema = some schema ∧ dropUnsupported schema = schema := by
  have flat : flattenUnion schema = some schema := by
    unfold flattenUnion
    split
    case h_2 => rfl
    case h_1 owner anyOf found =>
      rcases normal.union owner anyOf found with rfl | every
      · rfl
      · rw [every]
        rfl
  have type_ : collapseType schema = some schema := by
    unfold collapseType
    split
    case h_2 => rfl
    case h_1 owner types found =>
      have none_ : types.filter (fun type => !isNullText type) = [] :=
        filter_eq_nil_iff.mpr fun type member => by simp [normal.types owner types found type member]
      rw [none_]
  have required : filterRequired numberText schema = some schema := by
    unfold filterRequired
    split
    case h_2 => rfl
    case h_1 owner required own listed owned =>
      obtain ⟨some_,named⟩ := normal.required owner required own listed owned
      have all : validRequired numberText own required = some required := by
        clear some_ listed
        induction required with
        | nil => rfl
        | cons key required ih =>
          obtain ⟨⟨text,same,own_⟩,later⟩ := forall_mem_cons.mp named
          rw [validRequired,same,Option.bind_some,ih later,Option.map_some,if_pos own_]
      obtain ⟨first,rest,rfl⟩ := exists_cons_of_ne_nil some_
      simp [all]
  have filled : fillProperties schema = schema := by
    unfold fillProperties
    cases object : isObjectType (schema.find "type") with
    | false => rfl
    | true => simp [normal.properties object]
  refine ⟨by simp [applySchemaTransforms,flat,type_,required,filled],filter_eq_self.mpr fun field member => ?_⟩
  rw [normal.keywords field member]
  rfl

/-! ### The whole schema -/

/-- What cleaning the properties and the items leaves of a node. -/
structure Leaves (node last : Fields) : Prop where
  find : ∀ key ∈ stepKeys, last.find key = node.find key
  own : ownKeys (last.find "properties") = ownKeys (node.find "properties")
  empty : isEmptyProperties (last.find "properties") = isEmptyProperties (node.find "properties")
  keywords : ∀ field ∈ last, isUnsupported field.1 = false

omit [Host] in
theorem forall_cleaned {Q : Value → Prop} {clean : Value → Option (Done Value)} :
    (∀ (fields : List (String × Value)) (done : Done (List (String × Value))), cleanFields clean fields = some done →
      (∀ field ∈ fields, ∀ child, clean field.2 = some child → Q child.value) → ∀ field ∈ done.value, Q field.2) ∧
    ∀ (items : List Value) (done : Done (List Value)), cleanItems clean items = some done →
      (∀ item ∈ items, ∀ child, clean item = some child → Q child.value) → ∀ item ∈ done.value, Q item := by
  constructor
  · intro fields
    induction fields with
    | nil => rintro done ⟨⟩ - field member; exact absurd member not_mem_nil
    | cons field fields ih =>
      intro done cleaned each
      obtain ⟨child,here,others,later,rfl⟩ := bind_map_eq_some_iff.mp cleaned
      obtain ⟨first,next⟩ := forall_mem_cons.mp each
      exact forall_mem_cons.mpr ⟨first child here,ih others later next⟩
  · intro items
    induction items with
    | nil => rintro done ⟨⟩ - item member; exact absurd member not_mem_nil
    | cons item items ih =>
      intro done cleaned each
      obtain ⟨child,here,others,later,rfl⟩ := bind_map_eq_some_iff.mp cleaned
      obtain ⟨first,next⟩ := forall_mem_cons.mp each
      exact forall_mem_cons.mpr ⟨first child here,ih others later next⟩

/-- What holds of a node that was cleaned, given what holds of the node it was, holds of every
    node of a cleaned schema. -/
theorem cleanupSchema_forall {B A : Fields → Prop}
    (step : ∀ schema node last, applySchemaTransforms numberText schema = some node → Leaves node last → B schema → A last)
    (filler : ∀ node ∈ schemaNodes .properties placeholder, A node) {fuel : ℕ} {value : Value} (distinct : value.Distinct)
    (shallow : value.depth < fuel) (before : ∀ node ∈ schemaNodes .schema value, B node) {done : Done Value}
    (cleaned : cleanupSchema numberText fuel value = some done) : ∀ node ∈ schemaNodes .schema done.value, A node := by
  induction fuel generalizing value done with
  | zero => exact absurd shallow (Nat.not_lt_zero _)
  | succ fuel ih =>
    cases value with
    | obj owner fields =>
      obtain ⟨separate,within⟩ := distinct
      rw [depth] at shallow
      obtain ⟨here,below⟩ := (forall_node owner fields).mp before
      obtain ⟨properties_,items_⟩ := (forall_children separate).mp below
      have inside : ∀ {key value}, OrderedMap.find fields key = some value → value.Distinct ∧ value.depth ≤ depthFields fields :=
        fun found => ⟨distinct_of_mem_fields within (mem_of_find found),depth_le_of_mem_fields (mem_of_find found)⟩
      obtain ⟨node,steps,rest⟩ := Option.bind_eq_some_iff.mp cleaned
      obtain ⟨inner,first,last,second,rfl⟩ := bind_map_eq_some_iff.mp rest
      have steps_ := steps
      rw [applySchemaTransforms_eq] at steps_
      obtain ⟨rewritten,written,filled⟩ := Option.map_eq_some_iff.mp steps_
      have keeps := keeps_rewriteNode numberText written
      have nodup : node.keys.Nodup := by
        rw [← filled]
        unfold fillProperties
        split
        · exact nodup_put (keeps.nodup separate) _ _
        · exact keeps.nodup separate
      obtain ⟨properties,innerEq,cleanedProperties⟩ := cleanField_some (nodup_dropUnsupported nodup) first
      have innerNodup : inner.value.keys.Nodup := by
        rw [innerEq,keys_replace]
        exact nodup_dropUnsupported nodup
      obtain ⟨items,lastEq,cleanedItems⟩ := cleanField_some innerNodup second
      have lastNode : last.value = withChildren properties items node := by rw [lastEq,innerEq,withChildren]
      have lastKeys : last.value.keys = (dropUnsupported node).keys := by rw [lastEq,keys_replace,innerEq,keys_replace]
      have lastProperties : last.value.find "properties" = (node.find "properties").map (fun _ => properties) := by
        rw [lastNode,find_properties_withChildren]
      have cleanedNode : ∀ value, node.find "properties" = some value → cleanProperties (cleanupSchema numberText fuel) value = some ⟨properties,inner.written⟩ :=
        fun value found => cleanedProperties value (by rw [find_dropUnsupported _ (by decide),found])
      refine (forall_node owner last.value).mpr ⟨step fields node last.value steps ⟨fun key member => ?_,?_,?_,?_⟩ here,
        (forall_children (lastKeys ▸ nodup_dropUnsupported nodup)).mpr ⟨fun value found => ?_,fun value found => ?_⟩⟩
      · rw [lastNode,transparent_withChildren.find key member]
      · rw [lastProperties]
        cases found : node.find "properties" with
        | none => rfl
        | some value => exact (alike_cleanProperties (cleanedNode value found)).own
      · rw [lastProperties]
        cases found : node.find "properties" with
        | none => rfl
        | some value => exact (alike_cleanProperties (cleanedNode value found)).empty
      · intro field member
        have key : field.1 ∈ (dropUnsupported node).keys := lastKeys ▸ mem_map_of_mem member
        obtain ⟨other,kept,same⟩ := mem_map.mp key
        rw [← same]
        simpa using (mem_filter.mp kept).2
      · rw [lastProperties] at found
        obtain ⟨given,present,rfl⟩ := Option.map_eq_some_iff.mp found
        obtain ⟨wrote,cleaned_⟩ : ∃ wrote, cleanProperties (cleanupSchema numberText fuel) given = some ⟨properties,wrote⟩ := ⟨_,cleanedNode given present⟩
        rw [← filled] at present
        unfold fillProperties at present
        split at present
        case isTrue =>
          rw [find_put,if_pos rfl] at present
          cases present
          obtain ⟨_,same⟩ := cleanProperties_placeholder numberText fuel
          cases same.symm.trans cleaned_
          exact filler
        case isFalse =>
          rw [keeps.find "properties" (by decide)] at present
          obtain ⟨single,bound⟩ := inside present
          have nodes := properties_ given present
          cases given with
          | obj maker props =>
            obtain ⟨out,cleanedFields,same⟩ := Option.map_eq_some_iff.mp cleaned_
            cases same
            refine (forall_fields .properties out.value).mpr ((forall_cleaned (Q := fun value => ∀ node ∈ schemaNodes .schema value, A node)).1 props out cleanedFields fun field member child made => ?_)
            have lower := depth_le_of_mem_fields member
            rw [depth] at bound
            exact ih (distinct_of_mem_fields single.2 member) (by omega) ((forall_fields .properties props).mp nodes field member) made
          | arr maker list =>
            obtain ⟨out,cleanedItems_,same⟩ := Option.map_eq_some_iff.mp cleaned_
            cases same
            refine (forall_items .schema out.value).mpr ((forall_cleaned (Q := fun value => ∀ node ∈ schemaNodes .schema value, A node)).2 list out cleanedItems_ fun item member child made => ?_)
            have lower := depth_le_of_mem_items member
            rw [depth] at bound
            exact ih (distinct_of_mem_items single member) (by omega) ((forall_items .schema list).mp nodes item member) made
          | _ =>
            cases cleaned_
            exact fun node member => absurd member not_mem_nil
      · have given : inner.value.find "items" = OrderedMap.find fields "items" := by
          rw [innerEq,find_replace,if_neg (by decide),find_dropUnsupported _ (by decide),← filled,← keeps.find "items" (by decide)]
          unfold fillProperties
          split
          · rw [find_put,if_neg (by decide)]
          · rfl
        rw [lastEq,find_replace,if_pos rfl] at found
        obtain ⟨old,present,rfl⟩ := Option.map_eq_some_iff.mp found
        have made := cleanedItems old present
        rw [given] at present
        obtain ⟨single,bound⟩ := inside present
        exact ih single (by omega) (items_ old present) made
    | arr owner items =>
      cases cleaned
      show ∀ node ∈ schemaNodesItems .data items,A node
      simp [schemaNodesItems_data]
    | _ =>
      cases cleaned
      exact fun node member => absurd member not_mem_nil

omit [Host] in
theorem placeholder_normal : ∀ node ∈ schemaNodes .properties placeholder, NodeNormal numberText node := by
  intro node member
  obtain rfl : node = [("type",.str "boolean"),("description",.str "This property is a placeholder and should be ignored.")] := by
    simpa [placeholder,schemaNodes,schemaNodesFields,childSchemaMode] using member
  exact { keywords := by decide, properties := fun object => absurd object (by decide), union := fun _ _ found => (by cases found),
          types := fun _ _ found => (by cases found), required := fun _ _ _ found => (by cases found) }

omit [Host] in
theorem Leaves.normal {schema node last : Fields} (steps : StepsLeave numberText schema node) (leaves : Leaves node last) :
    Supported last ∧ (Suited schema → NodeNormal numberText last) := by
  have type_ := leaves.find "type" (by decide)
  have supported : Supported last := ⟨leaves.keywords,fun object => leaves.empty.trans (steps.properties (type_ ▸ object))⟩
  refine ⟨supported,fun suited => { supported with union := ?_, types := ?_, required := ?_ }⟩
  · exact fun owner anyOf found => steps.union owner anyOf ((leaves.find "anyOf" (by decide)).symm.trans found)
  · exact fun owner types found => steps.types suited owner types (type_.symm.trans found)
  · exact fun owner required own listed owned => steps.required suited owner required own ((leaves.find "required" (by decide)).symm.trans listed)
      (leaves.own.symm.trans owned)

omit [Host] in
theorem suited_relabel {schema : Fields} (suited : Suited schema) : Suited (copyFields relabel schema) := by
  have type_ : collapsedType (copyFields relabel schema) = (collapsedType schema).map relabel := by
    unfold collapsedType
    rw [find_copyFields]
    rcases schema.find "type" with _ | value
    · rfl
    · cases value with
      | arr owner types =>
        show (relabelItems types).find? _ = (types.find? _).map relabel
        rw [relabelItems_eq,List.find?_map]
        exact congrArg (fun test => (types.find? test).map relabel) (funext fun type => congrArg not (isNullText_relabel type))
      | _ => rfl
  have list {value : Option Value} (none_ : ∀ owner items, value ≠ some (.arr owner items)) : ∀ owner items, value.map relabel ≠ some (.arr owner items) := by
    intro owner items found
    obtain ⟨given,here,made⟩ := Option.map_eq_some_iff.mp found
    obtain ⟨maker,old,rfl⟩ := copies_relabel.list given owner items made
    exact none_ maker old here
  refine ⟨type_ ▸ list suited.types,fun object empty others => ?_⟩
  rw [find_copyFields] at empty others ⊢
  refine list (suited.required ?_ (isEmptyProperties_relabel _ ▸ empty) fun owner fields found => ?_)
  · rw [type_] at object
    rcases here : collapsedType schema with _ | value
    · rw [here] at object
      cases object
    · rw [here] at object
      cases value <;> exact object
  · exact others .own (relabelFields fields) (by rw [found]; rfl)

/-- A cleaned schema, by the one pipeline or the other, has no unsupported keyword and no object
    without properties; where the order of the steps suits the nodes it is in normal form. -/
theorem cleaned_normal {schema : Value} (distinct : schema.Distinct) {fuel : ℕ} (enough : schema.depth < fuel) {done : Done Value}
    (cleaned : cleanupSchema numberText fuel schema = some done ∨ cloneAndCleanSchema numberText schema = some done) :
    (∀ node ∈ schemaNodes .schema done.value, Supported node) ∧
      ((∀ node ∈ schemaNodes .schema schema, Suited node) → (∀ node ∈ schemaNodes .schema done.value, NodeNormal numberText node) ∧
        ∀ more, done.value.depth < more → ∃ written, cleanupSchema numberText more done.value = some ⟨done.value,written⟩) := by
  -- the single pass gives what cleaning a copy in place gives
  obtain ⟨given,written,distinct_,shallow,made,suited⟩ : ∃ given written, given.Distinct ∧ given.depth < fuel ∧
      cleanupSchema numberText fuel given = some ⟨done.value,written⟩ ∧
      ((∀ node ∈ schemaNodes .schema schema, Suited node) → ∀ node ∈ schemaNodes .schema given, Suited node) := by
    rcases cleaned with inPlace | copied
    · exact ⟨schema,done.written,distinct,enough,inPlace,id⟩
    · have separate := (rebuilds_relabel.distinct schema).mpr distinct
      have shallow := (rebuilds_relabel.depth_eq schema).trans_lt enough
      have nodes := rebuilds_relabel.nodes schema .schema
      have safe : AllSafe (schemaNodes .schema (relabel schema)) := by
        rw [nodes,AllSafe,forall_mem_map]
        exact fun node member => (copies_relabel.node node).mpr (cloneSchemaChild_safe numberText schema done copied node member)
      obtain ⟨other,made⟩ := Option.isSome_iff_exists.mp ((cleanupSchema_isSome numberText separate shallow).mpr safe)
      obtain ⟨wrote,same⟩ := cloneSchemaChild_eq numberText distinct enough other made
      cases same.symm.trans copied
      refine ⟨relabel schema,other.written,separate,shallow,made,fun all => ?_⟩
      rw [nodes,forall_mem_map]
      exact fun node member => suited_relabel (all node member)
  refine ⟨?_,fun all => ?_⟩
  · have supported := cleanupSchema_forall numberText (B := fun _ => True)
      (fun _ _ _ steps leaves _ => (leaves.normal numberText (applySchemaTransforms_leaves numberText steps)).1)
      (fun node member => (placeholder_normal numberText node member).toSupported) distinct_ shallow (fun _ _ => trivial) made
    exact supported
  · have normal := cleanupSchema_forall numberText (fun _ _ _ steps leaves => (leaves.normal numberText (applySchemaTransforms_leaves numberText steps)).2)
      (placeholder_normal numberText) distinct_ shallow (suited all) made
    exact ⟨normal,fun more deeper => cleanupSchema_settled numberText deeper fun node member => (normal node member).settled⟩

end

section
attribute [local instance] asciiHost

/-- A type list, an empty object of properties and a keyword that is not supported. -/
def nullableObject : Value :=
  .obj .caller [("type",.arr .caller [.str "null",.str "object"]),("properties",.obj .caller []),("required",.arr .caller [.str "a"]),("title",.str "t")]

/-- An object with that and a list, whose items may be null. -/
def nestedSchema : Value :=
  .obj .caller [("type",.str "object"),("properties",.obj .caller [("child",nullableObject),
    ("list",.obj .caller [("type",.str "array"),("items",.obj .caller [("type",.arr .caller [.str "string",.str "null"]),("title",.str "t")])])]),
    ("required",.arr .caller [.str "child",.str "gone"])]

theorem nestedSchema_normal : ∃ done, cleanupSchema (fun _ => "0") 6 nestedSchema = some done ∧
    (∀ node ∈ schemaNodes .schema done.value, NodeNormal (fun _ => "0") node) ∧
      ∃ written, cleanupSchema (fun _ => "0") (done.value.depth + 1) done.value = some ⟨done.value,written⟩ := by
  have suited : ∀ node ∈ schemaNodes .schema nestedSchema, Suited node := by
    intro node member
    rw [show schemaNodes .schema nestedSchema = [_,_,_,_] from rfl] at member
    simp only [mem_cons,not_mem_nil,or_false] at member
    rcases member with rfl | rfl | rfl | rfl
    · exact ⟨fun _ _ found => (by cases found),fun _ empty => absurd empty (by decide)⟩
    · exact ⟨fun _ _ found => (by cases found),fun _ _ others => absurd rfl (others .caller [])⟩
    · exact ⟨fun _ _ found => (by cases found),fun object => absurd object (by decide)⟩
    · exact ⟨fun _ _ found => (by cases found),fun object => absurd object (by decide)⟩
  obtain ⟨done,cleaned⟩ : ∃ done, cleanupSchema (fun _ => "0") 6 nestedSchema = some done := Option.isSome_iff_exists.mp (by decide)
  have distinct : nestedSchema.Distinct := by simp [nestedSchema,nullableObject,Distinct,DistinctFields,DistinctItems]
  have normal := (cleaned_normal (fun _ => "0") distinct (by decide) (Or.inl cleaned)).2 suited
  exact ⟨done,cleaned,normal.1,normal.2 _ (Nat.lt_succ_self _)⟩

theorem option_keeps_title : ¬∀ schema : Value, schema.Distinct → ∀ done, legacyParameters (fun _ => "0") schema = some done →
    ∀ owner fields maker options holder option, done.value = .obj owner fields → OrderedMap.find fields "anyOf" = some (.arr maker options) →
      .obj holder option ∈ options → ∀ field ∈ option, isUnsupported field.1 = false := by
  intro clean
  have kept := clean (.obj .caller [("anyOf",.arr .caller [.obj .caller [("title",.str "t")]])]) (by simp [Distinct,DistinctFields,DistinctItems])
    ⟨_,_⟩ rfl .own _ .own _ .own _ rfl rfl mem_cons_self ("title",.str "t") mem_cons_self
  exact absurd kept (by decide)

end
end CodexMultiAuth.ToolSchema
