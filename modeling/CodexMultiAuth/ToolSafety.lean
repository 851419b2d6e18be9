import CodexMultiAuth.ToolLaw

/-!
Where the clean-up of tools throws. A schema node is safe when its unions, its
description and its required keys hold what the steps can work with.
-/
namespace CodexMultiAuth.ToolSchema
open Value List OrderedMap
set_option linter.unusedSectionVars false

def isPrimitive : Value → Bool
  | .arr _ _ => false
  | .obj _ _ => false
  | _ => true

/-- An option that ends the search for constants. -/
def lacksConst : Value → Bool
  | .arr _ _ => true
  | .obj _ fields => (OrderedMap.find fields "const").isNone
  | _ => false

/-- An option that is no object comes only after one without `const`. -/
def OptionsSafe (anyOf : List Value) : Prop :=
  ∀ before option after, anyOf = before ++ option :: after → isPrimitive option = true → ∃ earlier ∈ before, lacksConst earlier = true

mutual
/-- A value that can be turned into a property key: no object in it hides its `toString`. -/
def Keyed : Value → Prop
  | .arr _ items => KeyedItems items
  | .obj _ fields => fields.any (fun field => field.1 == "toString") = false
  | _ => True
def KeyedItems : List Value → Prop
  | [] => True
  | item :: items => Keyed item ∧ KeyedItems items
end

/-- A node on which the steps do not throw. -/
structure NodeSafe (schema : Fields) : Prop where
  union : ∀ owner anyOf, schema.find "anyOf" = some (.arr owner anyOf) → OptionsSafe anyOf
  description : ∀ owner types, schema.find "type" = some (.arr owner types) → types.any isNullText = true →
    types.any (fun type => !isNullText type) = true → truthy (schema.find "description") = true →
    ∃ text, schema.find "description" = some (.str text)
  required : ∀ owner required, schema.find "required" = some (.arr owner required) → (ownKeys (schema.find "properties")).isSome = true →
    ∀ key ∈ required, Keyed key

/-! ### The steps on a node -/

variable {rest : List Value}

theorem optionsSafe_skip {option : Value} (object : isPrimitive option = false) (with_ : lacksConst option = false) :
    OptionsSafe (option :: rest) ↔ OptionsSafe rest := by
  constructor
  · intro safe before later after split_ primitive
    obtain ⟨earlier,member,lacks⟩ := safe (option :: before) later after (congrArg (option :: ·) split_) primitive
    rcases mem_cons.mp member with rfl | inside
    · exact absurd (lacks.symm.trans with_) (by decide)
    · exact ⟨earlier,inside,lacks⟩
  · intro safe before later after split_ primitive
    cases before with
    | nil =>
      cases split_
      exact absurd (primitive.symm.trans object) (by decide)
    | cons head before =>
      cases split_
      obtain ⟨earlier,member,lacks⟩ := safe before later after rfl primitive
      exact ⟨earlier,mem_cons_of_mem _ member,lacks⟩

theorem optionsSafe_stop {option : Value} (object : isPrimitive option = false) (without : lacksConst option = true) :
    OptionsSafe (option :: rest) := by
  intro before later after split_ primitive
  cases before with
  | nil =>
    cases split_
    exact absurd (primitive.symm.trans object) (by decide)
  | cons head before =>
    cases split_
    exact ⟨option,mem_cons_self,without⟩

theorem not_optionsSafe {option : Value} (primitive : isPrimitive option = true) : ¬OptionsSafe (option :: rest) := by
  intro safe
  obtain ⟨earlier,member,-⟩ := safe [] option rest rfl primitive
  exact absurd member not_mem_nil

section
variable [Host] (numberText : ℚ → String)

theorem everyConst_isSome : ∀ anyOf, (everyConst anyOf).isSome = true ↔ OptionsSafe anyOf
  | [] => iff_of_true rfl fun before option after split_ => absurd split_ (by simp)
  | .obj owner fields :: rest => by
    rw [everyConst]
    cases present : (OrderedMap.find fields "const").isSome with
    | true =>
      rw [if_pos rfl,everyConst_isSome rest]
      exact (optionsSafe_skip rfl (by show (OrderedMap.find fields "const").isNone = false; simpa [Option.isNone_eq_false_iff] using present)).symm
    | false =>
      rw [if_neg (by decide)]
      refine iff_of_true rfl (optionsSafe_stop rfl ?_)
      show (OrderedMap.find fields "const").isNone = true
      rw [Option.isNone_iff_eq_none]
      exact Option.isSome_eq_false_iff.mp present |> Option.isNone_iff_eq_none.mp
  | .arr _ _ :: _ => iff_of_true rfl (optionsSafe_stop rfl rfl)
  | .null :: _ | .bool _ :: _ | .num _ :: _ | .negativeZero :: _ | .str _ :: _ =>
    iff_of_false (fun none_ => nomatch none_) (not_optionsSafe rfl)

theorem isSome_bind_map {α β γ : Type} (first : Option α) (second : Option β) (both : α → β → γ) :
    (first.bind (fun a => second.map (both a))).isSome = true ↔ first.isSome = true ∧ second.isSome = true := by
  cases first with
  | none => simp
  | some a => simp

theorem joinedKeys_cons (item : Value) (items : List Value) (here : (propertyKey numberText item).isSome = true ↔ Keyed item)
    (later : (joinedKeys numberText items).isSome = true ↔ KeyedItems items)
    (notNull : item = .null → False) : (joinedKeys numberText (item :: items)).isSome = true ↔ KeyedItems (item :: items) := by
  have unfolded : joinedKeys numberText (item :: items) =
      (propertyKey numberText item).bind (fun text => (joinedKeys numberText items).map (fun texts => text :: texts)) := by
    rw [joinedKeys]
    exact notNull
  rw [unfolded,isSome_bind_map,here,later,KeyedItems]

mutual
theorem propertyKey_isSome : ∀ value, (propertyKey numberText value).isSome = true ↔ Keyed value
  | .null | .bool _ | .num _ | .negativeZero | .str _ => iff_of_true rfl trivial
  | .arr _ items => by
    rw [propertyKey,Option.isSome_map,Keyed]
    exact joinedKeys_isSome items
  | .obj _ fields => by
    rw [propertyKey,Keyed]
    cases fields.any (fun field => field.1 == "toString") <;> simp
theorem joinedKeys_isSome : ∀ items, (joinedKeys numberText items).isSome = true ↔ KeyedItems items
  | [] => iff_of_true rfl trivial
  | .null :: items => by
    rw [joinedKeys,Option.isSome_map,KeyedItems,joinedKeys_isSome items]
    exact (and_iff_right trivial).symm
  | .bool value :: items => joinedKeys_cons numberText (.bool value) items (propertyKey_isSome _) (joinedKeys_isSome items) (fun same => nomatch same)
  | .num value :: items => joinedKeys_cons numberText (.num value) items (propertyKey_isSome _) (joinedKeys_isSome items) (fun same => nomatch same)
  | .negativeZero :: items => joinedKeys_cons numberText .negativeZero items (propertyKey_isSome _) (joinedKeys_isSome items) (fun same => nomatch same)
  | .str value :: items => joinedKeys_cons numberText (.str value) items (propertyKey_isSome _) (joinedKeys_isSome items) (fun same => nomatch same)
  | .arr owner inner :: items => joinedKeys_cons numberText (.arr owner inner) items (propertyKey_isSome _) (joinedKeys_isSome items) (fun same => nomatch same)
  | .obj owner fields :: items => joinedKeys_cons numberText (.obj owner fields) items (propertyKey_isSome _) (joinedKeys_isSome items) (fun same => nomatch same)
end

/-- What the first step leaves: the fields that the later steps read, and a list of types if
    there was one. -/
structure Flattened (schema flat : Fields) : Prop where
  description : flat.find "description" = schema.find "description"
  required : flat.find "required" = schema.find "required"
  properties : flat.find "properties" = schema.find "properties"
  types : ∀ owner types, flat.find "type" = some (.arr owner types) ↔ schema.find "type" = some (.arr owner types)

variable (schema : Fields)

theorem flattenUnion_isSome :
    (flattenUnion schema).isSome = true ↔ ∀ owner anyOf, schema.find "anyOf" = some (.arr owner anyOf) → OptionsSafe anyOf := by
  unfold flattenUnion
  split
  case h_1 owner anyOf found =>
    rw [Option.isSome_map,everyConst_isSome]
    refine ⟨fun safe other options same => ?_,fun all => all owner anyOf found⟩
    cases found.symm.trans same
    exact safe
  case h_2 other => exact iff_of_true rfl fun owner anyOf found => absurd found (other owner anyOf)

theorem flattenUnion_flattened {schema flat : Fields} (done : flattenUnion schema = some flat) : Flattened schema flat := by
  have itself : Flattened schema schema := ⟨rfl,rfl,rfl,fun _ _ => Iff.rfl⟩
  unfold flattenUnion at done
  split at done
  case h_2 =>
    cases done
    exact itself
  case h_1 owner anyOf found =>
    obtain ⟨allConst,-,rfl⟩ := Option.map_eq_some_iff.mp done
    split
    case h_2 => exact itself
    case h_1 first rest =>
      dsimp only
      have without : ∀ key, key ≠ "enum" → key ≠ "anyOf" →
          ((schema.put "enum" (.arr .own ((first :: rest).map constOf))).remove "anyOf").find key = schema.find key := by
        intro key notEnum notUnion
        rw [find_remove,if_neg (Ne.symm notUnion),find_put,if_neg (Ne.symm notEnum)]
      have removed : Flattened schema ((schema.put "enum" (.arr .own ((first :: rest).map constOf))).remove "anyOf") :=
        ⟨without _ (by decide) (by decide),without _ (by decide) (by decide),without _ (by decide) (by decide),
          fun owner types => by rw [without "type" (by decide) (by decide)]⟩
      split
      · exact removed
      case isFalse untyped =>
        split
        case h_2 => exact removed
        case h_1 type _ =>
          refine ⟨?_,?_,?_,fun owner types => iff_of_false (fun typed => ?_) (fun typed => ?_)⟩
          · rw [find_put,if_neg (by decide)]
            exact removed.description
          · rw [find_put,if_neg (by decide)]
            exact removed.required
          · rw [find_put,if_neg (by decide)]
            exact removed.properties
          · rw [find_put,if_pos rfl] at typed
            cases typed
          · rw [(removed.types owner types).mpr typed] at untyped
            exact untyped rfl

theorem noteNullable_isSome :
    (noteNullable schema).isSome = true ↔ (truthy (schema.find "description") = true → ∃ text, schema.find "description" = some (.str text)) := by
  unfold noteNullable
  cases told : truthy (schema.find "description") with
  | false => exact iff_of_true (by simp) (fun same => absurd same Bool.false_ne_true)
  | true =>
    rw [if_pos rfl]
    split
    case h_1 desc found => exact iff_of_true (by split <;> rfl) fun _ => ⟨desc,found⟩
    case h_2 other => exact iff_of_false (fun none_ => nomatch none_) fun text => (text rfl).elim fun desc found => other desc found

theorem find_noteNullable {schema noted : Fields} (done : noteNullable schema = some noted) {key : String} (apart : key ≠ "description") :
    noted.find key = schema.find key := by
  unfold noteNullable at done
  have put_ : ∀ value, (schema.put "description" value).find key = schema.find key := fun value => by
    rw [find_put,if_neg (Ne.symm apart)]
  split at done
  · split at done
    · split at done
      · cases done
        rfl
      · cases done
        exact put_ _
    · cases done
  · cases done
    exact put_ _

theorem collapseType_isSome :
    (collapseType schema).isSome = true ↔ ∀ owner types, schema.find "type" = some (.arr owner types) → types.any isNullText = true →
      types.any (fun type => !isNullText type) = true → truthy (schema.find "description") = true →
      ∃ text, schema.find "description" = some (.str text) := by
  unfold collapseType
  split
  case h_2 other => exact iff_of_true rfl fun owner types found => absurd found (other owner types)
  case h_1 owner types found =>
    have only : ∀ {P : Prop}, (∀ other list, schema.find "type" = some (.arr other list) → (list.any isNullText = true →
        list.any (fun type => !isNullText type) = true → P)) ↔ (types.any isNullText = true → types.any (fun type => !isNullText type) = true → P) := by
      intro P
      refine ⟨fun all => all owner types found,fun holds other list same => ?_⟩
      cases found.symm.trans same
      exact holds
    rw [only]
    split
    case h_1 none_ =>
      refine iff_of_true rfl fun _ some_ => ?_
      obtain ⟨type,member,notNull⟩ := any_eq_true.mp some_
      exact absurd (none_ ▸ mem_filter.mpr ⟨member,notNull⟩) not_mem_nil
    case h_2 first rest kept =>
      have some_ : types.any (fun type => !isNullText type) = true := by
        have member : first ∈ types.filter (fun type => !isNullText type) := kept ▸ mem_cons_self
        exact any_eq_true.mpr ⟨first,(mem_filter.mp member).1,(mem_filter.mp member).2⟩
      cases nullable : types.any isNullText with
      | false => exact iff_of_true (by simp) (fun same => absurd same Bool.false_ne_true)
      | true =>
        rw [if_pos rfl,noteNullable_isSome,find_put,if_neg (by decide)]
        exact ⟨fun described _ _ => described,fun all => all rfl some_⟩

theorem find_collapseType {schema collapsed : Fields} (done : collapseType schema = some collapsed) {key : String} (first : key ≠ "type")
    (second : key ≠ "description") : collapsed.find key = schema.find key := by
  have put_ : ∀ value, (schema.put "type" value).find key = schema.find key := fun value => by
    rw [find_put,if_neg (Ne.symm first)]
  unfold collapseType at done
  split at done
  · split at done
    · cases done
      rfl
    · split at done
      · exact (find_noteNullable done second).trans (put_ _)
      · cases done
        exact put_ _
  · cases done
    rfl

theorem validRequired_isSome (own : String → Bool) (required : List Value) :
    (validRequired numberText own required).isSome = true ↔ ∀ key ∈ required, Keyed key := by
  induction required with
  | nil => exact iff_of_true rfl fun key member => absurd member not_mem_nil
  | cons key required ih =>
    rw [validRequired,isSome_bind_map,propertyKey_isSome,ih,forall_mem_cons]

theorem filterRequired_isSome :
    (filterRequired numberText schema).isSome = true ↔ ∀ owner required, schema.find "required" = some (.arr owner required) →
      (ownKeys (schema.find "properties")).isSome = true → ∀ key ∈ required, Keyed key := by
  unfold filterRequired
  split
  case h_1 owner required own found owned =>
    rw [Option.isSome_map,validRequired_isSome,owned]
    refine ⟨fun all other list same _ => ?_,fun all => all owner required found rfl⟩
    cases found.symm.trans same
    exact all
  case h_2 other =>
    refine iff_of_true rfl fun owner required found owned => ?_
    obtain ⟨own,same⟩ := Option.isSome_iff_exists.mp owned
    exact absurd same (other owner required own found)

theorem applySchemaTransforms_isSome : (applySchemaTransforms numberText schema).isSome = true ↔ NodeSafe schema := by
  unfold applySchemaTransforms
  cases flattened : flattenUnion schema with
  | none =>
    refine iff_of_false (fun none_ => nomatch none_) fun safe => ?_
    have some_ := (flattenUnion_isSome schema).mpr safe.union
    rw [flattened] at some_
    cases some_
  | some flat =>
    have union := (flattenUnion_isSome schema).mp (by rw [flattened]; rfl)
    obtain ⟨description,required,properties,types⟩ := flattenUnion_flattened flattened
    rw [Option.bind_some]
    cases collapsed : collapseType flat with
    | none =>
      refine iff_of_false (fun none_ => nomatch none_) fun safe => ?_
      have some_ := (collapseType_isSome flat).mpr fun owner list typed => description ▸ safe.description owner list ((types owner list).mp typed)
      rw [collapsed] at some_
      cases some_
    | some node =>
      have described := (collapseType_isSome flat).mp (by rw [collapsed]; rfl)
      rw [Option.bind_some,Option.isSome_map,filterRequired_isSome,find_collapseType collapsed (by decide) (by decide),
        find_collapseType collapsed (by decide) (by decide),required,properties]
      refine ⟨fun keyed => ⟨union,fun owner list typed => ?_,keyed⟩,NodeSafe.required⟩
      exact description ▸ described owner list ((types owner list).mpr typed)

end

/-! ### Copies of a node -/

/-- A copy of values that the steps cannot tell from them. -/
structure Copies (copy : Value → Value) : Prop where
  arr : ∀ owner items, ∃ maker, copy (.arr owner items) = .arr maker (items.map copy)
  list : ∀ value owner items, copy value = .arr owner items → ∃ maker old, value = .arr maker old
  constant : ∀ value, lacksConst (copy value) = lacksConst value
  primitive : ∀ value, isPrimitive (copy value) = isPrimitive value
  keyed : ∀ value, Keyed (copy value) ↔ Keyed value
  nullText : ∀ value, isNullText (copy value) = isNullText value
  truth : ∀ value, truthy (value.map copy) = truthy value
  text : ∀ value text, copy value = .str text ↔ value = .str text
  keys : ∀ value, (ownKeys (value.map copy)).isSome = (ownKeys value).isSome

section
variable {copy : Value → Value}

theorem Copies.optionsSafe (copies : Copies copy) (anyOf : List Value) : OptionsSafe (anyOf.map copy) ↔ OptionsSafe anyOf := by
  induction anyOf with
  | nil => exact Iff.rfl
  | cons option rest ih =>
    rw [map_cons]
    cases primitive : isPrimitive option with
    | true => exact iff_of_false (not_optionsSafe ((copies.primitive option).trans primitive)) (not_optionsSafe primitive)
    | false =>
      have same := (copies.primitive option).trans primitive
      cases lacks : lacksConst option with
      | true => exact iff_of_true (optionsSafe_stop same ((copies.constant option).trans lacks)) (optionsSafe_stop primitive lacks)
      | false => rw [optionsSafe_skip same ((copies.constant option).trans lacks),optionsSafe_skip primitive lacks,ih]

theorem Copies.find_arr (copies : Copies copy) {schema copied : Fields} {key : String} (same : copied.find key = (schema.find key).map copy)
    (P : List Value → Prop) : (∀ owner items, copied.find key = some (.arr owner items) → P items) ↔
      ∀ owner items, schema.find key = some (.arr owner items) → P (items.map copy) := by
  constructor
  · intro all owner items found
    obtain ⟨maker,made⟩ := copies.arr owner items
    exact all maker _ (by rw [same,found,Option.map_some,made])
  · intro all owner items found
    rw [same] at found
    obtain ⟨value,present,made⟩ := Option.map_eq_some_iff.mp found
    obtain ⟨old,before,rfl⟩ := copies.list value owner items made
    obtain ⟨maker,copied_⟩ := copies.arr old before
    cases copied_.symm.trans made
    exact all old before present

theorem Copies.nodeSafe (copies : Copies copy) {schema copied : Fields}
    (same : ∀ key ∈ stepKeys, copied.find key = (schema.find key).map copy)
    (own : (ownKeys (copied.find "properties")).isSome = (ownKeys (schema.find "properties")).isSome) : NodeSafe copied ↔ NodeSafe schema := by
  have texts : (∃ text, copied.find "description" = some (.str text)) ↔ ∃ text, schema.find "description" = some (.str text) := by
    refine exists_congr fun text => ?_
    rw [same "description" (by decide),Option.map_eq_some_iff]
    constructor
    · rintro ⟨value,found,made⟩
      rw [found,(copies.text value text).mp made]
    · exact fun found => ⟨_,found,(copies.text _ text).mpr rfl⟩
  have union : (∀ owner anyOf, copied.find "anyOf" = some (.arr owner anyOf) → OptionsSafe anyOf) ↔
      ∀ owner anyOf, schema.find "anyOf" = some (.arr owner anyOf) → OptionsSafe anyOf := by
    rw [copies.find_arr (same "anyOf" (by decide)) OptionsSafe]
    simp only [copies.optionsSafe]
  have description : (∀ owner types, copied.find "type" = some (.arr owner types) → types.any isNullText = true →
        types.any (fun type => !isNullText type) = true → truthy (copied.find "description") = true →
        ∃ text, copied.find "description" = some (.str text)) ↔
      ∀ owner types, schema.find "type" = some (.arr owner types) → types.any isNullText = true →
        types.any (fun type => !isNullText type) = true → truthy (schema.find "description") = true →
        ∃ text, schema.find "description" = some (.str text) := by
    rw [texts,same "description" (by decide),copies.truth]
    rw [copies.find_arr (same "type" (by decide)) (fun types => types.any isNullText = true →
      types.any (fun type => !isNullText type) = true → truthy (schema.find "description") = true →
      ∃ text, schema.find "description" = some (.str text))]
    simp only [any_map,Function.comp_def,copies.nullText]
  have required : (∀ owner required, copied.find "required" = some (.arr owner required) → (ownKeys (copied.find "properties")).isSome = true →
        ∀ key ∈ required, Keyed key) ↔
      ∀ owner required, schema.find "required" = some (.arr owner required) → (ownKeys (schema.find "properties")).isSome = true →
        ∀ key ∈ required, Keyed key := by
    rw [own,copies.find_arr (same "required" (by decide)) (fun required => (ownKeys (schema.find "properties")).isSome = true →
      ∀ key ∈ required, Keyed key)]
    simp only [forall_mem_map,copies.keyed]
  exact ⟨fun safe => ⟨union.mp safe.union,description.mp safe.description,required.mp safe.required⟩,
    fun safe => ⟨union.mpr safe.union,description.mpr safe.description,required.mpr safe.required⟩⟩

theorem Copies.node (copies : Copies copy) (fields : Fields) : NodeSafe (copyFields copy fields) ↔ NodeSafe fields := by
  refine copies.nodeSafe (fun key _ => find_copyFields copy fields key) ?_
  rw [find_copyFields]
  exact copies.keys _

end

theorem any_keys_of_map {fields copied : List (String × Value)} (same : copied.map Prod.fst = fields.map Prod.fst) (test : String → Bool) :
    copied.any (fun field => test field.1) = fields.any (fun field => test field.1) := by
  have both : (copied.map Prod.fst).any test = (fields.map Prod.fst).any test := by rw [same]
  rwa [any_map,any_map] at both

section
variable {copy : Value → Value} (rebuilds : Rebuilds copy)
include rebuilds

mutual
theorem Value.Rebuilds.keyed : ∀ value, Keyed (copy value) ↔ Keyed value
  | .null | .bool _ | .num _ | .negativeZero | .str _ => iff_of_eq (rebuilds.same rfl rfl)
  | .arr _ items => by
    rw [rebuilds.arr,Keyed,Keyed]
    exact Value.Rebuilds.keyedItems items
  | .obj _ fields => by rw [rebuilds.obj,Keyed,Keyed,any_keys_of_map (keys_copyFields copy fields) (fun key => key == "toString")]
theorem Value.Rebuilds.keyedItems : ∀ items, KeyedItems (items.map copy) ↔ KeyedItems items
  | [] => Iff.rfl
  | item :: items => and_congr (Value.Rebuilds.keyed item) (Value.Rebuilds.keyedItems items)
end

end

theorem copies_cloneRecord : Copies cloneRecord where
  arr owner items := ⟨.own,by rw [cloneRecord,cloneItems_eq]⟩
  list value owner items made := by
    cases value with
    | arr maker old => exact ⟨maker,old,rfl⟩
    | _ => cases made
  constant value := by
    cases value with
    | obj owner fields =>
      show (OrderedMap.find (cloneFields fields) "const").isNone = (OrderedMap.find fields "const").isNone
      rw [cloneFields_eq,← copyFields,find_copyFields,Option.isNone_map]
    | _ => rfl
  primitive value := by cases value <;> rfl
  keyed := rebuilds_cloneRecord.keyed
  nullText value := by cases value <;> rfl
  truth value := by
    cases value with
    | none => rfl
    | some value => cases value <;> rfl
  text value text := by cases value <;> exact ⟨fun made => (by cases made <;> rfl),fun same => by cases same <;> rfl⟩
  keys value := by
    cases value with
    | none => rfl
    | some value => cases value <;> rfl

theorem copies_relabel : Copies relabel where
  arr owner items := ⟨.own,by rw [relabel,relabelItems_eq]⟩
  list value owner items made := by
    cases value with
    | arr maker old => exact ⟨maker,old,rfl⟩
    | _ => cases made
  constant value := by
    cases value with
    | obj owner fields =>
      show (OrderedMap.find (relabelFields fields) "const").isNone = (OrderedMap.find fields "const").isNone
      rw [find_relabelFields,Option.isNone_map]
    | _ => rfl
  primitive value := by cases value <;> rfl
  keyed := rebuilds_relabel.keyed
  nullText := isNullText_relabel
  truth := truthy_relabel
  text value text := by cases value <;> exact ⟨fun made => (by cases made <;> rfl),fun same => by cases same <;> rfl⟩
  keys value := by rw [ownKeys_relabel]

def AllSafe (nodes : List Fields) : Prop := ∀ node ∈ nodes, NodeSafe node

theorem allSafe_nil : AllSafe [] := forall_mem_nil _

theorem allSafe_append {nodes others : List Fields} : AllSafe (nodes ++ others) ↔ AllSafe nodes ∧ AllSafe others := forall_mem_append

mutual
theorem schemaNodes_data : ∀ value, schemaNodes .data value = []
  | .null | .bool _ | .num _ | .negativeZero | .str _ => rfl
  | .arr _ items => schemaNodesItems_data items
  | .obj _ fields => schemaNodesFields_data fields
theorem schemaNodesItems_data : ∀ items, schemaNodesItems .data items = []
  | [] => rfl
  | item :: items => by rw [schemaNodesItems,schemaNodes_data item,schemaNodesItems_data items]; rfl
theorem schemaNodesFields_data : ∀ fields, schemaNodesFields .data fields = []
  | [] => rfl
  | field :: fields => by
    rw [schemaNodesFields,show childSchemaMode .data field.1 = .data from rfl,schemaNodes_data field.2,schemaNodesFields_data fields]
    rfl
end

section
variable {P : Fields → Prop}

theorem forall_items (mode : Mode) (items : List Value) :
    (∀ node ∈ schemaNodesItems mode items, P node) ↔ ∀ item ∈ items, ∀ node ∈ schemaNodes mode item, P node := by
  induction items with
  | nil => exact iff_of_true (by simp [schemaNodesItems]) (by simp)
  | cons item items ih => rw [schemaNodesItems,forall_mem_append,ih,forall_mem_cons]

theorem forall_fields (mode : Mode) (fields : List (String × Value)) :
    (∀ node ∈ schemaNodesFields mode fields, P node) ↔ ∀ field ∈ fields, ∀ node ∈ schemaNodes (childSchemaMode mode field.1) field.2, P node := by
  induction fields with
  | nil => exact iff_of_true (by simp [schemaNodesFields]) (by simp)
  | cons field fields ih => rw [schemaNodesFields,forall_mem_append,ih,forall_mem_cons]

theorem forall_children {fields : Fields} (distinct : fields.keys.Nodup) : (∀ node ∈ schemaNodesFields .schema fields, P node) ↔
    (∀ value, fields.find "properties" = some value → ∀ node ∈ schemaNodes .properties value, P node) ∧
      ∀ value, fields.find "items" = some value → ∀ node ∈ schemaNodes .schema value, P node := by
  rw [forall_fields]
  constructor
  · exact fun all => ⟨fun value found => all _ (mem_of_find found),fun value found => all _ (mem_of_find found)⟩
  · rintro ⟨properties,items⟩ ⟨key,value⟩ member
    have found := find_of_mem distinct member
    show ∀ node ∈ schemaNodes (if key = "properties" then .properties else if key = "items" then .schema else .data) value, P node
    split
    case isTrue same => exact properties value (same ▸ found)
    case isFalse =>
      split
      case isTrue same => exact items value (same ▸ found)
      case isFalse => simp [schemaNodes_data]

theorem forall_node (owner : Owner) (fields : List (String × Value)) :
    (∀ node ∈ schemaNodes .schema (.obj owner fields), P node) ↔ P fields ∧ ∀ node ∈ schemaNodesFields .schema fields, P node := by
  rw [schemaNodes,if_pos rfl,forall_mem_append,forall_mem_singleton]

end

theorem allSafe_items (mode : Mode) (items : List Value) :
    AllSafe (schemaNodesItems mode items) ↔ ∀ item ∈ items, AllSafe (schemaNodes mode item) := forall_items mode items

theorem allSafe_fields (mode : Mode) (fields : List (String × Value)) :
    AllSafe (schemaNodesFields mode fields) ↔ ∀ field ∈ fields, AllSafe (schemaNodes (childSchemaMode mode field.1) field.2) := forall_fields mode fields

theorem allSafe_children {fields : Fields} (distinct : fields.keys.Nodup) : AllSafe (schemaNodesFields .schema fields) ↔
    (∀ value, fields.find "properties" = some value → AllSafe (schemaNodes .properties value)) ∧
      ∀ value, fields.find "items" = some value → AllSafe (schemaNodes .schema value) := forall_children distinct

theorem allSafe_node (owner : Owner) (fields : List (String × Value)) :
    AllSafe (schemaNodes .schema (.obj owner fields)) ↔ NodeSafe fields ∧ AllSafe (schemaNodesFields .schema fields) := forall_node owner fields

theorem schemaNodes_empty {value : Value} (empty : isEmptyProperties (some value) = true) : schemaNodes .properties value = [] := by
  cases value with
  | obj owner fields =>
    have none_there : fields = [] := by simpa [isEmptyProperties,truthy,keyCount] using empty
    subst none_there
    rfl
  | arr owner items =>
    have none_there : items = [] := by simpa [isEmptyProperties,truthy,keyCount] using empty
    subst none_there
    rfl
  | _ => rfl

/-! ### The legacy clean-up -/

section
variable [Host] {clean : Value → Option (Done Value)}

theorem cleanItems_isSome (items : List Value) : (cleanItems clean items).isSome = true ↔ ∀ item ∈ items, (clean item).isSome = true := by
  induction items with
  | nil => exact iff_of_true rfl fun item member => absurd member not_mem_nil
  | cons item items ih => rw [cleanItems,isSome_bind_map,ih,forall_mem_cons]

theorem cleanFields_isSome (fields : List (String × Value)) :
    (cleanFields clean fields).isSome = true ↔ ∀ field ∈ fields, (clean field.2).isSome = true := by
  induction fields with
  | nil => exact iff_of_true rfl fun field member => absurd member not_mem_nil
  | cons field fields ih => rw [cleanFields,isSome_bind_map,ih,forall_mem_cons]

theorem cleanField_isSome (key : String) (schema : Fields) :
    (cleanField clean key schema).isSome = true ↔ ∀ value, schema.find key = some value → (clean value).isSome = true := by
  unfold cleanField
  cases schema.find key with
  | none => exact iff_of_true rfl fun value found => nomatch found
  | some value =>
    dsimp only
    rw [Option.isSome_map]
    exact ⟨fun safe other same => Option.some.inj same ▸ safe,fun all => all value rfl⟩

theorem find_cleanField {key other : String} {schema : Fields} {done : Done Fields} (cleaned : cleanField clean key schema = some done)
    (apart : other ≠ key) : done.value.find other = schema.find other := by
  unfold cleanField at cleaned
  split at cleaned
  · cases cleaned
    rfl
  · obtain ⟨inner,-,rfl⟩ := Option.map_eq_some_iff.mp cleaned
    rw [find_put,if_neg (Ne.symm apart)]

end

section
variable [Host] (numberText : ℚ → String)

theorem cleanProperties_isSome {fuel : ℕ} {value : Value}
    (children : ∀ child : Value, child.Distinct → child.depth < value.depth →
      ((cleanupSchema numberText fuel child).isSome = true ↔ AllSafe (schemaNodes .schema child))) (distinct : value.Distinct) :
    (cleanProperties (cleanupSchema numberText fuel) value).isSome = true ↔ AllSafe (schemaNodes .properties value) := by
  cases value with
  | obj owner fields =>
    rw [cleanProperties,Option.isSome_map,cleanFields_isSome]
    show _ ↔ AllSafe (schemaNodesFields .properties fields)
    rw [allSafe_fields]
    refine forall₂_congr fun field member => ?_
    exact children field.2 (distinct_of_mem_fields distinct.2 member) (Nat.lt_succ_of_le (depth_le_of_mem_fields member))
  | arr owner items =>
    rw [cleanProperties,Option.isSome_map,cleanItems_isSome]
    show _ ↔ AllSafe (schemaNodesItems .schema items)
    rw [allSafe_items]
    refine forall₂_congr fun item member => ?_
    exact children item (distinct_of_mem_items distinct member) (Nat.lt_succ_of_le (depth_le_of_mem_items member))
  | _ => exact iff_of_true rfl allSafe_nil

theorem cleanupSchema_isSome {fuel : ℕ} {value : Value} (distinct : value.Distinct) (shallow : value.depth < fuel) :
    (cleanupSchema numberText fuel value).isSome = true ↔ AllSafe (schemaNodes .schema value) := by
  induction fuel generalizing value with
  | zero => exact absurd shallow (Nat.not_lt_zero _)
  | succ fuel ih =>
    cases value with
    | obj owner fields =>
      obtain ⟨separate,within⟩ := distinct
      rw [depth] at shallow
      have inside : ∀ {key value}, OrderedMap.find fields key = some value → value.Distinct ∧ value.depth ≤ depthFields fields :=
        fun found => ⟨distinct_of_mem_fields within (mem_of_find found),depth_le_of_mem_fields (mem_of_find found)⟩
      rw [allSafe_node,allSafe_children separate,cleanupSchema,applySchemaTransforms_eq]
      have transforms := applySchemaTransforms_isSome numberText fields
      rw [applySchemaTransforms_eq,Option.isSome_map] at transforms
      cases rewritten : rewriteNode numberText fields with
      | none =>
        rw [rewritten] at transforms
        refine iff_of_false Bool.false_ne_true fun both => ?_
        cases transforms.mpr both.1
      | some node =>
        rw [rewritten] at transforms
        have safe : NodeSafe fields := transforms.mp rfl
        have keeps := keeps_rewriteNode numberText rewritten
        rw [Option.map_some,Option.bind_some,and_iff_right safe]
        -- the properties are those of the node, or the placeholder for empty ones
        have properties : (∀ value, (dropUnsupported (fillProperties node)).find "properties" = some value →
              (cleanProperties (cleanupSchema numberText fuel) value).isSome = true) ↔
            ∀ value, OrderedMap.find fields "properties" = some value → AllSafe (schemaNodes .properties value) := by
          rw [find_dropUnsupported _ (by decide)]
          unfold fillProperties
          split
          case isTrue filled =>
            rw [find_put,if_pos rfl]
            obtain ⟨written,same⟩ := cleanProperties_placeholder numberText fuel
            refine iff_of_true (fun value placed => ?_) fun value found => ?_
            · rw [← Option.some.inj placed,same]
              rfl
            · have empty := (Bool.and_eq_true_iff.mp filled).2
              rw [keeps.find "properties" (by decide),found] at empty
              exact schemaNodes_empty empty ▸ allSafe_nil
          case isFalse =>
            rw [keeps.find "properties" (by decide)]
            refine forall₂_congr fun value found => ?_
            obtain ⟨single,bound⟩ := inside found
            exact cleanProperties_isSome numberText (fun child own lower => ih own (by omega)) single
        have items : ∀ inner, cleanField (cleanProperties (cleanupSchema numberText fuel)) "properties" (dropUnsupported (fillProperties node)) = some inner →
            ((cleanField (cleanupSchema numberText fuel) "items" inner.value).isSome = true ↔
              ∀ value, OrderedMap.find fields "items" = some value → AllSafe (schemaNodes .schema value)) := by
          intro inner cleaned
          have same : inner.value.find "items" = OrderedMap.find fields "items" := by
            rw [find_cleanField cleaned (by decide),find_dropUnsupported _ (by decide),← keeps.find "items" (by decide)]
            unfold fillProperties
            split
            · rw [find_put,if_neg (by decide)]
            · rfl
          rw [cleanField_isSome,same]
          refine forall₂_congr fun value found => ?_
          obtain ⟨single,bound⟩ := inside found
          exact ih single (by omega)
        rw [← properties,← cleanField_isSome]
        cases cleaned : cleanField (cleanProperties (cleanupSchema numberText fuel)) "properties" (dropUnsupported (fillProperties node)) with
        | none => exact iff_of_false Bool.false_ne_true fun both => absurd both.1 Bool.false_ne_true
        | some inner =>
          rw [Option.bind_some,Option.isSome_map,items inner cleaned]
          exact (and_iff_right rfl).symm
    | arr owner items =>
      refine iff_of_true rfl ?_
      show AllSafe (schemaNodesItems .data items)
      rw [schemaNodesItems_data]
      exact allSafe_nil
    | _ => exact iff_of_true rfl allSafe_nil

end

theorem allSafe_cloneRecord (value : Value) : AllSafe (schemaNodes .schema (cloneRecord value)) ↔ AllSafe (schemaNodes .schema value) := by
  unfold AllSafe
  rw [rebuilds_cloneRecord.nodes,forall_mem_map]
  exact forall₂_congr fun node _ => copies_cloneRecord.node node

section
variable [Host] (numberText : ℚ → String)

theorem legacyParameters_isSome {parameters : Value} (distinct : parameters.Distinct) :
    (legacyParameters numberText parameters).isSome = true ↔ AllSafe (schemaNodes .schema parameters) := by
  unfold legacyParameters
  have shallow : (cloneRecord parameters).depth < enoughFuel parameters := by
    rw [rebuilds_cloneRecord.depth_eq,enoughFuel]
    omega
  rw [cleanupSchema_isSome numberText ((rebuilds_cloneRecord.distinct parameters).mpr distinct) shallow]
  exact allSafe_cloneRecord parameters

/-! ### The single pass -/

/-- What the steps see of a node's copy. -/
structure Seen (fields copied : Fields) : Prop where
  find : ∀ key ∈ stepKeys, copied.find key = (OrderedMap.find fields key).map relabel
  keys : (ownKeys (copied.find "properties")).isSome = (ownKeys (OrderedMap.find fields "properties")).isSome

theorem Seen.cons {fields copied : Fields} (seen : Seen fields copied) (key : String) {value child : Value}
    (step : key ∈ stepKeys → child = relabel value) (container : key = "properties" → (ownKeys (some child)).isSome = (ownKeys (some value)).isSome) :
    Seen ((key,value) :: fields) ((key,child) :: copied) := by
  refine ⟨fun other member => ?_,?_⟩
  · rw [find_cons,find_cons]
    split
    case isTrue same => exact congrArg some (step (show key ∈ stepKeys from (show key = other from same) ▸ member))
    case isFalse => exact seen.find other member
  · rw [find_cons,find_cons]
    split
    case isTrue same => exact container same
    case isFalse => exact seen.keys

theorem Seen.skip {fields copied : Fields} (seen : Seen fields copied) {key : String} (unsupported : isUnsupported key = true) (value : Value) :
    Seen ((key,value) :: fields) copied := by
  have apart : ∀ other, isUnsupported other = false → OrderedMap.find ((key,value) :: fields) other = OrderedMap.find fields other := by
    intro other supported
    rw [find_cons]
    refine if_neg fun same => ?_
    have same_ : key = other := same
    rw [same_,supported] at unsupported
    cases unsupported
  have supported : ∀ other ∈ stepKeys, isUnsupported other = false := by decide
  exact ⟨fun other member => (apart other (supported other member)).symm ▸ seen.find other member,
    (apart "properties" (by decide)).symm ▸ seen.keys⟩

theorem clonePropertiesMap_own {value : Value} {done : Done Value} (cloned : clonePropertiesMap numberText value = some done) :
    (ownKeys (some done.value)).isSome = (ownKeys (some value)).isSome := by
  cases value with
  | obj owner fields =>
    obtain ⟨out,-,rfl⟩ := Option.map_eq_some_iff.mp cloned
    rfl
  | arr owner items =>
    obtain ⟨out,-,rfl⟩ := Option.map_eq_some_iff.mp cloned
    rfl
  | _ =>
    cases cloned
    rfl

theorem cloneNodeFields_seen {fields : List (String × Value)} {out : Done (List (String × Value))}
    (cloned : cloneNodeFields numberText fields = some out) : Seen fields out.value := by
  induction fields generalizing out with
  | nil =>
    cases cloned
    exact ⟨fun _ _ => rfl,rfl⟩
  | cons field fields ih =>
    obtain ⟨key,value⟩ := field
    rw [cloneNodeFields] at cloned
    split at cloned
    case isTrue unsupported => exact (ih cloned).skip unsupported value
    case isFalse =>
      obtain ⟨child,made,others,later,rfl⟩ := bind_map_eq_some_iff.mp cloned
      refine (ih later).cons key (fun member => ?_) fun same => ?_
      · have notProperties : key ≠ "properties" := by
          rintro rfl
          exact absurd member (by decide)
        have notItems : key ≠ "items" := by
          rintro rfl
          exact absurd member (by decide)
        rw [if_neg notProperties,if_neg notItems] at made
        cases made
        exact clonePlainValue_eq value
      · rw [if_pos same] at made
        exact clonePropertiesMap_own numberText made

mutual
theorem cloneSchemaChild_safe : ∀ (value : Value) (done : Done Value), cloneSchemaChild numberText value = some done →
    AllSafe (schemaNodes .schema value)
  | .null,_,_ | .bool _,_,_ | .num _,_,_ | .negativeZero,_,_ | .str _,_,_ => allSafe_nil
  | .arr _ items,_,_ => by
    show AllSafe (schemaNodesItems .data items)
    rw [schemaNodesItems_data]
    exact allSafe_nil
  | .obj owner fields,done,cloned => by
    rw [cloneSchemaChild] at cloned
    obtain ⟨out,copied,node,transformed,-⟩ := bind_map_eq_some_iff.mp cloned
    have seen := cloneNodeFields_seen numberText copied
    have safe : NodeSafe out.value := (applySchemaTransforms_isSome numberText out.value).mp (by rw [transformed]; rfl)
    rw [allSafe_node]
    exact ⟨(copies_relabel.nodeSafe seen.find seen.keys).mp safe,cloneNodeFields_safe fields out copied⟩
theorem cloneNodeFields_safe : ∀ (fields : List (String × Value)) (out : Done (List (String × Value))), cloneNodeFields numberText fields = some out →
    AllSafe (schemaNodesFields .schema fields)
  | [],_,_ => allSafe_nil
  | (key,value) :: fields,out,cloned => by
    rw [cloneNodeFields] at cloned
    rw [schemaNodesFields,allSafe_append]
    show AllSafe (schemaNodes (if key = "properties" then .properties else if key = "items" then .schema else .data) value) ∧ _
    split at cloned
    case isTrue unsupported =>
      have reserved : isUnsupported key = true := unsupported
      have notProperties : key ≠ "properties" := by
        rintro rfl
        exact absurd reserved (by decide)
      have notItems : key ≠ "items" := by
        rintro rfl
        exact absurd reserved (by decide)
      rw [if_neg notProperties,if_neg notItems,schemaNodes_data]
      exact ⟨allSafe_nil,cloneNodeFields_safe fields out cloned⟩
    case isFalse =>
      obtain ⟨child,made,others,later,-⟩ := bind_map_eq_some_iff.mp cloned
      refine ⟨?_,cloneNodeFields_safe fields others later⟩
      split at made
      case isTrue atProperties =>
        rw [if_pos atProperties]
        exact clonePropertiesMap_safe value child made
      case isFalse notProperties =>
        rw [if_neg notProperties]
        split at made
        case isTrue atItems =>
          rw [if_pos atItems]
          exact cloneSchemaChild_safe value child made
        case isFalse notItems =>
          rw [if_neg notItems,schemaNodes_data]
          exact allSafe_nil
theorem clonePropertiesMap_safe : ∀ (value : Value) (done : Done Value), clonePropertiesMap numberText value = some done →
    AllSafe (schemaNodes .properties value)
  | .null,_,_ | .bool _,_,_ | .num _,_,_ | .negativeZero,_,_ | .str _,_,_ => allSafe_nil
  | .obj _ fields,_,cloned => by
    rw [clonePropertiesMap] at cloned
    obtain ⟨out,copied,-⟩ := Option.map_eq_some_iff.mp cloned
    exact clonePropertyFields_safe fields out copied
  | .arr _ items,_,cloned => by
    rw [clonePropertiesMap] at cloned
    obtain ⟨out,copied,-⟩ := Option.map_eq_some_iff.mp cloned
    exact clonePropertyItems_safe items out copied
theorem clonePropertyFields_safe : ∀ (fields : List (String × Value)) (out : Done (List (String × Value))), clonePropertyFields numberText fields = some out →
    AllSafe (schemaNodesFields .properties fields)
  | [],_,_ => allSafe_nil
  | field :: fields,_,cloned => by
    rw [clonePropertyFields] at cloned
    obtain ⟨child,made,others,later,-⟩ := bind_map_eq_some_iff.mp cloned
    rw [schemaNodesFields,allSafe_append]
    exact ⟨cloneSchemaChild_safe field.2 child made,clonePropertyFields_safe fields others later⟩
theorem clonePropertyItems_safe : ∀ (items : List Value) (out : Done (List Value)), clonePropertyItems numberText items = some out →
    AllSafe (schemaNodesItems .schema items)
  | [],_,_ => allSafe_nil
  | item :: items,_,cloned => by
    rw [clonePropertyItems] at cloned
    obtain ⟨child,made,others,later,-⟩ := bind_map_eq_some_iff.mp cloned
    rw [schemaNodesItems,allSafe_append]
    exact ⟨cloneSchemaChild_safe item child made,clonePropertyItems_safe items others later⟩
end

theorem fastParameters_isSome {parameters : Value} (distinct : parameters.Distinct) :
    (fastParameters numberText parameters).isSome = true ↔ AllSafe (schemaNodes .schema parameters) := by
  have legacy := legacyParameters_isSome numberText distinct
  constructor
  · intro finished
    unfold fastParameters at finished
    split at finished
    case h_1 inspected =>
      obtain ⟨written,same⟩ := legacyParameters_unchanged numberText inspected
      exact legacy.mp (by rw [same]; rfl)
    case h_2 =>
      split at finished
      case h_1 cleaned copied => exact cloneSchemaChild_safe numberText parameters cleaned copied
      case h_2 => exact legacy.mp (by rwa [Option.isSome_map] at finished)
    case h_3 => exact legacy.mp (by rwa [Option.isSome_map] at finished)
  · intro safe
    obtain ⟨done,finished⟩ := Option.isSome_iff_exists.mp (legacy.mpr safe)
    obtain ⟨result,fast,-⟩ := fastParameters_agrees numberText distinct finished
    rw [fast]
    rfl

def functionParameters (tool : Fields) : List Value :=
  match tool.find "function" with
  | some (.obj _ functionDef) =>
    match OrderedMap.find functionDef "parameters" with
    | some (.obj owner parameters) => [.obj owner parameters]
    | _ => []
  | _ => []

mutual
/-- The parameters of the function tools in a tool, those of a namespace among them. -/
def toolParameters : Value → List Value
  | .obj _ tool =>
    if isTypeText tool "function" then functionParameters tool
    else if isTypeText tool "namespace" then nestedParameters tool
    else []
  | _ => []
def nestedParameters : List (String × Value) → List Value
  | [] => []
  | field :: fields => if field.1 = "tools" then arrayParameters field.2 else nestedParameters fields
def arrayParameters : Value → List Value
  | .arr _ tools => toolsParameters tools
  | _ => []
def toolsParameters : List Value → List Value
  | [] => []
  | tool :: tools => toolParameters tool ++ toolsParameters tools
end

section
variable {clean : Value → Option (Option (Done Value))}

theorem cleanupFunctionTool_isSome (owner : Owner) (tool : Fields) :
    (cleanupFunctionTool clean owner tool).isSome = true ↔ ∀ parameters ∈ functionParameters tool, (clean parameters).isSome = true := by
  have untouched {done : Done Value} : (some done).isSome = true ↔ ∀ parameters ∈ ([] : List Value), (clean parameters).isSome = true :=
    iff_of_true rfl fun parameters member => absurd member not_mem_nil
  unfold cleanupFunctionTool functionParameters
  cases tool.find "function" with
  | none => exact untouched
  | some function =>
    cases function with
    | obj functionOwner functionDef =>
      dsimp only
      cases OrderedMap.find functionDef "parameters" with
      | none => exact untouched
      | some value =>
        cases value with
        | obj parametersOwner parameters =>
          dsimp only
          rw [Option.isSome_map]
          exact (forall_mem_singleton (p := fun value => (clean value).isSome = true)).symm
        | _ => exact untouched
    | _ => exact untouched

mutual
theorem cleanupToolDefinition_isSome : ∀ tool : Value,
    (cleanupToolDefinition clean tool).isSome = true ↔ ∀ parameters ∈ toolParameters tool, (clean parameters).isSome = true
  | .null | .bool _ | .num _ | .negativeZero | .str _ | .arr _ _ => iff_of_true rfl fun parameters member => absurd member not_mem_nil
  | .obj owner tool => by
    rw [cleanupToolDefinition,toolParameters]
    split
    case isTrue => exact cleanupFunctionTool_isSome owner tool
    case isFalse =>
      split
      case isTrue =>
        rw [Option.isSome_map]
        exact cleanupNested_isSome tool
      case isFalse => exact iff_of_true rfl fun parameters member => absurd member not_mem_nil
theorem cleanupNested_isSome : ∀ fields : List (String × Value),
    (cleanupNested clean fields).isSome = true ↔ ∀ parameters ∈ nestedParameters fields, (clean parameters).isSome = true
  | [] => iff_of_true rfl fun parameters member => absurd member not_mem_nil
  | field :: fields => by
    rw [cleanupNested,nestedParameters]
    split
    case isTrue => exact cleanupArray_isSome field.2
    case isFalse => exact cleanupNested_isSome fields
theorem cleanupArray_isSome : ∀ value : Value,
    (cleanupArray clean value).isSome = true ↔ ∀ parameters ∈ arrayParameters value, (clean parameters).isSome = true
  | .null | .bool _ | .num _ | .negativeZero | .str _ | .obj _ _ => iff_of_true rfl fun parameters member => absurd member not_mem_nil
  | .arr _ tools => by
    rw [cleanupArray,arrayParameters,Option.isSome_map]
    exact cleanupTools_isSome tools
theorem cleanupTools_isSome : ∀ tools : List Value,
    (cleanupTools clean tools).isSome = true ↔ ∀ parameters ∈ toolsParameters tools, (clean parameters).isSome = true
  | [] => iff_of_true rfl fun parameters member => absurd member not_mem_nil
  | tool :: tools => by
    rw [cleanupTools,toolsParameters,isSome_bind_map,forall_mem_append,cleanupToolDefinition_isSome tool,cleanupTools_isSome tools]
end

end

theorem functionParameters_distinct {tool : Fields} (distinct : Value.DistinctFields tool) : ∀ parameters ∈ functionParameters tool, parameters.Distinct := by
  intro parameters member
  unfold functionParameters at member
  split at member
  case h_1 functionOwner functionDef found =>
    have functionDistinct : (Value.obj functionOwner functionDef).Distinct := distinct_of_mem_fields distinct (mem_of_find found)
    split at member
    case h_1 owner fields listed =>
      rw [mem_singleton.mp member]
      exact distinct_of_mem_fields functionDistinct.2 (mem_of_find listed)
    case h_2 => exact absurd member not_mem_nil
  case h_2 => exact absurd member not_mem_nil

mutual
theorem toolParameters_distinct : ∀ tool : Value, tool.Distinct → ∀ parameters ∈ toolParameters tool, parameters.Distinct
  | .null,_ | .bool _,_ | .num _,_ | .negativeZero,_ | .str _,_ | .arr _ _,_ => fun parameters member => absurd member not_mem_nil
  | .obj _ tool,distinct => by
    rw [toolParameters]
    split
    case isTrue => exact functionParameters_distinct distinct.2
    case isFalse =>
      split
      case isTrue => exact nestedParameters_distinct tool distinct.2
      case isFalse => exact fun parameters member => absurd member not_mem_nil
theorem nestedParameters_distinct : ∀ fields : List (String × Value), Value.DistinctFields fields → ∀ parameters ∈ nestedParameters fields, parameters.Distinct
  | [],_ => fun parameters member => absurd member not_mem_nil
  | field :: fields,distinct => by
    rw [nestedParameters]
    split
    case isTrue => exact arrayParameters_distinct field.2 distinct.1
    case isFalse => exact nestedParameters_distinct fields distinct.2
theorem arrayParameters_distinct : ∀ value : Value, value.Distinct → ∀ parameters ∈ arrayParameters value, parameters.Distinct
  | .null,_ | .bool _,_ | .num _,_ | .negativeZero,_ | .str _,_ | .obj _ _,_ => forall_mem_nil _
  | .arr _ tools,distinct => toolsParameters_distinct tools distinct
theorem toolsParameters_distinct : ∀ tools : List Value, Value.DistinctItems tools → ∀ parameters ∈ toolsParameters tools, parameters.Distinct
  | [],_ => fun parameters member => absurd member not_mem_nil
  | tool :: tools,distinct => by
    rw [toolsParameters,forall_mem_append]
    exact ⟨toolParameters_distinct tool distinct.1,toolsParameters_distinct tools distinct.2⟩
end

/-- The clean-up of tools gives a list back just when every schema node of every function tool is safe. -/
theorem cleanupToolDefinitions_finishes_iff (tools : List Value) (distinct : Value.DistinctItems tools) :
    (∃ done, cleanupToolDefinitions numberText (some tools) = some (some done)) ↔
      ∀ parameters ∈ toolsParameters tools, ∀ node ∈ schemaNodes .schema parameters, NodeSafe node := by
  have finishes : (∃ done, cleanupToolDefinitions numberText (some tools) = some (some done)) ↔
      (cleanupTools (fastParameters numberText) tools).isSome = true := by
    rw [cleanupToolDefinitions,Option.isSome_iff_exists]
    exact exists_congr fun done => by rw [Option.map_eq_some_iff]; simp
  rw [finishes,cleanupTools_isSome]
  exact forall₂_congr fun parameters member => fastParameters_isSome numberText (toolsParameters_distinct tools distinct parameters member)

end

section
attribute [local instance] asciiHost

/-- A tool whose union allows anything by a boolean schema. -/
def booleanOption : List Value :=
  [.obj .caller [("type",.str "function"),("function",.obj .caller [("name",.str "f"),
    ("parameters",.obj .caller [("anyOf",.arr .caller [.bool true])])])]]

theorem booleanOption_throws : ¬∀ tools : List Value, Value.DistinctItems tools →
    ∃ done, cleanupToolDefinitions (fun _ => "0") (some tools) = some (some done) := by
  intro finishes
  obtain ⟨done,finished⟩ := finishes booleanOption (by simp [booleanOption,Value.DistinctItems,Value.Distinct,Value.DistinctFields])
  have thrown : (cleanupToolDefinitions (fun _ => "0") (some booleanOption)).isNone = true := by decide
  rw [finished] at thrown
  cases thrown

theorem booleanOption_finishes_iff : (∃ done, cleanupToolDefinitions (fun _ => "0") (some booleanOption) = some (some done)) ↔
    ∀ parameters ∈ toolsParameters booleanOption, ∀ node ∈ schemaNodes .schema parameters, NodeSafe node :=
  cleanupToolDefinitions_finishes_iff (fun _ => "0") booleanOption
    (by simp [booleanOption,Value.DistinctItems,Value.Distinct,Value.DistinctFields])

end
end CodexMultiAuth.ToolSchema
