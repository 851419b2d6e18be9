import CodexMultiAuth.ToolSchema

/-!
The steps at one schema node read and write a few fields. A pass that leaves
those fields alone can come before or after them: leaving out the unsupported
keywords is one, cleaning the values of properties and items is another.
-/
namespace CodexMultiAuth.ToolSchema
open List OrderedMap OrderedMap
set_option linter.unusedSectionVars false

theorem bind_map_eq_some_iff {α β γ : Type} {first : Option α} {second : α → Option β} {made : α → β → γ} {out : γ} :
    (first.bind (fun a => (second a).map (made a))) = some out ↔ ∃ a, first = some a ∧ ∃ b, second a = some b ∧ made a b = out := by
  simp only [Option.bind_eq_some_iff,Option.map_eq_some_iff]

def replace (key : String) (value : Value) (fields : Fields) : Fields :=
  fields.map (fun field => if field.1 = key then (key,value) else field)

section
variable {key other : String} {value : Value}

theorem keys_replace (fields : Fields) : (replace key value fields).keys = fields.keys := by
  induction fields with
  | nil => rfl
  | cons field fields ih =>
    simp only [OrderedMap.keys,replace,map_cons] at ih ⊢
    rw [ih]
    split
    · next here => rw [here]
    · rfl

theorem find_replace (fields : Fields) :
    (replace key value fields).find other = if key = other then (fields.find other).map (fun _ => value) else fields.find other := by
  induction fields with
  | nil => simp [replace]
  | cons field fields ih =>
    simp only [replace,map_cons] at ih ⊢
    rw [find_cons,find_cons,ih]
    by_cases here : field.1 = key
    · rw [if_pos here,here]
      by_cases same : key = other <;> simp [same]
    · rw [if_neg here]
      by_cases same : key = other
      · subst same
        simp [here]
      · simp [same]

theorem replace_put (apart : key ≠ other) (fields : Fields) (put : Value) :
    replace key value (fields.put other put) = (replace key value fields).put other put := by
  induction fields with
  | nil => simp [replace,OrderedMap.put,Ne.symm apart]
  | cons field fields ih =>
    simp only [replace] at ih ⊢
    by_cases here : field.1 = other
    · have elsewhere : field.1 ≠ key := fun same => apart (same.symm.trans here)
      simp [OrderedMap.put,here,Ne.symm apart]
    · by_cases same : field.1 = key
      · simp [OrderedMap.put,same,apart,ih]
      · simp [OrderedMap.put,here,same,ih]

theorem replace_remove (fields : Fields) (removed : String) :
    replace key value (fields.remove removed) = (replace key value fields).remove removed := by
  induction fields with
  | nil => rfl
  | cons field fields ih =>
    simp only [replace,remove] at ih ⊢
    have kept : (if field.1 = key then (key,value) else field).1 = field.1 := by
      split
      · next here => exact here.symm
      · rfl
    rw [filter_cons,map_cons,filter_cons,kept]
    split
    · rw [map_cons,ih]
    · exact ih

theorem replace_absent {fields : Fields} (absent : fields.find key = none) : replace key value fields = fields := by
  have missing := find_eq_none.mp absent
  unfold replace
  conv_rhs => rw [← map_id fields]
  refine map_congr_left ?_
  intro field member
  have apart : field.1 ≠ key := fun same => missing (same ▸ mem_map_of_mem member)
  simp [apart]

theorem put_eq_replace {fields : Fields} (distinct : fields.keys.Nodup) (present : (fields.find key).isSome) :
    fields.put key value = replace key value fields := by
  induction fields with
  | nil => simp at present
  | cons field fields ih =>
    simp only [OrderedMap.keys,map_cons,nodup_cons] at distinct
    by_cases here : field.1 = key
    · have absent : find fields key = none := by
        rw [find_eq_none,← here]
        exact distinct.1
      have rest : replace key value fields = fields := replace_absent absent
      simp only [replace] at rest ⊢
      simp [OrderedMap.put,here,rest]
    · have later : (find fields key).isSome := by
        rw [find_cons,if_neg here] at present
        exact present
      have rest := ih distinct.2 later
      simp only [replace] at rest ⊢
      simp [OrderedMap.put,here,rest]

theorem put_replace_self {fields : Fields} (distinct : fields.keys.Nodup) (put : Value) :
    (replace key value fields).put key put = fields.put key put := by
  cases present : fields.find key with
  | none => rw [replace_absent present]
  | some found =>
    have still : ((replace key value fields).find key).isSome := by
      rw [find_replace,if_pos rfl,present]
      rfl
    rw [put_eq_replace (by rw [keys_replace]; exact distinct) still,put_eq_replace distinct (by rw [present]; rfl)]
    simp only [replace,map_map]
    refine map_congr_left ?_
    intro field _
    simp only [Function.comp_apply]
    by_cases here : field.1 = key <;> simp [here]

end

/-! ### Passes that the steps do not notice -/

/-- The fields that the first three steps read and write. -/
def stepKeys : List String := ["anyOf","enum","type","description","required"]

structure Transparent (pass : Fields → Fields) : Prop where
  find : ∀ key ∈ stepKeys, ∀ schema, (pass schema).find key = find schema key
  put : ∀ key ∈ stepKeys, ∀ schema value, pass (OrderedMap.put schema key value) = (pass schema).put key value
  remove : ∀ key ∈ stepKeys, ∀ schema, pass (remove schema key) = (pass schema).remove key

theorem transparent_replace {key : String} (apart : key ∉ stepKeys) (value : Value) : Transparent (replace key value) := by
  refine ⟨?_,?_,?_⟩
  · intro other member schema
    rw [find_replace,if_neg (fun same : key = other => apart (same ▸ member))]
  · intro other member schema put
    exact replace_put (fun same : key = other => apart (same ▸ member)) schema put
  · intro other _ schema
    exact replace_remove schema other

theorem find_dropUnsupported (schema : Fields) {key : String} (supported : isUnsupported key = false) :
    (dropUnsupported schema).find key = schema.find key := by
  induction schema with
  | nil => rfl
  | cons field fields ih =>
    simp only [dropUnsupported,filter_cons] at ih ⊢
    by_cases here : field.1 = key
    · rw [here,supported]
      simp [find_cons,here]
    · split
      · rw [find_cons,find_cons,if_neg here,if_neg here]
        exact ih
      · rw [find_cons,if_neg here]
        exact ih

theorem dropUnsupported_put (schema : Fields) {key : String} (supported : isUnsupported key = false) (value : Value) :
    dropUnsupported (schema.put key value) = (dropUnsupported schema).put key value := by
  induction schema with
  | nil => simp [dropUnsupported,OrderedMap.put,supported]
  | cons field fields ih =>
    simp only [dropUnsupported] at ih ⊢
    by_cases here : field.1 = key
    · simp [OrderedMap.put,here,supported]
    · cases keep : isUnsupported field.1 <;> simp [OrderedMap.put,here,keep,ih]

theorem dropUnsupported_remove (schema : Fields) (key : String) : dropUnsupported (schema.remove key) = (dropUnsupported schema).remove key := by
  simp only [dropUnsupported,remove,filter_filter]
  refine filter_congr ?_
  intro field _
  exact Bool.and_comm _ _

theorem transparent_dropUnsupported : Transparent dropUnsupported := by
  have supported : ∀ key ∈ stepKeys, isUnsupported key = false := by decide
  exact ⟨fun key member schema => find_dropUnsupported schema (supported key member),
    fun key member schema value => dropUnsupported_put schema (supported key member) value,
    fun key _ schema => dropUnsupported_remove schema key⟩

section
variable [Host] (numberText : ℚ → String) {pass : Fields → Fields}

section
variable (transparent : Transparent pass)
include transparent

variable (schema : Fields)

theorem Transparent.flattenUnion :
    flattenUnion (pass schema) = (flattenUnion schema).map pass := by
  unfold ToolSchema.flattenUnion
  rw [transparent.find "anyOf" (by decide)]
  split
  · next anyOf _ =>
    rw [Option.map_map]
    refine congrArg (fun change => Option.map change (everyConst anyOf)) (funext ?_)
    intro allConst
    have flattened : pass ((schema.put "enum" (.arr .own (anyOf.map constOf))).remove "anyOf") =
        ((pass schema).put "enum" (.arr .own (anyOf.map constOf))).remove "anyOf" := by
      rw [transparent.remove "anyOf" (by decide),transparent.put "enum" (by decide)]
    cases allConst with
    | false => rfl
    | true =>
      cases anyOf with
      | nil => rfl
      | cons first rest =>
        simp only [Function.comp_apply]
        rw [← flattened,transparent.find "type" (by decide)]
        split
        · rfl
        · split
          · rw [transparent.put "type" (by decide)]
          · rfl
  · rfl

theorem Transparent.noteNullable : noteNullable (pass schema) = (noteNullable schema).map pass := by
  unfold ToolSchema.noteNullable
  rw [transparent.find "description" (by decide)]
  split
  · split
    · split
      · rfl
      · rw [Option.map_some,transparent.put "description" (by decide)]
    · rfl
  · rw [Option.map_some,transparent.put "description" (by decide)]

theorem Transparent.collapseType : collapseType (pass schema) = (collapseType schema).map pass := by
  unfold ToolSchema.collapseType
  rw [transparent.find "type" (by decide)]
  split
  · split
    · rfl
    · next first _ _ =>
      dsimp only
      rw [← transparent.put "type" (by decide)]
      split
      · exact transparent.noteNullable (schema.put "type" first)
      · rfl
  · rfl

theorem Transparent.filterRequired
    (own : ownKeys ((pass schema).find "properties") = ownKeys (schema.find "properties")) :
    filterRequired numberText (pass schema) = (filterRequired numberText schema).map pass := by
  unfold ToolSchema.filterRequired
  rw [transparent.find "required" (by decide),own]
  split
  · next required keys _ _ =>
    rw [Option.map_map]
    refine congrArg (fun change => Option.map change (validRequired numberText keys required)) (funext ?_)
    intro valid
    simp only [Function.comp_apply]
    split
    · rw [transparent.remove "required" (by decide)]
    · split
      · rw [transparent.put "required" (by decide)]
      · rfl
  · rfl

end

/-- The first three steps. -/
def rewriteNode (schema : Fields) : Option Fields :=
  (flattenUnion schema).bind (fun schema => (collapseType schema).bind (filterRequired numberText))

theorem applySchemaTransforms_eq (schema : Fields) : applySchemaTransforms numberText schema = (rewriteNode numberText schema).map fillProperties := by
  unfold applySchemaTransforms rewriteNode
  cases flattenUnion schema with
  | none => rfl
  | some flat =>
    simp only [Option.bind_some]
    cases collapseType flat <;> rfl

end
end CodexMultiAuth.ToolSchema
