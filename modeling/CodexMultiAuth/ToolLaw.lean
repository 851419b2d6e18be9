import CodexMultiAuth.ToolFused

/-!
The clean-up of tools against the legacy pipeline: the scan may skip the clone, and the
single pass may take its place.
-/
namespace CodexMultiAuth.ToolSchema
open List
set_option linter.unusedSectionVars false
open Value (Owned relabel relabelItems relabelFields)

section

variable {fields : List (String × Value)}

theorem owned_fields {owner : Owner} (owned : Owned (.obj owner fields)) : owner = .own ∧ relabelFields fields = fields := by
  rw [Owned,relabel] at owned
  injection owned with made kept
  exact ⟨made.symm,kept⟩

theorem owned_of_find {fields : Fields} (owned : relabelFields fields = fields) {key : String} {value : Value} (found : fields.find key = some value) :
    Owned value := by
  have same := find_relabelFields fields key
  rw [owned,found,Option.map_some,Option.some.injEq] at same
  exact same.symm

theorem owned_of_mem_items {items : List Value} (owned : relabelItems items = items) {item : Value} (member : item ∈ items) : Owned item := by
  rw [Value.relabelItems_eq] at owned
  exact map_inj_left.mp (owned.trans (map_id items).symm) item member

theorem owned_of_mem_fields (owned : relabelFields fields = fields) {field : String × Value} (member : field ∈ fields) :
    Owned field.2 := by
  rw [Value.relabelFields_eq] at owned
  exact congrArg Prod.snd (map_inj_left.mp (owned.trans (map_id fields).symm) field member)

variable {clean : Value → Option (Done Value)}

theorem cleanItems_written {items : List Value} (each : ∀ item ∈ items, ∀ done, clean item = some done → WritesOwn done) {done : Done (List Value)}
    (cleaned : cleanItems clean items = some done) : WritesOwn done := by
  induction items generalizing done with
  | nil => cases cleaned; exact writesOwn_nil
  | cons item items ih =>
    rw [cleanItems,bind_map_eq_some_iff] at cleaned
    obtain ⟨child,inside,others,later,rfl⟩ := cleaned
    exact writesOwn_append (each item mem_cons_self child inside) (ih (fun other member => each other (mem_cons_of_mem _ member)) later)

theorem cleanFields_written (each : ∀ field ∈ fields, ∀ done, clean field.2 = some done → WritesOwn done)
    {done : Done (List (String × Value))} (cleaned : cleanFields clean fields = some done) : WritesOwn done := by
  induction fields generalizing done with
  | nil => cases cleaned; exact writesOwn_nil
  | cons field fields ih =>
    rw [cleanFields,bind_map_eq_some_iff] at cleaned
    obtain ⟨child,inside,others,later,rfl⟩ := cleaned
    exact writesOwn_append (each field mem_cons_self child inside) (ih (fun other member => each other (mem_cons_of_mem _ member)) later)

theorem cleanProperties_written (each : ∀ value, Owned value → ∀ done, clean value = some done → WritesOwn done) {value : Value} (owned : Owned value)
    {done : Done Value} (cleaned : cleanProperties clean value = some done) : WritesOwn done := by
  cases value with
  | obj owner fields =>
    rw [cleanProperties,Option.map_eq_some_iff] at cleaned
    obtain ⟨others,inside,here⟩ := cleaned
    subst here
    exact cleanFields_written (fun field member => each field.2 (owned_of_mem_fields (owned_fields owned).2 member)) inside
  | arr owner items =>
    rw [cleanProperties,Option.map_eq_some_iff] at cleaned
    obtain ⟨others,inside,here⟩ := cleaned
    subst here
    rw [Owned,relabel] at owned
    injection owned with _ kept
    exact cleanItems_written (fun item member => each item (owned_of_mem_items kept member)) inside
  | _ => cases cleaned; exact writesOwn_nil

theorem cleanField_written {key : String} {schema : Fields} (each : ∀ value, schema.find key = some value → ∀ done, clean value = some done → WritesOwn done)
    {done : Done Fields} (cleaned : cleanField clean key schema = some done) :
    WritesOwn done ∧ ∀ other, other ≠ key → done.value.find other = schema.find other := by
  unfold cleanField at cleaned
  split at cleaned
  · cases cleaned
    exact ⟨writesOwn_nil,fun _ _ => rfl⟩
  · next value found =>
    rw [Option.map_eq_some_iff] at cleaned
    obtain ⟨child,inside,here⟩ := cleaned
    subst here
    refine ⟨each value found child inside,?_⟩
    intro other apart
    rw [OrderedMap.find_put,if_neg (Ne.symm apart)]

end

section
variable [Host] (numberText : ℚ → String)

theorem cleanupSchema_written {fuel : Nat} {value : Value} (owned : Owned value) {done : Done Value}
    (cleaned : cleanupSchema numberText fuel value = some done) : WritesOwn done := by
  induction fuel generalizing value done with
  | zero => cases cleaned; exact writesOwn_nil
  | succ fuel ih =>
    cases value with
    | obj owner fields =>
      obtain ⟨made,kept⟩ := owned_fields owned
      rw [cleanupSchema,applySchemaTransforms_eq,Option.bind_eq_some_iff] at cleaned
      obtain ⟨transformed,steps,rest⟩ := cleaned
      rw [Option.map_eq_some_iff] at steps
      obtain ⟨after,rewritten,filled⟩ := steps
      rw [← filled,bind_map_eq_some_iff] at rest
      obtain ⟨inner,properties,last,items,here⟩ := rest
      have keeps := keeps_rewriteNode numberText rewritten
      obtain ⟨first,others⟩ := cleanField_written (by
        intro value found
        refine fun _ => cleanProperties_written (fun value owned done cleaned => ih owned cleaned) ?_
        rw [find_dropUnsupported _ (by decide)] at found
        unfold fillProperties at found
        split at found
        · rw [OrderedMap.find_put,if_pos rfl,Option.some.injEq] at found
          subst found
          rfl
        · rw [keeps.find "properties" (by decide)] at found
          exact owned_of_find kept found) properties
      obtain ⟨second,_⟩ := cleanField_written (by
        intro value found done cleaned
        refine ih ?_ cleaned
        rw [others "items" (by decide),find_dropUnsupported _ (by decide)] at found
        unfold fillProperties at found
        split at found
        · rw [OrderedMap.find_put,if_neg (by decide),keeps.find "items" (by decide)] at found
          exact owned_of_find kept found
        · rw [keeps.find "items" (by decide)] at found
          exact owned_of_find kept found) items
      subst here made
      intro owner member
      rcases mem_cons.mp member with own | inChildren
      · exact own
      · exact @writesOwn_append _ _ _ _ _ () first second owner inChildren
    | arr owner items =>
      cases cleaned
      rw [Owned,relabel] at owned
      injection owned with made _
      intro other member
      rw [mem_singleton.mp member,made]
    | _ => cases cleaned; exact writesOwn_nil

/-- Cleaned parameters, or parameters left as they are, against the legacy result. -/
structure SameCleaned (parameters : Value) (result : Option (Done Value)) (legacy : Done Value) : Prop where
  value : relabel ((result.map Done.value).getD parameters) = relabel legacy.value
  written : ∀ done, result = some done → WritesOwn done

variable {parameters : Value}

theorem legacyParameters_written {done : Done Value} (cleaned : legacyParameters numberText parameters = some done) : WritesOwn done :=
  cleanupSchema_written numberText (Value.owned_cloneRecord parameters) cleaned

theorem anyWouldChange_false {nodes : List Fields} (scanned : anyWouldChange numberText nodes = some false) :
    ∀ node ∈ nodes, schemaWouldChange numberText node = some false := by
  induction nodes with
  | nil => exact forall_mem_nil _
  | cons node nodes ih =>
    rw [anyWouldChange,Option.bind_eq_some_iff] at scanned
    obtain ⟨change,first,rest⟩ := scanned
    cases change with
    | true => cases rest
    | false =>
      intro other member
      rcases mem_cons.mp member with rfl | later
      · exact first
      · exact ih rest other later

theorem inspectSchema_some {needsCleanup plain : Bool} (inspected : inspectSchema numberText parameters = some ⟨needsCleanup,plain⟩)
    (serializable : plain = true) :
    jsonSerializable 0 parameters = true ∧ anyWouldChange numberText (schemaNodes .schema parameters) = some needsCleanup := by
  unfold inspectSchema at inspected
  split at inspected
  · next plainly =>
    rw [Option.map_eq_some_iff] at inspected
    obtain ⟨change,scanned,here⟩ := inspected
    injection here with same _
    exact ⟨plainly,same ▸ scanned⟩
  · injection inspected with here
    injection here with _ other
    exact absurd (other.trans serializable) Bool.false_ne_true

/-- Where the scan finds nothing to change, the legacy pipeline copies the parameters. -/
theorem legacyParameters_unchanged (inspected : inspectSchema numberText parameters = some ⟨false,true⟩) :
    ∃ written, legacyParameters numberText parameters = some ⟨relabel parameters,written⟩ := by
  obtain ⟨plain,scanned⟩ := inspectSchema_some numberText inspected rfl
  unfold legacyParameters
  rw [cloneRecord_of_serializable parameters 0 plain]
  refine cleanupSchema_unchanged numberText ?_ ?_
  · rw [Value.rebuilds_relabel.depth_eq,enoughFuel]
    omega
  · intro node member
    rw [Value.rebuilds_relabel.nodes] at member
    obtain ⟨original,inside,here⟩ := mem_map.mp member
    subst here
    rw [Value.copyFields_relabel,schemaWouldChange_relabel]
    exact anyWouldChange_false numberText scanned original inside

variable {legacy : Done Value}

theorem cloneAndCleanSchema_eq {needsCleanup : Bool} (inspected : inspectSchema numberText parameters = some ⟨needsCleanup,true⟩)
    (distinct : parameters.Distinct) (finished : legacyParameters numberText parameters = some legacy) :
    ∃ written, cloneAndCleanSchema numberText parameters = some ⟨legacy.value,written⟩ := by
  obtain ⟨plain,_⟩ := inspectSchema_some numberText inspected rfl
  unfold legacyParameters at finished
  rw [cloneRecord_of_serializable parameters 0 plain] at finished
  refine cloneSchemaChild_eq numberText distinct ?_ legacy finished
  rw [enoughFuel]
  omega

theorem fastParameters_agrees (distinct : parameters.Distinct)
    (finished : legacyParameters numberText parameters = some legacy) :
    ∃ result, fastParameters numberText parameters = some result ∧ SameCleaned parameters result legacy := by
  have itself : SameCleaned parameters (some legacy) legacy := by
    refine ⟨rfl,?_⟩
    intro done same
    cases same
    exact legacyParameters_written numberText finished
  unfold fastParameters
  split
  · next inspected =>
    obtain ⟨written,copied⟩ := legacyParameters_unchanged numberText inspected
    rw [copied] at finished
    cases finished
    refine ⟨none,rfl,(Value.relabel_relabel parameters).symm,?_⟩
    intro done same
    cases same
  · next inspected =>
    obtain ⟨written,cleaned⟩ := cloneAndCleanSchema_eq numberText inspected distinct finished
    rw [cleaned]
    refine ⟨some ⟨legacy.value,written⟩,rfl,rfl,?_⟩
    intro done same
    cases same
    exact cloneSchemaChild_written numberText parameters _ cleaned
  · exact ⟨some legacy,by rw [finished,Option.map_some],itself⟩

/-! ### Tools -/

theorem relabelFields_put (fields : Fields) (key : String) (value : Value) :
    relabelFields (fields.put key value) = OrderedMap.put (relabelFields fields) key (relabel value) := by
  induction fields with
  | nil => rfl
  | cons field fields ih =>
    by_cases here : field.1 = key
    · simp [OrderedMap.put,relabelFields,here]
    · simp [OrderedMap.put,relabelFields,here,ih]

theorem relabel_put_same {owner : Owner} {fields : Fields} {key : String} {value other : Value} (found : fields.find key = some value)
    (same : relabel other = relabel value) : relabel (.obj .own (fields.put key other)) = relabel (.obj owner fields) := by
  rw [relabel,relabel,relabelFields_put,same,put_find_self (by rw [find_relabelFields,found,Option.map_some])]

/-- A cleaned tool against the legacy one. -/
structure SameTool (done legacy : Done Value) : Prop where
  value : relabel done.value = relabel legacy.value
  written : WritesOwn done

theorem sameTool_unchanged (tool : Value) : SameTool ⟨tool,[]⟩ ⟨tool,[]⟩ := ⟨rfl,forall_mem_nil _⟩

theorem cleanupFunctionTool_agrees {owner : Owner} {tool : Fields} (distinct : (Value.obj owner tool).Distinct)
    (finished : cleanupFunctionTool (fun parameters => (legacyParameters numberText parameters).map some) owner tool = some legacy) :
    ∃ done, cleanupFunctionTool (fastParameters numberText) owner tool = some done ∧ SameTool done legacy := by
  unfold cleanupFunctionTool at finished ⊢
  split
  · next functionOwner functionDef found =>
    rw [found] at finished
    dsimp only at finished
    have functionDistinct : (Value.obj functionOwner functionDef).Distinct := distinct_of_mem_fields distinct.2 (OrderedMap.mem_of_find found)
    split
    · next parametersOwner parameters listed =>
      rw [listed] at finished
      simp only [Option.map_map,Option.map_eq_some_iff] at finished
      obtain ⟨cleaned,pipeline,here⟩ := finished
      subst here
      have parametersDistinct : (Value.obj parametersOwner parameters).Distinct :=
        distinct_of_mem_fields functionDistinct.2 (OrderedMap.mem_of_find listed)
      obtain ⟨result,fast,same⟩ := fastParameters_agrees numberText parametersDistinct pipeline
      rw [fast,Option.map_some]
      refine ⟨_,rfl,?_⟩
      cases result with
      | none =>
        refine ⟨?_,forall_mem_nil _⟩
        have value : relabel (.obj parametersOwner parameters) = relabel cleaned.value := same.value
        have inner := @relabel_put_same _ functionOwner _ _ _ _ listed value.symm
        exact (relabel_put_same found inner).symm
      | some done =>
        refine ⟨?_,same.written done rfl⟩
        have value : relabel done.value = relabel cleaned.value := same.value
        simp only [Function.comp_apply,relabel,relabelFields_put,value]
    · next other =>
      split at finished
      · next parametersOwner parameters listed => exact absurd listed (other parametersOwner parameters)
      · cases finished
        exact ⟨_,rfl,sameTool_unchanged _⟩
  · next other =>
    split at finished
    · next functionOwner functionDef found => exact absurd found (other functionOwner functionDef)
    · cases finished
      exact ⟨_,rfl,sameTool_unchanged _⟩

/-- Cleaned tools against the legacy ones. -/
structure SameTools (done legacy : Done (List Value)) : Prop where
  value : relabelItems done.value = relabelItems legacy.value
  written : WritesOwn done

mutual
theorem cleanupToolDefinition_agrees : ∀ (tool : Value), tool.Distinct → ∀ legacy : Done Value,
    cleanupToolDefinition (fun parameters => (legacyParameters numberText parameters).map some) tool = some legacy →
    ∃ done, cleanupToolDefinition (fastParameters numberText) tool = some done ∧ SameTool done legacy
  | .null,_,legacy,finished | .bool _,_,legacy,finished | .num _,_,legacy,finished | .negativeZero,_,legacy,finished | .str _,_,legacy,finished
  | .arr _ _,_,legacy,finished => by
    cases finished
    exact ⟨_,rfl,sameTool_unchanged _⟩
  | .obj owner tool,distinct,legacy,finished => by
    rw [cleanupToolDefinition] at finished ⊢
    split at finished
    · next function =>
      rw [if_pos function]
      exact cleanupFunctionTool_agrees numberText distinct finished
    · next other =>
      rw [if_neg other]
      split at finished
      · next nested =>
        rw [if_pos nested]
        rw [Option.map_eq_some_iff] at finished
        obtain ⟨nestedLegacy,cleaned,here⟩ := finished
        subst here
        obtain ⟨tools,fast,agree⟩ := cleanupNested_agrees tool distinct.2 nestedLegacy cleaned
        rw [fast,Option.map_some]
        refine ⟨_,rfl,?_⟩
        cases agree with
        | inl neither =>
          rw [neither.1,neither.2]
          exact sameTool_unchanged _
        | inr both =>
          obtain ⟨done,legacyDone,first,second,same⟩ := both
          rw [first,second]
          refine ⟨?_,same.written⟩
          simp only [relabel,relabelFields_put,same.value]
      · next neither =>
        rw [if_neg neither]
        cases finished
        exact ⟨_,rfl,sameTool_unchanged _⟩
theorem cleanupNested_agrees : ∀ (fields : List (String × Value)), Value.DistinctFields fields → ∀ legacy : Option (Done (List Value)),
    cleanupNested (fun parameters => (legacyParameters numberText parameters).map some) fields = some legacy →
    ∃ result, cleanupNested (fastParameters numberText) fields = some result ∧
      (result = none ∧ legacy = none ∨ ∃ done legacyDone, result = some done ∧ legacy = some legacyDone ∧ SameTools done legacyDone)
  | [],_,legacy,finished => by
    cases finished
    exact ⟨none,rfl,Or.inl ⟨rfl,rfl⟩⟩
  | field :: fields,distinct,legacy,finished => by
    rw [cleanupNested] at finished ⊢
    split at finished
    · next here =>
      rw [if_pos here]
      exact cleanupArray_agrees field.2 distinct.1 legacy finished
    · next apart =>
      rw [if_neg apart]
      exact cleanupNested_agrees fields distinct.2 legacy finished
theorem cleanupArray_agrees : ∀ (value : Value), value.Distinct → ∀ legacy : Option (Done (List Value)),
    cleanupArray (fun parameters => (legacyParameters numberText parameters).map some) value = some legacy →
    ∃ result, cleanupArray (fastParameters numberText) value = some result ∧
      (result = none ∧ legacy = none ∨ ∃ done legacyDone, result = some done ∧ legacy = some legacyDone ∧ SameTools done legacyDone)
  | .null,_,legacy,finished | .bool _,_,legacy,finished | .num _,_,legacy,finished | .negativeZero,_,legacy,finished | .str _,_,legacy,finished
  | .obj _ _,_,legacy,finished => by
    cases finished
    exact ⟨none,rfl,Or.inl ⟨rfl,rfl⟩⟩
  | .arr _ tools,distinct,legacy,finished => by
    rw [cleanupArray,Option.map_eq_some_iff] at finished
    obtain ⟨legacyDone,cleaned,here⟩ := finished
    subst here
    obtain ⟨done,fast,same⟩ := cleanupTools_agrees tools distinct legacyDone cleaned
    exact ⟨some done,by rw [cleanupArray,fast,Option.map_some],Or.inr ⟨done,legacyDone,rfl,rfl,same⟩⟩
theorem cleanupTools_agrees : ∀ (tools : List Value), Value.DistinctItems tools → ∀ legacy : Done (List Value),
    cleanupTools (fun parameters => (legacyParameters numberText parameters).map some) tools = some legacy →
    ∃ done, cleanupTools (fastParameters numberText) tools = some done ∧ SameTools done legacy
  | [],_,legacy,finished => by
    cases finished
    exact ⟨_,rfl,rfl,forall_mem_nil _⟩
  | tool :: tools,distinct,legacy,finished => by
    rw [cleanupTools,bind_map_eq_some_iff] at finished
    obtain ⟨legacyTool,first,legacyTools,later,rfl⟩ := finished
    obtain ⟨done,fast,same⟩ := cleanupToolDefinition_agrees tool distinct.1 legacyTool first
    obtain ⟨others,fastRest,sameRest⟩ := cleanupTools_agrees tools distinct.2 legacyTools later
    refine ⟨⟨done.value :: others.value,done.written ++ others.written⟩,?_,?_,writesOwn_append same.written sameRest.written⟩
    · rw [cleanupTools,fast,Option.bind_some,fastRest,Option.map_some]
    · simp only [relabelItems,same.value,sameRest.value]
end

/-- The clean-up of tools gives the tools of the legacy pipeline wherever that finishes,
    and writes to nothing that the caller made. -/
theorem cleanupToolDefinitions_agrees (tools : Option (List Value)) (distinct : ∀ list ∈ tools, Value.DistinctItems list)
    (legacy : Option (Done (List Value))) (finished : legacyToolDefinitions numberText tools = some legacy) :
    ∃ result, cleanupToolDefinitions numberText tools = some result ∧
      result.map (fun done => relabelItems done.value) = legacy.map (fun done => relabelItems done.value) ∧
      ∀ done ∈ result, ∀ owner ∈ done.written, owner = .own := by
  cases tools with
  | none =>
    cases finished
    exact ⟨none,rfl,rfl,fun _ none => nomatch none⟩
  | some tools =>
    rw [legacyToolDefinitions,Option.map_eq_some_iff] at finished
    obtain ⟨legacyDone,cleaned,here⟩ := finished
    subst here
    obtain ⟨done,fast,same⟩ := cleanupTools_agrees numberText tools (distinct tools rfl) legacyDone cleaned
    refine ⟨some done,by rw [cleanupToolDefinitions,fast,Option.map_some],?_,?_⟩
    · rw [Option.map_some,Option.map_some,same.value]
    · intro other member
      cases member
      exact same.written

end

section
attribute [local instance] asciiHost

/-- Two tools: one whose parameters stay as they are, one with a nullable type, a constant
    union, a missing required key and a nested object without properties. -/
def exampleTools : List Value :=
  let parameters := fun fields : List (String × Value) =>
    Value.obj .caller [("type",.str "function"),("function",.obj .caller [("name",.str "f"),("parameters",.obj .caller fields)])]
  [parameters [("type",.str "object"),("properties",.obj .caller [("a",.obj .caller [("type",.str "string")])])],
    parameters [("type",.str "object"),
      ("properties",.obj .caller [
        ("a",.obj .caller [("type",.arr .caller [.str "string",.str "null"])]),
        ("b",.obj .caller [("anyOf",.arr .caller [.obj .caller [("const",.str "x")],.obj .caller [("const",.str "y")]])]),
        ("c",.obj .caller [("type",.str "object"),("title",.str "C")])]),
      ("required",.arr .caller [.str "a",.str "z"])]]

theorem example_tools_agree : ∃ result legacy, cleanupToolDefinitions (fun _ => "0") (some exampleTools) = some result ∧
    legacyToolDefinitions (fun _ => "0") (some exampleTools) = some legacy ∧
    result.map (fun done => relabelItems done.value) = legacy.map (fun done => relabelItems done.value) := by
  have finishes : (legacyToolDefinitions (fun _ => "0") (some exampleTools)).isSome = true := by decide
  have distinct : ∀ list ∈ some exampleTools, Value.DistinctItems list := by
    intro list same
    cases same
    simp [exampleTools,Value.DistinctItems,Value.Distinct,Value.DistinctFields]
  have finished := (Option.some_get finishes).symm
  obtain ⟨result,fast,same,_⟩ := cleanupToolDefinitions_agrees (fun _ => "0") (some exampleTools) distinct _ finished
  exact ⟨result,_,fast,finished,same⟩

end
end CodexMultiAuth.ToolSchema
