import CodexMultiAuth.Identity

/-!
The clean-up of tool schemas. The legacy way clones a schema through its JSON
text and rewrites the clone in place; a scan says beforehand whether anything
would change, and a single pass clones and cleans at once. Values are plain JSON
data whose objects say who made them, so that what is written to can be told
apart from what was given. A result of `none` is an exception.
-/
namespace CodexMultiAuth.ToolSchema

/-- Who made an object: the caller, or the function itself. -/
inductive Owner where
  | caller
  | own
  deriving DecidableEq

/-- Plain JSON data; a number is finite and may be a negative zero. -/
inductive Value where
  | null
  | bool (value : Bool)
  | num (value : ℚ)
  | negativeZero
  | str (value : String)
  | arr (owner : Owner) (items : List Value)
  | obj (owner : Owner) (fields : List (String × Value))

/-- An object's own properties in their order. -/
abbrev Fields := OrderedMap String Value

namespace Value

mutual
def depth : Value → Nat
  | .arr _ items => depthItems items + 1
  | .obj _ fields => depthFields fields + 1
  | _ => 0
def depthItems : List Value → Nat
  | [] => 0
  | item :: items => max (depth item) (depthItems items)
def depthFields : List (String × Value) → Nat
  | [] => 0
  | field :: fields => max (depth field.2) (depthFields fields)
end

mutual
/-- No object has a key twice. -/
def Distinct : Value → Prop
  | .arr _ items => DistinctItems items
  | .obj _ fields => (fields.map Prod.fst).Nodup ∧ DistinctFields fields
  | _ => True
def DistinctItems : List Value → Prop
  | [] => True
  | item :: items => Distinct item ∧ DistinctItems items
def DistinctFields : List (String × Value) → Prop
  | [] => True
  | field :: fields => Distinct field.2 ∧ DistinctFields fields
end

mutual
/-- The same data in objects of the function's own. -/
def relabel : Value → Value
  | .arr _ items => .arr .own (relabelItems items)
  | .obj _ fields => .obj .own (relabelFields fields)
  | value => value
def relabelItems : List Value → List Value
  | [] => []
  | item :: items => relabel item :: relabelItems items
def relabelFields : List (String × Value) → List (String × Value)
  | [] => []
  | field :: fields => (field.1,relabel field.2) :: relabelFields fields
end

mutual
/-- `JSON.parse(JSON.stringify(value))`, which has no negative zero. -/
def cloneRecord : Value → Value
  | .negativeZero => .num 0
  | .arr _ items => .arr .own (cloneItems items)
  | .obj _ fields => .obj .own (cloneFields fields)
  | value => value
def cloneItems : List Value → List Value
  | [] => []
  | item :: items => cloneRecord item :: cloneItems items
def cloneFields : List (String × Value) → List (String × Value)
  | [] => []
  | field :: fields => (field.1,cloneRecord field.2) :: cloneFields fields
end

def truthy : Option Value → Bool
  | none => false
  | some .null => false
  | some (.bool value) => value
  | some (.num value) => decide (value ≠ 0)
  | some .negativeZero => false
  | some (.str value) => decide (value ≠ "")
  | some (.arr _ _) => true
  | some (.obj _ _) => true

end Value

/-! ### The steps at one schema node -/

section
variable [Host] (numberText : ℚ → String)

mutual
/-- The property key that a value is turned into; an object that hides its
    `toString` cannot be turned into one. -/
def propertyKey : Value → Option String
  | .null => some "null"
  | .bool value => some (if value then "true" else "false")
  | .num value => some (numberText value)
  | .negativeZero => some (numberText 0)
  | .str value => some value
  | .arr _ items => (joinedKeys items).map (fun texts => ",".intercalate texts)
  | .obj _ fields => if fields.any (fun field => field.1 == "toString") then none else some "[object Object]"
def joinedKeys : List Value → Option (List String)
  | [] => some []
  | .null :: items => (joinedKeys items).map (fun texts => "" :: texts)
  | item :: items => (propertyKey item).bind (fun text => (joinedKeys items).map (fun texts => text :: texts))
end

/-- Whether every option is an object with `const`; a primitive has no `in`. -/
def everyConst : List Value → Option Bool
  | [] => some true
  | .obj _ fields :: rest => if (OrderedMap.find fields "const").isSome then everyConst rest else some false
  | .arr _ _ :: _ => some false
  | _ :: _ => none

def constOf : Value → Value
  | .obj _ fields => (OrderedMap.find fields "const").getD .null
  | _ => .null

/-- The type that is inferred from a constant. -/
def inferredType : Value → Option String
  | .str _ => some "string"
  | .num _ => some "number"
  | .negativeZero => some "number"
  | .bool _ => some "boolean"
  | _ => none

def isNullText : Value → Bool
  | .str value => decide (value = "null")
  | _ => false

/-- 1. An `anyOf` of constants becomes an `enum`. -/
def flattenUnion (schema : Fields) : Option Fields :=
  match schema.find "anyOf" with
  | some (.arr _ anyOf) =>
    (everyConst anyOf).map (fun allConst =>
      match allConst,anyOf with
      | true,first :: _ =>
        let flattened := (schema.put "enum" (.arr .own (anyOf.map constOf))).remove "anyOf"
        if Value.truthy (flattened.find "type") then flattened
        else
          match inferredType (constOf first) with
          | some type => flattened.put "type" (.str type)
          | none => flattened
      | _,_ => schema)
  | _ => some schema

/-- A description that says that the value may be null. -/
def noteNullable (schema : Fields) : Option Fields :=
  if Value.truthy (schema.find "description") then
    match schema.find "description" with
    | some (.str desc) =>
      if "nullable".toList <:+: (Host.toLowerCase desc).toList then some schema
      else some (schema.put "description" (.str (desc ++ " (nullable)")))
    | _ => none
  else some (schema.put "description" (.str "(nullable)"))

/-- 2. A list of types becomes the first that is not `null`. -/
def collapseType (schema : Fields) : Option Fields :=
  match schema.find "type" with
  | some (.arr _ types) =>
    match types.filter (fun type => !isNullText type) with
    | [] => some schema
    | first :: _ =>
      let collapsed := schema.put "type" first
      if types.any isNullText then noteNullable collapsed else some collapsed
  | _ => some schema

def hasOwn (container : Value) (key : String) : Bool :=
  match container with
  | .obj _ fields => (OrderedMap.find fields key).isSome
  | .arr _ items => key == "length" || ((List.range items.length).map Nat.repr).contains key
  | _ => false

/-- The keys that properties have of their own, where they are an object or an array. -/
def ownKeys : Option Value → Option (String → Bool)
  | some (.obj owner fields) => some (hasOwn (.obj owner fields))
  | some (.arr owner items) => some (hasOwn (.arr owner items))
  | _ => none

def validRequired (own : String → Bool) : List Value → Option (List Value)
  | [] => some []
  | key :: required =>
    (propertyKey numberText key).bind (fun text =>
      (validRequired own required).map (fun valid => if own text then key :: valid else valid))

/-- 3. Only properties that exist are required. -/
def filterRequired (schema : Fields) : Option Fields :=
  match schema.find "required",ownKeys (schema.find "properties") with
  | some (.arr _ required),some own =>
    (validRequired numberText own required).map (fun valid =>
      match valid with
      | [] => schema.remove "required"
      | _ :: _ => if valid.length ≠ required.length then schema.put "required" (.arr .own valid) else schema)
  | _,_ => some schema

def keyCount : Value → Nat
  | .obj _ fields => fields.length
  | .arr _ items => items.length
  | .str value => value.length
  | _ => 0

def isEmptyProperties (properties : Option Value) : Bool :=
  match properties with
  | none => true
  | some properties => !Value.truthy (some properties) || decide (keyCount properties = 0)

def placeholder : Value :=
  .obj .own [("_placeholder",.obj .own
    [("type",.str "boolean"),("description",.str "This property is a placeholder and should be ignored.")])]

def isObjectType : Option Value → Bool
  | some (.str value) => decide (value = "object")
  | _ => false

/-- 4. An object without properties gets one. -/
def fillProperties (schema : Fields) : Fields :=
  if isObjectType (schema.find "type") && isEmptyProperties (schema.find "properties") then schema.put "properties" placeholder
  else schema

/-- 5. The keywords that are not supported. -/
def isUnsupported (key : String) : Bool := ["additionalProperties","const","title","$schema"].contains key

def dropUnsupported (schema : Fields) : Fields := schema.filter (fun field => !isUnsupported field.1)

/-- Steps 1 to 4, which stand alike in both functions. -/
def applySchemaTransforms (schema : Fields) : Option Fields :=
  (flattenUnion schema).bind (fun schema => (collapseType schema).bind (fun schema =>
    (filterRequired numberText schema).map fillProperties))

/-- A cleaned value, with the makers of the objects that were written to; a copy that
    is being made only fills new objects. -/
structure Done (α : Type) where
  value : α
  written : List Owner

def cleanItems (clean : Value → Option (Done Value)) : List Value → Option (Done (List Value))
  | [] => some ⟨[],[]⟩
  | item :: items =>
    (clean item).bind (fun done => (cleanItems clean items).map (fun rest => ⟨done.value :: rest.value,done.written ++ rest.written⟩))

def cleanFields (clean : Value → Option (Done Value)) : List (String × Value) → Option (Done (List (String × Value)))
  | [] => some ⟨[],[]⟩
  | field :: fields =>
    (clean field.2).bind (fun done =>
      (cleanFields clean fields).map (fun rest => ⟨(field.1,done.value) :: rest.value,done.written ++ rest.written⟩))

/-- The values of a container of properties. -/
def cleanProperties (clean : Value → Option (Done Value)) : Value → Option (Done Value)
  | .obj owner fields => (cleanFields clean fields).map (fun done => ⟨.obj owner done.value,done.written⟩)
  | .arr owner items => (cleanItems clean items).map (fun done => ⟨.arr owner done.value,done.written⟩)
  | value => some ⟨value,[]⟩

/-- A field's value cleaned in its place. -/
def cleanField (clean : Value → Option (Done Value)) (key : String) (schema : Fields) : Option (Done Fields) :=
  match schema.find key with
  | none => some ⟨schema,[]⟩
  | some value => (clean value).map (fun done => ⟨schema.put key done.value,done.written⟩)

/-- `cleanupSchema`; the number bounds how deep it goes. Plain data has no undefined
    properties to delete first, and an array has none of the fields looked at. -/
def cleanupSchema : Nat → Value → Option (Done Value)
  | 0,value => some ⟨value,[]⟩
  | fuel + 1,.obj owner fields =>
    (applySchemaTransforms numberText fields).bind (fun transformed =>
      (cleanField (cleanProperties (cleanupSchema fuel)) "properties" (dropUnsupported transformed)).bind (fun inner =>
        (cleanField (cleanupSchema fuel) "items" inner.value).map (fun last =>
          ⟨.obj owner last.value,owner :: (inner.written ++ last.written)⟩)))
  | _ + 1,.arr owner items => some ⟨.arr owner items,[owner]⟩
  | _ + 1,value => some ⟨value,[]⟩

/-- Deep enough for a value and for the placeholder. -/
def enoughFuel (value : Value) : Nat := value.depth + 3

/-- The legacy pipeline: a JSON clone that is cleaned in place. -/
def legacyParameters (parameters : Value) : Option (Done Value) :=
  cleanupSchema numberText (enoughFuel parameters) parameters.cloneRecord

mutual
/-- A copy of plain data. -/
def clonePlainValue : Value → Value
  | .arr _ items => .arr .own (clonePlainItems items)
  | .obj _ fields => .obj .own (clonePlainFields fields)
  | value => value
def clonePlainItems : List Value → List Value
  | [] => []
  | item :: items => clonePlainValue item :: clonePlainItems items
def clonePlainFields : List (String × Value) → List (String × Value)
  | [] => []
  | field :: fields => (field.1,clonePlainValue field.2) :: clonePlainFields fields
end

mutual
/-- `cloneSchemaChild`; where the value is an object it is `cloneAndCleanSchema`, which
    applies the steps to the copy it has made. -/
def cloneSchemaChild : Value → Option (Done Value)
  | .obj _ fields =>
    (cloneNodeFields fields).bind (fun out =>
      (applySchemaTransforms numberText out.value).map (fun node => ⟨.obj .own node,.own :: out.written⟩))
  | value => some ⟨clonePlainValue value,[]⟩
/-- The copy of a node's fields: properties and items are cleaned, unsupported keywords left out. -/
def cloneNodeFields : List (String × Value) → Option (Done (List (String × Value)))
  | [] => some ⟨[],[]⟩
  | field :: fields =>
    if isUnsupported field.1 then cloneNodeFields fields
    else
      (if field.1 = "properties" then clonePropertiesMap field.2
        else if field.1 = "items" then cloneSchemaChild field.2
        else some ⟨clonePlainValue field.2,[]⟩).bind (fun child =>
          (cloneNodeFields fields).map (fun out => ⟨(field.1,child.value) :: out.value,child.written ++ out.written⟩))
def clonePropertiesMap : Value → Option (Done Value)
  | .obj _ fields => (clonePropertyFields fields).map (fun out => ⟨.obj .own out.value,out.written⟩)
  | .arr _ items => (clonePropertyItems items).map (fun out => ⟨.arr .own out.value,out.written⟩)
  | value => some ⟨clonePlainValue value,[]⟩
def clonePropertyFields : List (String × Value) → Option (Done (List (String × Value)))
  | [] => some ⟨[],[]⟩
  | field :: fields =>
    (cloneSchemaChild field.2).bind (fun child =>
      (clonePropertyFields fields).map (fun out => ⟨(field.1,child.value) :: out.value,child.written ++ out.written⟩))
def clonePropertyItems : List Value → Option (Done (List Value))
  | [] => some ⟨[],[]⟩
  | item :: items =>
    (cloneSchemaChild item).bind (fun child =>
      (clonePropertyItems items).map (fun out => ⟨child.value :: out.value,child.written ++ out.written⟩))
end

def cloneAndCleanSchema (node : Value) : Option (Done Value) := cloneSchemaChild numberText node

/-- Entries of `required` that name a property of the container. -/
def countRequired (keys : List String) : List Value → Option Nat
  | [] => some 0
  | key :: required =>
    (propertyKey numberText key).bind (fun text =>
      (countRequired keys required).map (fun count => if keys.contains text then count + 1 else count))

/-- The keys of an object or array, or nothing for another value. -/
def propertyKeys : Option Value → Option (List String)
  | some (.obj _ fields) => some (fields.map Prod.fst)
  | some (.arr _ items) => some ((List.range items.length).map Nat.repr)
  | _ => none

def unionWouldChange (schema : Fields) : Option Bool :=
  match schema.find "anyOf" with
  | some (.arr _ anyOf) => if anyOf.isEmpty then some false else everyConst anyOf
  | _ => some false

def typeWouldChange (schema : Fields) : Bool :=
  match schema.find "type" with
  | some (.arr _ types) => types.any (fun type => !isNullText type)
  | _ => false

def requiredWouldChange (schema : Fields) : Option Bool :=
  match schema.find "required",propertyKeys (schema.find "properties") with
  | some (.arr _ required),some keys =>
    (countRequired numberText keys required).map (fun valid => decide (valid = 0) || decide (valid ≠ required.length))
  | _,_ => some false

def propertiesWouldChange (schema : Fields) : Bool :=
  isObjectType (schema.find "type") &&
    (match schema.find "properties",propertyKeys (schema.find "properties") with
    | none,_ => true
    | some _,some keys => decide (keys.length = 0)
    | some properties,none => !Value.truthy (some properties) || decide (keyCount properties = 0))

def schemaWouldChange (schema : Fields) : Option Bool :=
  (unionWouldChange schema).bind (fun union =>
    if union || typeWouldChange schema then some true
    else (requiredWouldChange numberText schema).map (fun required =>
      required || propertiesWouldChange schema || schema.any (fun field => isUnsupported field.1)))

inductive Mode where
  | data
  | schema
  | properties
  deriving DecidableEq

def childSchemaMode (mode : Mode) (key : String) : Mode :=
  match mode with
  | .properties => .schema
  | .schema => if key = "properties" then .properties else if key = "items" then .schema else .data
  | .data => .data

def MAX_SCHEMA_DEPTH : Nat := 512

mutual
/-- Whether the round trip through JSON is the identity, and the walk not too deep. -/
def jsonSerializable (depth : Nat) : Value → Bool
  | .negativeZero => false
  | .arr _ items => decide (depth ≤ MAX_SCHEMA_DEPTH) && serializableItems (depth + 1) items
  | .obj _ fields => decide (depth ≤ MAX_SCHEMA_DEPTH) && serializableFields (depth + 1) fields
  | _ => true
def serializableItems (depth : Nat) : List Value → Bool
  | [] => true
  | item :: items => jsonSerializable depth item && serializableItems depth items
def serializableFields (depth : Nat) : List (String × Value) → Bool
  | [] => true
  | field :: fields => jsonSerializable depth field.2 && serializableFields depth fields
end

mutual
/-- The schema nodes that the walk collects. -/
def schemaNodes (mode : Mode) : Value → List Fields
  | .arr _ items => schemaNodesItems (if mode = .properties then .schema else .data) items
  | .obj _ fields => (if mode = .schema then [fields] else []) ++ schemaNodesFields mode fields
  | _ => []
def schemaNodesItems (mode : Mode) : List Value → List Fields
  | [] => []
  | item :: items => schemaNodes mode item ++ schemaNodesItems mode items
def schemaNodesFields (mode : Mode) : List (String × Value) → List Fields
  | [] => []
  | field :: fields => schemaNodes (childSchemaMode mode field.1) field.2 ++ schemaNodesFields mode fields
end

/-- Whether some node would change, up to the first that does. -/
def anyWouldChange : List Fields → Option Bool
  | [] => some false
  | node :: nodes => (schemaWouldChange numberText node).bind (fun change => if change then some true else anyWouldChange nodes)

structure SchemaInspection where
  needsCleanup : Bool
  jsonSerializable : Bool

def inspectSchema (root : Value) : Option SchemaInspection :=
  if jsonSerializable 0 root then (anyWouldChange numberText (schemaNodes .schema root)).map (fun needsCleanup => ⟨needsCleanup,true⟩)
  else some ⟨false,false⟩

/-- The cleaned parameters, or nothing where they are left as they are. -/
def fastParameters (parameters : Value) : Option (Option (Done Value)) :=
  match inspectSchema numberText parameters with
  | some ⟨false,true⟩ => some none
  | some ⟨true,true⟩ =>
    match cloneAndCleanSchema numberText parameters with
    | some cleaned => some (some cleaned)
    | none => (legacyParameters numberText parameters).map some
  | _ => (legacyParameters numberText parameters).map some

/-- A function tool with its parameters cleaned in some way. -/
def cleanupFunctionTool (clean : Value → Option (Option (Done Value))) (owner : Owner) (tool : Fields) : Option (Done Value) :=
  match tool.find "function" with
  | some (.obj _ functionDef) =>
    match OrderedMap.find functionDef "parameters" with
    | some (.obj parametersOwner parameters) =>
      (clean (.obj parametersOwner parameters)).map (fun cleaned =>
        match cleaned with
        | none => ⟨.obj owner tool,[]⟩
        | some cleaned =>
          ⟨.obj .own (tool.put "function" (.obj .own (OrderedMap.put functionDef "parameters" cleaned.value))),cleaned.written⟩)
    | _ => some ⟨.obj owner tool,[]⟩
  | _ => some ⟨.obj owner tool,[]⟩

def isTypeText (tool : Fields) (text : String) : Bool :=
  match tool.find "type" with
  | some (.str type) => decide (type = text)
  | _ => false

mutual
/-- A tool, and the tools of a namespace. -/
def cleanupToolDefinition (clean : Value → Option (Option (Done Value))) : Value → Option (Done Value)
  | .obj owner tool =>
    if isTypeText tool "function" then cleanupFunctionTool clean owner tool
    else if isTypeText tool "namespace" then
      (cleanupNested clean tool).map (fun nested =>
        match nested with
        | some tools => ⟨.obj .own (OrderedMap.put tool "tools" (.arr .own tools.value)),tools.written⟩
        | none => ⟨.obj owner tool,[]⟩)
    else some ⟨.obj owner tool,[]⟩
  | value => some ⟨value,[]⟩
/-- The tools of the first field of that name, if they are a list. -/
def cleanupNested (clean : Value → Option (Option (Done Value))) : List (String × Value) → Option (Option (Done (List Value)))
  | [] => some none
  | field :: fields => if field.1 = "tools" then cleanupArray clean field.2 else cleanupNested clean fields
def cleanupArray (clean : Value → Option (Option (Done Value))) : Value → Option (Option (Done (List Value)))
  | .arr _ tools => (cleanupTools clean tools).map some
  | _ => some none
def cleanupTools (clean : Value → Option (Option (Done Value))) : List Value → Option (Done (List Value))
  | [] => some ⟨[],[]⟩
  | tool :: tools =>
    (cleanupToolDefinition clean tool).bind (fun done =>
      (cleanupTools clean tools).map (fun rest => ⟨done.value :: rest.value,done.written ++ rest.written⟩))
end

def cleanupToolDefinitions (tools : Option (List Value)) : Option (Option (Done (List Value))) :=
  match tools with
  | none => some none
  | some tools => (cleanupTools (fastParameters numberText) tools).map some

/-- The same with the legacy pipeline for every function tool. -/
def legacyToolDefinitions (tools : Option (List Value)) : Option (Option (Done (List Value))) :=
  match tools with
  | none => some none
  | some tools => (cleanupTools (fun parameters => (legacyParameters numberText parameters).map some) tools).map some

end
end CodexMultiAuth.ToolSchema
