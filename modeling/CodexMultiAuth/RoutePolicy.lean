import CodexMultiAuth.Identity

/-!
Model routes: how an alias names a kind of credential, a speed and an upstream
model, which catalogs serve it, and the models that a client is shown.
-/
namespace CodexMultiAuth.RoutePolicy
open OrderedMap

inductive ModelRouteKind where
  | oauth
  | api
  | zdr
  | psp
  deriving DecidableEq

/-- A model record; its slug is always there. -/
structure RouteModel where
  slug : String
  fields : Record

structure RouteCatalog where
  id : String
  kind : ModelRouteKind
  priority : ℚ
  enabled : Bool
  models : List RouteModel
  visibleModels : Option (List String)

structure ParsedRoute where
  kind : ModelRouteKind
  upstreamModel : String
  serviceTier : Option String
  deriving DecidableEq

/-- The length that JavaScript counts: a character beyond the basic plane counts twice. -/
def utf16Length (text : List Char) : Nat := (text.map (fun c => if 0x10000 ≤ c.toNat then 2 else 1)).sum

def isControlOrSpace (c : Char) : Bool := decide (c.toNat ≤ 32) || decide (c.toNat = 127)

def isTierChar (c : Char) : Bool := c.isAlphanum || c = '.' || c = '_' || c = '-'

/-- `[A-Za-z0-9._-]{1,64}` -/
def isTierId (text : List Char) : Bool := decide (1 ≤ text.length) && decide (text.length ≤ 64) && text.all isTierChar

def isLineBreak (c : Char) : Bool := c = '\n' || c = '\r' || decide (c.toNat = 0x2028) || decide (c.toNat = 0x2029)

def ModelRouteKind.name : ModelRouteKind → String
  | .oauth => "oauth"
  | .api => "api"
  | .zdr => "zdr"
  | .psp => "psp"

/-- What an alias of a kind starts with. -/
def routePrefix : ModelRouteKind → List Char
  | .oauth => []
  | .api => "api/".toList
  | .zdr => "zdr/".toList
  | .psp => "psp/".toList

def speedPrefix : List Char := "speed/".toList

def isReserved (model : List Char) : Bool :=
  (routePrefix .api).isPrefixOf model || (routePrefix .zdr).isPrefixOf model || (routePrefix .psp).isPrefixOf model || speedPrefix.isPrefixOf model

def splitKind (model : List Char) : ModelRouteKind × List Char :=
  if (routePrefix .api).isPrefixOf model then (.api,model.drop 4)
  else if (routePrefix .zdr).isPrefixOf model then (.zdr,model.drop 4)
  else if (routePrefix .psp).isPrefixOf model then (.psp,model.drop 4)
  else (.oauth,model)

def splitSpeed (model : List Char) : Except String (Option String × List Char) :=
  if speedPrefix.isPrefixOf model then
    let tier := (model.drop speedPrefix.length).takeWhile (· ≠ '/')
    match (model.drop speedPrefix.length).dropWhile (· ≠ '/') with
    | _ :: rest =>
      if isTierId tier && !rest.isEmpty && rest.all (fun c => !isLineBreak c) then .ok (some (String.ofList tier),rest)
      else .error "Invalid speed route"
    | [] => .error "Invalid speed route"
  else .ok (none,model)

def parseModelRoute (model : String) : Except String ParsedRoute :=
  if model.toList = [] ∨ 256 < utf16Length model.toList ∨ model.toList.any isControlOrSpace = true then .error "Invalid route model"
  else
    let (kind,rest) := splitKind model.toList
    match splitSpeed rest with
    | .error error => .error error
    | .ok (serviceTier,rest) =>
      if rest = [] ∨ isReserved rest = true then .error "Invalid route model"
      else .ok ⟨kind,String.ofList rest,serviceTier⟩

/-- A tier with an id, a name without control characters and a description. -/
def isServiceTier (tier : Json) : Bool :=
  match tier with
  | .obj fields =>
    (match Record.text fields "id" with
    | some id => isTierId id.toList
    | none => false) &&
    (match Record.text fields "name" with
    | some name => decide (utf16Length name.toList ≤ 100) && name.toList.all (fun c => decide (32 ≤ c.toNat) && decide (c.toNat ≠ 127))
    | none => false) &&
    (Record.text fields "description").isSome
  | _ => false

def items (fields : Record) (key : String) : Option (List Json) := (find fields key).bind Json.asItems

def modelServiceTiers (fields : Record) : List Json := ((items fields "service_tiers").getD []).filter isServiceTier

def optionText (key : String) (option : Json) : Option String := option.asRecord.bind (fun fields => Record.text fields key)

def canonicalServiceTier (tier : String) : String := if tier = "priority" then "fast" else tier

/-- Whether `String(value)` is a word: the word itself, or an array of nothing else. -/
def spells (word : String) : Json → Bool
  | .str text => decide (text = word)
  | .arr [value] => spells word value
  | _ => false

def probeStatus (fields : Record) (key : String) : Option Json := (Record.record fields "capability_probe_status").bind (fun status => status.find key)

/-- The probe of an effort was turned down or answered by another one. -/
def probedOut (fields : Record) (effort : String) : Bool :=
  match probeStatus fields ("effort:" ++ effort) with
  | some status => spells "unsupported" status || spells "downgraded" status
  | none => false

def listsEffort (fields : Record) (effort : String) : Bool :=
  ((items fields "supported_reasoning_levels").getD []).any (fun level => decide (optionText "effort" level = some effort))

def supportsEffort (fields : Record) (reasoningEffort : Option String) : Bool :=
  match reasoningEffort.bind nonEmpty with
  | none => true
  | some effort =>
    !probedOut fields effort && (decide (find fields "reasoning_levels_known" = some (.bool false)) || listsEffort fields effort)

def supportsTier (fields : Record) (serviceTier : Option String) : Bool :=
  match serviceTier.bind nonEmpty with
  | none => true
  | some tier =>
    tier = "default" || tier = "auto" || (modelServiceTiers fields).any (fun option =>
      decide ((optionText "id" option).map canonicalServiceTier = some (canonicalServiceTier tier)))

def supportsModelSettings (model : RouteModel) (reasoningEffort serviceTier : Option String) : Bool :=
  supportsEffort model.fields reasoningEffort && supportsTier model.fields serviceTier

def isVisible (catalog : RouteCatalog) (model : RouteModel) : Bool :=
  if probeStatus model.fields "responses" = some (.str "unsupported") ∨ probeStatus model.fields "credential" = some (.str "unavailable") ∨
      catalog.enabled = false ∨ model.slug = "" ∨ isReserved model.slug.toList = true then false
  else decide (catalog.kind = .oauth) || (catalog.visibleModels.getD []).contains model.slug

structure RouteSettings where
  reasoningEffort : Option String := none
  serviceTier : Option String := none

structure ResolvedModelRoute where
  kind : ModelRouteKind
  upstreamModel : String
  candidates : List RouteCatalog
  serviceTier : Option String

def serves (kind : ModelRouteKind) (upstreamModel : String) (reasoningEffort serviceTier : Option String) (catalog : RouteCatalog) : Bool :=
  decide (catalog.kind = kind) && catalog.models.any (fun model =>
    decide (model.slug = upstreamModel) && isVisible catalog model && supportsModelSettings model reasoningEffort serviceTier)

/-- `localeCompare` orders texts by the rules of a language. -/
def resolveModelRoute (localeCompare : String → String → ℤ) (model : String) (catalogs : List RouteCatalog) (settings : RouteSettings) :
    Except String ResolvedModelRoute :=
  match parseModelRoute model with
  | .error error => .error error
  | .ok parsed =>
    let chosen := settings.serviceTier.bind nonEmpty
    if parsed.serviceTier.isSome ∧ chosen.isSome ∧ parsed.serviceTier.map canonicalServiceTier ≠ chosen.map canonicalServiceTier then
      .error "Conflicting speed selection"
    else
      let serviceTier := parsed.serviceTier.or settings.serviceTier
      let candidates := (catalogs.filter (serves parsed.kind parsed.upstreamModel settings.reasoningEffort serviceTier)).mergeSort (fun a b =>
        decide (a.priority < b.priority) || (decide (a.priority = b.priority) && decide (localeCompare a.id b.id ≤ 0)))
      .ok { kind := parsed.kind, upstreamModel := parsed.upstreamModel, candidates := candidates, serviceTier := serviceTier.bind nonEmpty }

def supportsCatalogSettings (fields : Record) (effort tier : Option String) : Bool :=
  (match effort.bind nonEmpty with
  | some effort => listsEffort fields effort
  | none => true) &&
  (match tier.bind nonEmpty with
  | some tier => tier = "default" || tier = "auto" || ((items fields "service_tiers").getD []).any (fun option =>
      decide ((optionText "id" option).map canonicalServiceTier = some (canonicalServiceTier tier)))
  | none => true)

def gatherOption (key : Json → Option String) (options : OrderedMap String Json) (option : Json) : OrderedMap String Json :=
  match key option with
  | some name => options.put name option
  | none => options

/-- The options of all records under a key each; a later one takes the place of an earlier one. -/
def gatherOptions (field : String) (key : Json → Option String) (models : List Record) : OrderedMap String Json :=
  (models.flatMap (fun fields => (items fields field).getD [])).foldl (gatherOption key) []

def effortKey : Json → Option String := optionText "effort"
def tierKey (option : Json) : Option String := (optionText "id" option).map canonicalServiceTier

def withOptions (fields : Record) (field : String) (options : OrderedMap String Json) : Record :=
  if options.isEmpty then fields else put fields field (.arr (options.map Prod.snd))

def stringEfforts (fields : Record) : List String := ((items fields "supported_reasoning_levels").getD []).filterMap effortKey

/-- A tier that some record offers beside each effort. -/
def hasWitness (models : List Record) (efforts : List String) (tier : Json) : Bool :=
  match optionText "id" tier with
  | none => false
  | some id => (if efforts.isEmpty then [none] else efforts.map some).all (fun effort =>
      models.any (fun fields => supportsCatalogSettings fields effort (some id)))

def keepWitnessed (models : List Record) (result : Record) : Record :=
  match items result "service_tiers" with
  | some tiers => put result "service_tiers" (.arr (tiers.filter (hasWitness models (stringEfforts result))))
  | none => result

def clampDefaultTier (result : Record) : Record :=
  match Record.text result "default_service_tier" with
  | some tier =>
    if tier ≠ "default" ∧ tier ≠ "auto" ∧ supportsCatalogSettings result none (some tier) = false then
      put result "default_service_tier" (.str "default")
    else result
  | none => result

def contextLimits : List String := ["context_window","max_context_window","auto_compact_token_limit"]

def clampCatalogContext (a b : Record) : Record :=
  contextLimits.foldl (fun result field =>
    match Record.number a field,Record.number b field with
    | some x,some y => put result field (.num (min x y))
    | _,_ => remove result field) a

/-- The first record with the levels and the tiers of all records. -/
def withGathered (first : Record) (rest : List Record) : Record :=
  withOptions (withOptions first "supported_reasoning_levels" (gatherOptions "supported_reasoning_levels" effortKey (first :: rest)))
    "service_tiers" (gatherOptions "service_tiers" tierKey (first :: rest))

/-- Aggregate complete source records so advertised controls never invent a pair. -/
def mergeCatalogModels (first : Record) (rest : List Record) : Record :=
  rest.foldl clampCatalogContext (clampDefaultTier (keepWitnessed (first :: rest) (withGathered first rest)))

/-- Two-source convenience; multi-account callers must retain all original records. -/
def mergeCatalogModel (a b : Record) : Record := mergeCatalogModels a [b]

def kindLabel (kind : ModelRouteKind) : String :=
  match kind with
  | .oauth => ""
  | .api => "API · "
  | .zdr => "ZDR · "
  | .psp => "PSP · "

def routeSlug (kind : ModelRouteKind) (slug : String) : String := String.ofList (routePrefix kind ++ slug.toList)

def wellFormedTiers (model : RouteModel) : Record :=
  match items model.fields "service_tiers" with
  | some _ => put model.fields "service_tiers" (.arr (modelServiceTiers model.fields))
  | none => model.fields

def isProgramName (text : String) : Bool :=
  match text.toList with
  | [] => false
  | c :: rest => c.isAlphanum && rest.all isTierChar && decide (rest.length ≤ 79)

/-- The access programs of two records, each category's values once. -/
def mergePrograms (sources : List Record) : OrderedMap String (List String) :=
  (sources.flatMap (fun fields => (Record.record fields "available_access_programs").getD [])).foldl (fun programs entry =>
    match entry.2 with
    | .arr values =>
      if isProgramName entry.1 then
        let named := (values.filterMap Json.asText).filter isProgramName
        programs.put entry.1 (named.foldl (fun merged value => if merged.contains value then merged else merged ++ [value])
          ((programs.find entry.1).getD []))
      else programs
    | _ => programs) []

def withPrograms (entry model : Record) : Record :=
  let programs := mergePrograms [entry,model]
  if programs.isEmpty then entry
  else put entry "available_access_programs" (.obj (programs.map (fun program => (program.1,Json.arr (program.2.map Json.str)))))

/-- The models of a union under their aliases and the records each was made of. -/
structure UnionState where
  models : OrderedMap String RouteModel := []
  sources : OrderedMap String (List Record) := []

def firstEntry (catalog : RouteCatalog) (model : RouteModel) : RouteModel :=
  match catalog.kind with
  | .oauth => model
  | kind =>
    { slug := routeSlug kind model.slug
      fields := put model.fields "display_name" (.str (kindLabel kind ++ (Record.text model.fields "display_name").getD model.slug)) }

def unionStep (state : UnionState) (source : RouteCatalog × RouteModel) : UnionState :=
  let slug := routeSlug source.1.kind source.2.slug
  let entry := match state.models.find slug with
    | some existing => { existing with fields := mergeCatalogModel existing.fields source.2.fields }
    | none => firstEntry source.1 source.2
  { models := state.models.put slug { entry with fields := withPrograms entry.fields source.2.fields }
    sources := state.sources.put slug ((state.sources.find slug).getD [] ++ [wellFormedTiers source.2]) }

/-- The visible models with their catalogs, by the priority of these. -/
def visibleSources (catalogs : List RouteCatalog) : List (RouteCatalog × RouteModel) :=
  (catalogs.mergeSort (fun a b => decide (a.priority ≤ b.priority))).flatMap (fun catalog =>
    (catalog.models.filter (isVisible catalog)).map (fun model => (catalog,model)))

def advertisedTier (tier : Json) : Json :=
  match tier with
  | .obj fields => .obj (assign fields "id" ((Record.text fields "id").map (fun id =>
      Json.str (if canonicalServiceTier id = "fast" then "priority" else id))))
  | tier => tier

/-- The settings of all sources together, in the place of the merged ones. -/
def settleEntry (entry : RouteModel) (group : List Record) : RouteModel :=
  match group with
  | [] => entry
  | first :: rest =>
    let merged := mergeCatalogModels first rest
    let levels := assign entry.fields "supported_reasoning_levels" (find merged "supported_reasoning_levels")
    let speed := match find merged "default_service_tier" with
      | some tier => put levels "default_service_tier" (if tier = .str "fast" then .str "priority" else tier)
      | none => levels
    { entry with fields := match items merged "service_tiers" with
      | some _ => put speed "service_tiers" (.arr ((modelServiceTiers merged).map advertisedTier))
      | none => speed }

def buildVisibleModelUnion (catalogs : List RouteCatalog) : List RouteModel :=
  let state := (visibleSources catalogs).foldl unionStep {}
  state.models.map (fun entry => settleEntry entry.2 ((state.sources.find entry.1).getD []))

end CodexMultiAuth.RoutePolicy
