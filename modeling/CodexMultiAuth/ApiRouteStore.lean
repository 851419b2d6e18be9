import Mathlib.Data.Finset.Dedup
import CodexMultiAuth.LockedFile
import CodexMultiAuth.RoutePolicy

/-!
The store of API routes. A save of the menu replaces the routes if they are those that
the menu has read; discovery adds what it found to the models that a route is known to
have, and shows the new ones. Both go through one lock of the file.
-/
namespace CodexMultiAuth.ApiRoutes
open LockedFile (Await)

inductive RouteKind where
  | api
  | zdr
  | psp
  deriving DecidableEq

inductive Region where
  | global
  | us
  deriving DecidableEq

inductive ReasoningLevel where
  | none
  | minimal
  | low
  | medium
  | high
  | xhigh
  | max
  | ultra
  deriving DecidableEq

inductive Modality where
  | text
  | image
  deriving DecidableEq

abbrev AccessPrograms := OrderedMap String (List String)

structure ApiRouteCredential where
  /-- Of the store; an incoming one is not trusted. -/
  capabilityEpoch : Option String := none
  legacyCapabilityCache : Option Bool := none
  id : String
  label : String
  kind : RouteKind
  region : Option Region := none
  apiKey : String
  enabled : Bool
  priority : ℤ
  visibleModels : List String
  knownModels : Option (List String) := none
  probeCapabilities : Option Bool := none
  accessPrograms : Option AccessPrograms := none
  modelAccessPrograms : Option (OrderedMap String AccessPrograms) := none
  modelReasoningLevels : Option (OrderedMap String (List ReasoningLevel)) := none
  modelInputModalities : Option (OrderedMap String (List Modality)) := none
  modelProfiles : Option (OrderedMap String Record) := none
  deriving DecidableEq

/-- How long the text of a value is, and which texts the schema library takes for a UUID. -/
structure Texts where
  profileBytes : Record → ℕ
  /-- Of the store's whole text. -/
  storeBytes : List ApiRouteCredential → ℕ
  isUuid : String → Bool

def between (least most : ℕ) (text : String) : Bool :=
  decide (least ≤ RoutePolicy.utf16Length text.toList) && decide (RoutePolicy.utf16Length text.toList ≤ most)

/-- A letter or a digit, then letters, digits and some of these. -/
def isName (others : List Char) (text : String) : Bool :=
  match text.toList with
  | [] => false
  | first :: rest => first.isAlphanum && rest.all (fun c => c.isAlphanum || others.contains c)

def isModelId (text : String) : Bool := between 1 200 text && isName ['.','_',':','-'] text

def isProgramId (text : String) : Bool := between 1 80 text && isName ['.','_','-'] text

def isAccessPrograms (programs : AccessPrograms) : Bool :=
  programs.all (fun entry => isProgramId entry.1 && decide (entry.2.length ≤ 32) && entry.2.all isProgramId) && decide (programs.length ≤ 16)

/-- A record for models, of no more than so many entries. -/
def isModelRecord {α : Type} (most : ℕ) (each : α → Bool) (record : Option (OrderedMap String α)) : Bool :=
  match record with
  | none => true
  | some entries => entries.all (fun entry => isModelId entry.1 && each entry.2) && decide (entries.length ≤ most)

def isModalities (modalities : List Modality) : Bool :=
  decide (1 ≤ modalities.length) && decide (modalities.length ≤ 2) && modalities.contains .text

variable (texts : Texts)

def isModelProfile (profile : Record) : Bool := profile.all (fun entry => between 1 80 entry.1) && decide (texts.profileBytes profile ≤ 256000)

def isRoute (route : ApiRouteCredential) : Bool :=
  (route.capabilityEpoch.map texts.isUuid).getD true && between 1 80 route.id && route.id.toList.all (fun c => c.isAlphanum || c = '_' || c = '-') &&
    between 1 80 route.label && route.label.toList.all (fun c => decide (0x20 ≤ c.toNat) && decide (c.toNat ≠ 0x7f)) && between 1 1024 route.apiKey &&
    route.apiKey.toList.all (fun c => !isWhiteSpace c) && decide (0 ≤ route.priority) && decide (route.priority ≤ 9) &&
    decide (route.visibleModels.length ≤ 1000) && route.visibleModels.all isModelId &&
    (route.knownModels.map (fun known => decide (known.length ≤ 10000) && known.all isModelId)).getD true &&
    (route.accessPrograms.map isAccessPrograms).getD true && isModelRecord 1000 isAccessPrograms route.modelAccessPrograms &&
    isModelRecord 1000 (fun levels => decide (levels.length ≤ 8)) route.modelReasoningLevels && isModelRecord 1000 isModalities route.modelInputModalities &&
    isModelRecord 100 (isModelProfile texts) route.modelProfiles

def MAX_API_ROUTES : ℕ := 100

def validate (routes : List ApiRouteCredential) : Option (List ApiRouteCredential) :=
  if routes.length ≤ MAX_API_ROUTES ∧ routes.all (isRoute texts) = true ∧ (routes.map ApiRouteCredential.id).Nodup then some routes else none

inductive Request where
  | mkdir
  | randomUUID
  | writeTemp
  | unlinkTemp
  /-- Whether a failed rename is one to try again. -/
  | retryable

inductive Answer where
  | done
  | uuid (id : String)
  | retry (again : Bool)

abbrev Task (α : Type) := Await (List ApiRouteCredential) Unit Request Answer α

def apiBaseUrl (route : ApiRouteCredential) : String :=
  if route.region = some .us then "https://us.api.openai.com/v1" else "https://api.openai.com/v1"

/-- What a route may do and with which credential. Two lists that are the same when they
    are sorted without repetitions are the same set. -/
structure Policy where
  kind : RouteKind
  apiKey : String
  baseUrl : String
  enabled : Bool
  probeCapabilities : Option Bool
  accessPrograms : Option AccessPrograms
  modelAccessPrograms : Option (OrderedMap String AccessPrograms)
  modelReasoningLevels : Option (OrderedMap String (List ReasoningLevel))
  modelInputModalities : Option (OrderedMap String (List Modality))
  modelProfiles : Option (OrderedMap String Record)
  visibleModels : Option (Finset String)
  deriving DecidableEq

def policy (discoveryExpansion : Bool) (value : ApiRouteCredential) : Policy where
  kind := value.kind
  apiKey := value.apiKey
  baseUrl := apiBaseUrl value
  enabled := value.enabled
  probeCapabilities := value.probeCapabilities
  accessPrograms := value.accessPrograms
  modelAccessPrograms := value.modelAccessPrograms
  modelReasoningLevels := value.modelReasoningLevels
  modelInputModalities := value.modelInputModalities
  modelProfiles := value.modelProfiles
  visibleModels := if discoveryExpansion then none else some value.visibleModels.toFinset

def randomUUID : Task String := do
  match ← Await.ask .randomUUID with
  | .uuid id => pure id
  | _ => Await.throw

/-- The stored route of an id, if it is of the same policy. -/
def sameLifetime (discoveryExpansion : Bool) (current : List ApiRouteCredential) (route : ApiRouteCredential) : Option ApiRouteCredential :=
  (current.find? (fun value => decide (value.id = route.id))).filter (fun old => decide (policy discoveryExpansion old = policy discoveryExpansion route))

/-- Gives a route its lifetime: that of the stored one, or a new one. -/
def ownRoute (discoveryExpansion : Bool) (current : List ApiRouteCredential) (route : ApiRouteCredential) : Task ApiRouteCredential :=
  match sameLifetime discoveryExpansion current route with
  | some old =>
    match old.capabilityEpoch with
    | some epoch =>
      pure { route with capabilityEpoch := some epoch,legacyCapabilityCache := if old.legacyCapabilityCache = some true then some true else none }
    | none => do
      let epoch ← randomUUID
      pure { route with capabilityEpoch := some epoch,legacyCapabilityCache := some true }
  | none => do
    let epoch ← randomUUID
    pure { route with capabilityEpoch := some epoch,legacyCapabilityCache := none }

def ownRoutes (discoveryExpansion : Bool) (current : List ApiRouteCredential) : List ApiRouteCredential → Task (List ApiRouteCredential)
  | [] => pure []
  | route :: rest => do
    let owned ← ownRoute discoveryExpansion current route
    let others ← ownRoutes discoveryExpansion current rest
    pure (owned :: others)

/-- Renames the temporary file over the store, and again as long as it may. -/
def rename (contents : List ApiRouteCredential) : ℕ → Task Unit
  | 0 => Await.store contents
  | later + 1 => do
    match ← Await.attempt (Await.store contents) with
    | some _ => pure ()
    | none =>
      match ← Await.ask .retryable with
      | .retry true => rename contents later
      | _ => Await.throw

def fits (routes : List ApiRouteCredential) : Task Unit := if texts.storeBytes routes ≤ 1024 * 1024 then pure () else Await.throw

/-- What the menu has read is what is stored. -/
def unchanged (current : List ApiRouteCredential) (expected : Option (List ApiRouteCredential)) : Task Unit :=
  match expected with
  | none => pure ()
  | some expected => if validate texts expected = some current then pure () else Await.throw

/-- What is stored. Only a replacement may take a store that is none for empty. -/
def loadCurrent (expected : Option (List ApiRouteCredential)) : Task (List ApiRouteCredential) := do
  let file ← Await.load
  match validate texts (file.getD []) with
  | some current => pure current
  | none => if expected.isSome then Await.throw else pure []

def writeRoutes (validated : List ApiRouteCredential) (expected : Option (List ApiRouteCredential)) (discoveryExpansion : Bool)
    (current : List ApiRouteCredential) : Task (List ApiRouteCredential) := do
  unchanged texts current expected
  let owned ← ownRoutes discoveryExpansion current validated
  fits texts owned
  let _ ← Await.ask .writeTemp
  rename owned 5
  pure owned

def unlinkTemp : Task Unit := do
  let _ ← Await.ask .unlinkTemp
  pure ()

def saveApiRoutesLocked (routes : List ApiRouteCredential) (expected : Option (List ApiRouteCredential)) (discoveryExpansion : Bool) :
    Task (List ApiRouteCredential) := do
  let validated ← Await.orThrow (validate texts routes)
  fits texts validated
  let current ← loadCurrent texts expected
  let _ ← Await.ask .mkdir
  Await.ensure (writeRoutes texts validated expected discoveryExpansion current) unlinkTemp

def saveApiRoutesInternal (routes : List ApiRouteCredential) (expected : Option (List ApiRouteCredential)) (discoveryExpansion : Bool) :
    Task (List ApiRouteCredential) :=
  Await.withLock (saveApiRoutesLocked texts routes expected discoveryExpansion)

def loadApiRoutes : Task (List ApiRouteCredential) := do
  let file ← Await.load
  Await.orThrow (validate texts (file.getD []))

/-- The same credential, in the same lifetime if the route has one. -/
def isCurrent (route r : ApiRouteCredential) : Bool :=
  decide (r.id = route.id) && decide (r.apiKey = route.apiKey) && decide (r.kind = route.kind) && decide (apiBaseUrl r = apiBaseUrl route) &&
    (decide (route.capabilityEpoch = none) || decide (route.capabilityEpoch = r.capabilityEpoch))

/-- A model that starts with gpt-, in any case. -/
def isGpt (id : String) : Bool := decide ((id.toList.take 4).map Char.toLower = ['g','p','t','-'])

/-- A set in the order in which its members came. -/
def addTo (set : List String) (id : String) : List String := if set.contains id then set else set ++ [id]

structure Discovered where
  known : List String
  visible : List String

def discover (found : Discovered) (id : String) : Discovered where
  known := addTo found.known id
  visible := if !found.known.contains id && isGpt id then addTo found.visible id else found.visible

def expanded (current : ApiRouteCredential) (models : List String) : ApiRouteCredential :=
  let found := models.foldl discover ⟨(current.knownModels.getD models).foldl addTo [],current.visibleModels.foldl addTo []⟩
  { current with knownModels := some found.known,visibleModels := found.visible }

def updateApiModelDiscoverySerial (route : ApiRouteCredential) (models : List String) : Task ApiRouteCredential := do
  let routes ← loadApiRoutes texts
  match routes.find? (isCurrent route) with
  | none => pure { route with enabled := false,visibleModels := [] }
  | some current =>
    if !current.enabled then pure current
    else
      let updated := expanded current models
      if updated = current then pure updated
      else do
        let values ← saveApiRoutesInternal texts (routes.map (fun r => if r.id = current.id then updated else r)) (some routes) true
        pure ((values.find? (fun value => decide (value.id = updated.id))).getD updated)

inductive Call where
  | menu (routes expected : List ApiRouteCredential)
  | discovery (route : ApiRouteCredential) (models : List String)

def Call.program : Call → LockedFile.Program (List ApiRouteCredential) Unit Request Answer Unit
  | .menu routes expected => Await.forget (saveApiRoutesInternal texts routes (some expected) false)
  | .discovery route models => Await.forget (updateApiModelDiscoverySerial texts route models)

end CodexMultiAuth.ApiRoutes
