import Mathlib.Algebra.Order.Ring.Rat
import Mathlib.Data.List.Lex
import CodexMultiAuth.JsonStoreLaw
import CodexMultiAuth.Texts

/-!
The routing profiles of projects. A save brings profiles over those of the file, key by
key, and an update changes the store of the file; both normalize what they read and
what they are given.
-/
namespace CodexMultiAuth.RoutingProfiles
open Exclusive (Task)
open Dialogue (Program)
open JsonStore (Code Disk Request Answer Failure StoreTask Kind Mutate)

structure RoutingProfile where
  projectKey : String
  projectName : String
  identityRoot : String
  preferredTags : List String
  avoidTags : List String
  modelAllowlist : List String
  modelDenylist : List String
  accountWeightByKey : OrderedMap String ℚ
  budgetKey : Option String
  updatedAt : ℚ
  deriving DecidableEq

structure RoutingProfileStore where
  profiles : OrderedMap String RoutingProfile

def RETRYABLE_FS_CODES : List Code := [.EBUSY,.EPERM]

section
variable [Host]

def ordered (one other : String) : Bool := decide (textUnits one ≤ textUnits other)

def normalizeTokenList (value : Option Json) : List String :=
  match value.bind Json.asItems with
  | none => []
  | some items =>
    (((items.filterMap Json.asText).map (fun entry => Host.toLowerCase (trim entry))).filter (fun entry => decide (entry ≠ ""))).eraseDups.mergeSort ordered

/-- What the key of an account weight begins with. -/
def SHA256 : List Char := ['s','h','a','2','5','6',':']

def weightEntry (entry : String × Json) : Option (String × ℚ) :=
  if SHA256.isPrefixOf entry.1.toList then entry.2.asNumber.map (fun raw => (entry.1,max 0 (min 10 raw))) else none

def normalizeWeightMap (value : Option Json) : OrderedMap String ℚ :=
  match value.bind Json.asRecord with
  | none => []
  | some fields => fields.filterMap weightEntry

def trimmedText (fields : Record) (key : String) : Option String := (Record.text fields key).bind (fun text => nonEmpty (trim text))

def normalizeFields (key : String) (fields : Record) : RoutingProfile where
  projectKey := ((Record.text fields "projectKey").filter (fun projectKey => decide (projectKey = key))).getD key
  projectName := ((trimmedText fields "projectName").map (slice 80)).getD "project"
  identityRoot := (trimmedText fields "identityRoot").getD ""
  preferredTags := normalizeTokenList (OrderedMap.find fields "preferredTags")
  avoidTags := normalizeTokenList (OrderedMap.find fields "avoidTags")
  modelAllowlist := normalizeTokenList (OrderedMap.find fields "modelAllowlist")
  modelDenylist := normalizeTokenList (OrderedMap.find fields "modelDenylist")
  accountWeightByKey := normalizeWeightMap (OrderedMap.find fields "accountWeightByKey")
  budgetKey := (trimmedText fields "budgetKey").map (slice 80)
  updatedAt := (Record.number fields "updatedAt").getD 0

def normalizeProfile (key : String) (value : Json) : Option RoutingProfile := value.asRecord.map (normalizeFields key)

def emptyStore : RoutingProfileStore := ⟨[]⟩

def normalizeEntry (entry : String × Json) : Option (String × RoutingProfile) := (normalizeProfile entry.1 entry.2).map (fun profile => (entry.1,profile))

def normalizeStore (value : Json) : RoutingProfileStore :=
  match value.asRecord with
  | none => emptyStore
  | some fields =>
    if Record.number fields "version" = some 1 then
      match (OrderedMap.find fields "profiles").bind Json.asRecord with
      | some profiles => ⟨profiles.filterMap normalizeEntry⟩
      | none => emptyStore
    else emptyStore

end

def textsJson (texts : List String) : Json := .arr (texts.map Json.str)

def weightsJson (weights : OrderedMap String ℚ) : Json := .obj (weights.map (fun entry => (entry.1,.num entry.2)))

def RoutingProfile.fields (profile : RoutingProfile) : Record :=
  [("projectKey",.str profile.projectKey),("projectName",.str profile.projectName),("identityRoot",.str profile.identityRoot),
    ("preferredTags",textsJson profile.preferredTags),("avoidTags",textsJson profile.avoidTags),
    ("modelAllowlist",textsJson profile.modelAllowlist),("modelDenylist",textsJson profile.modelDenylist),
    ("accountWeightByKey",weightsJson profile.accountWeightByKey),("budgetKey",(profile.budgetKey.map Json.str).getD .null),
    ("updatedAt",.num profile.updatedAt)]

def RoutingProfileStore.toJson (store : RoutingProfileStore) : Json :=
  .obj [("version",.num 1),("profiles",.obj (store.profiles.map (fun entry => (entry.1,.obj entry.2.fields))))]

def stampUpdatedAt (now : ℚ) (prior : Option ℚ) : ℚ :=
  match prior with
  | some prior => if now < prior then prior + 1 else now
  | none => now

/-- The profiles with one brought over them, and that one as it is then. -/
def mergeProfile (baseline : Option RoutingProfileStore) (merged : OrderedMap String RoutingProfile) (entry : String × RoutingProfile) :
    OrderedMap String RoutingProfile × (String × RoutingProfile) :=
  let existing := OrderedMap.find merged entry.1
  match baseline with
  | none =>
    if (existing.map (fun existing => decide (existing.updatedAt ≤ entry.2.updatedAt))).getD true then (OrderedMap.put merged entry.1 entry.2,entry)
    else (merged,entry)
  | some baseline =>
    if OrderedMap.find baseline.profiles entry.1 = some entry.2 then (merged,entry)
    else
      let stamped := { entry.2 with updatedAt := stampUpdatedAt entry.2.updatedAt (existing.map RoutingProfile.updatedAt) }
      (OrderedMap.put merged entry.1 stamped,(entry.1,stamped))

/-- The merged profiles, and those that were brought, as they are then. -/
def mergeProfiles (baseline : Option RoutingProfileStore) :
    OrderedMap String RoutingProfile → List (String × RoutingProfile) → OrderedMap String RoutingProfile × List (String × RoutingProfile)
  | merged,[] => (merged,[])
  | merged,entry :: rest =>
    let next := mergeProfile baseline merged entry
    let final := mergeProfiles baseline next.1 rest
    (final.1,next.2 :: final.2)

def writeProfiles (payload : Json) (expectedMtimeMs : Option ℕ) : StoreTask Unit := do
  let answer ← Task.ask .mkdir
  JsonStore.orThrow answer
  JsonStore.writeJsonStoreFileAtomicWithRetry payload expectedMtimeMs

section
variable [Host] {T : Type}

def profileKind : Kind RoutingProfileStore := ⟨emptyStore,normalizeStore,RETRYABLE_FS_CODES⟩

abbrev Change (T : Type) := Mutate RoutingProfileStore (List (String × RoutingProfile)) (Option T)

/-- What is brought is kept, as it is then, for the next attempt. -/
def saveRoutingProfileStore (baseline : Option RoutingProfileStore) : Change T := fun incoming current =>
  let merged := mergeProfiles baseline current.profiles incoming
  (merged.2,none,some (RoutingProfileStore.toJson ⟨merged.1⟩))

/-- The result, and whether the store has changed. -/
def updateRoutingProfileStore (mutate : RoutingProfileStore → RoutingProfileStore × T × Bool) : Change T := fun carry store =>
  let mutated := mutate store
  (carry,some mutated.2.1,if mutated.2.2 then some (normalizeStore mutated.1.toJson).toJson else none)

inductive Operation (T : Type) where
  /-- Saves the store that a caller brings, over what it began from. -/
  | save (store : Json) (baseline : Option Json)
  | update (mutate : RoutingProfileStore → RoutingProfileStore × T × Bool)

def Operation.program : Operation T → Program Answer (Except Failure (Option T))
  | .save store baseline =>
    (JsonStore.withJsonStoreCasRetry profileKind writeProfiles (saveRoutingProfileStore (baseline.map normalizeStore)) (normalizeStore store).profiles).run
  | .update mutate => (JsonStore.withJsonStoreCasRetry profileKind writeProfiles (updateRoutingProfileStore mutate) []).run

end
end CodexMultiAuth.RoutingProfiles
