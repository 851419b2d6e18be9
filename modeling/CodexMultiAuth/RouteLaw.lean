import CodexMultiAuth.RouteMerge

/-!
The models that a client is shown against the aliases that are served.
-/
namespace CodexMultiAuth.RoutePolicy

open List OrderedMap

theorem splitKind_spelled (kind : ModelRouteKind) {slug : List Char} (plain : isReserved slug = false) :
    splitKind (routePrefix kind ++ slug) = (kind,slug) := by
  cases kind with
  | oauth =>
    simp only [isReserved,Bool.or_eq_false_iff] at plain
    obtain ⟨⟨⟨api,zdr⟩,psp⟩,-⟩ := plain
    show splitKind slug = (.oauth,slug)
    rw [splitKind,if_neg (by simp [api]),if_neg (by simp [zdr]),if_neg (by simp [psp])]
  | api => rfl
  | zdr => rfl
  | psp => rfl

theorem splitSpeed_plain {slug : List Char} (plain : isReserved slug = false) : splitSpeed slug = .ok (none,slug) := by
  simp only [isReserved,Bool.or_eq_false_iff] at plain
  rw [splitSpeed,if_neg (by simp [plain.2])]

theorem toList_routeSlug (kind : ModelRouteKind) (slug : String) : (routeSlug kind slug).toList = routePrefix kind ++ slug.toList := by
  simp [routeSlug]

theorem routeSlug_oauth (slug : String) : routeSlug .oauth slug = slug := by
  simp [routeSlug,routePrefix]

/-- A slug that fits an alias of a kind: no control or space characters, and no
    more than 256 characters with the prefix. -/
structure RouteName (kind : ModelRouteKind) (slug : String) : Prop where
  legal : slug.toList.any isControlOrSpace = false
  length : utf16Length (routePrefix kind ++ slug.toList) ≤ 256

theorem parseModelRoute_routeSlug {kind : ModelRouteKind} {slug : String} (name : RouteName kind slug) (filled : slug ≠ "")
    (plain : isReserved slug.toList = false) : parseModelRoute (routeSlug kind slug) = .ok ⟨kind,slug,none⟩ := by
  have some_char : slug.toList ≠ [] := by simpa using filled
  have legal : (routePrefix kind ++ slug.toList).any isControlOrSpace = false := by
    rw [any_append,name.legal,Bool.or_false]
    cases kind <;> decide
  have length := name.length
  unfold parseModelRoute
  rw [toList_routeSlug,if_neg (by simp only [legal,append_eq_nil_iff]; rintro (blank | long | control)
                                  · exact some_char blank.2
                                  · omega
                                  · cases control)]
  simp [splitKind_spelled kind plain,splitSpeed_plain plain,some_char,plain]

theorem routeSlug_of_parseModelRoute {alias_ : String} {parsed : ParsedRoute} (read : parseModelRoute alias_ = .ok parsed)
    (unhurried : parsed.serviceTier = none) : routeSlug parsed.kind parsed.upstreamModel = alias_ := by
  have split : ∀ text : List Char, routePrefix (splitKind text).1 ++ (splitKind text).2 = text := by
    intro text
    unfold splitKind
    split_ifs with api zdr psp
    · obtain ⟨rest,rfl⟩ := isPrefixOf_iff_prefix.mp api
      rfl
    · obtain ⟨rest,rfl⟩ := isPrefixOf_iff_prefix.mp zdr
      rfl
    · obtain ⟨rest,rfl⟩ := isPrefixOf_iff_prefix.mp psp
      rfl
    · rfl
  unfold parseModelRoute at read
  split_ifs at read
  simp only at read
  cases speed : splitSpeed (splitKind alias_.toList).2 with
  | error error => simp [speed] at read
  | ok result =>
    obtain ⟨tier,rest⟩ := result
    simp only [speed] at read
    split_ifs at read
    cases Except.ok.inj read
    simp only at unhurried
    subst unhurried
    have same : rest = (splitKind alias_.toList).2 := by
      unfold splitSpeed at speed
      split_ifs at speed
      · simp only at speed
        split at speed
        · split_ifs at speed
          cases speed
        · cases speed
      · cases speed
        rfl
    rw [routeSlug,same,String.toList_ofList,split,String.ofList_toList]

/-- An alias without a speed has one reading, and is the slug of what it reads as. -/
theorem parseModelRoute_plain_iff {alias_ : String} {kind : ModelRouteKind} {slug : String} :
    parseModelRoute alias_ = .ok ⟨kind,slug,none⟩ ↔
      alias_ = routeSlug kind slug ∧ RouteName kind slug ∧ slug ≠ "" ∧ isReserved slug.toList = false := by
  constructor
  · intro read
    obtain rfl := routeSlug_of_parseModelRoute read rfl
    refine ⟨rfl,?_⟩
    unfold parseModelRoute at read
    rw [toList_routeSlug] at read
    split at read
    · cases read
    · next fits =>
      simp only [not_or,not_lt,Bool.not_eq_true,any_append,Bool.or_eq_false_iff] at fits
      dsimp only at read
      split at read
      · cases read
      · next rest _ =>
        split at read
        · cases read
        · next named =>
          obtain ⟨-,rfl,-⟩ := ParsedRoute.mk.inj (Except.ok.inj read)
          rw [String.toList_ofList] at fits ⊢
          rw [not_or,Bool.not_eq_true] at named
          exact ⟨⟨by rw [String.toList_ofList]; exact fits.2.2.2,by rw [String.toList_ofList]; exact fits.2.1⟩,by simpa using named.1,named.2⟩
  · rintro ⟨rfl,name,filled,plain⟩
    exact parseModelRoute_routeSlug name filled plain

/-! ### The union -/

def sourceSlug (source : RouteCatalog × RouteModel) : String := routeSlug source.1.kind source.2.slug

variable {catalogs : List RouteCatalog} {source : RouteCatalog × RouteModel}

theorem mem_visibleSources :
    source ∈ visibleSources catalogs ↔ source.1 ∈ catalogs ∧ source.2 ∈ source.1.models ∧ isVisible source.1 source.2 = true := by
  obtain ⟨catalog,model⟩ := source
  simp only [visibleSources,mem_flatMap,mem_mergeSort,mem_map,mem_filter,Prod.mk.injEq]
  constructor
  · rintro ⟨other,member,another,⟨inside,shown⟩,rfl,rfl⟩
    exact ⟨member,inside,shown⟩
  · rintro ⟨member,inside,shown⟩
    exact ⟨catalog,member,model,⟨inside,shown⟩,rfl,rfl⟩

/-- The union while it is built: an entry for each alias met, with the records of its sources. -/
structure UnionInv (done : List (RouteCatalog × RouteModel)) (state : UnionState) : Prop where
  distinct : state.models.keys.Nodup
  met : ∀ slug, (state.models.find slug).isSome = true ↔ ∃ source ∈ done, sourceSlug source = slug
  named : ∀ slug entry, state.models.find slug = some entry → entry.slug = slug
  groups : ∀ slug, (state.sources.find slug).getD [] = (done.filter (fun source => decide (sourceSlug source = slug))).map (fun source => wellFormedTiers source.2)

theorem firstEntry_slug (source : RouteCatalog × RouteModel) : (firstEntry source.1 source.2).slug = sourceSlug source := by
  unfold firstEntry sourceSlug
  cases source.1.kind with
  | oauth => exact (routeSlug_oauth _).symm
  | api => rfl
  | zdr => rfl
  | psp => rfl

theorem unionStep_inv {done : List (RouteCatalog × RouteModel)} {state : UnionState} (inv : UnionInv done state)
    (source : RouteCatalog × RouteModel) : UnionInv (done ++ [source]) (unionStep state source) := by
  obtain ⟨entry,models,sources,slug⟩ : ∃ entry : RouteModel,
      (unionStep state source).models = state.models.put (sourceSlug source) entry ∧
      (unionStep state source).sources = state.sources.put (sourceSlug source)
        ((state.sources.find (sourceSlug source)).getD [] ++ [wellFormedTiers source.2]) ∧ entry.slug = sourceSlug source := by
    unfold unionStep
    simp only [sourceSlug]
    cases found : state.models.find (routeSlug source.1.kind source.2.slug) with
    | none => exact ⟨_,rfl,trivial,firstEntry_slug source⟩
    | some existing => exact ⟨_,rfl,trivial,inv.named _ existing found⟩
  refine ⟨?_,fun other => ?_,fun other another found => ?_,fun other => ?_⟩
  · rw [models]
    exact nodup_put inv.distinct _ _
  · rw [models,find_put]
    by_cases same : sourceSlug source = other
    · simp [same]
    · simp [same,inv.met]
  · rw [models,find_put] at found
    split_ifs at found with same
    · cases Option.some.inj found
      exact slug.trans same
    · exact inv.named other another found
  · rw [sources,find_put]
    by_cases same : sourceSlug source = other
    · simp [same,inv.groups]
    · simp [same,inv.groups]

theorem union_inv (catalogs : List RouteCatalog) : UnionInv (visibleSources catalogs) ((visibleSources catalogs).foldl unionStep {}) := by
  have run : ∀ (rest done : List (RouteCatalog × RouteModel)) (state : UnionState), UnionInv done state →
      UnionInv (done ++ rest) (rest.foldl unionStep state) := by
    intro rest
    induction rest with
    | nil => intro done state inv; simpa using inv
    | cons source rest ih =>
      intro done state inv
      have next := ih (done ++ [source]) _ (unionStep_inv inv source)
      simpa using next
  have empty : UnionInv [] {} := ⟨nodup_nil,by simp,by simp,by simp⟩
  simpa using run (visibleSources catalogs) [] {} empty

def sourcesOf (catalogs : List RouteCatalog) (slug : String) : List (RouteCatalog × RouteModel) :=
  (visibleSources catalogs).filter (fun source => decide (sourceSlug source = slug))

theorem settleEntry_slug (entry : RouteModel) (group : List Record) : (settleEntry entry group).slug = entry.slug := by
  cases group <;> rfl

theorem mem_union {entry : RouteModel} (shown : entry ∈ buildVisibleModelUnion catalogs) :
    ∃ built first rest, sourcesOf catalogs entry.slug = first :: rest ∧
      entry = settleEntry built (wellFormedTiers first.2 :: rest.map (fun source => wellFormedTiers source.2)) := by
  have inv := union_inv catalogs
  obtain ⟨⟨slug,built⟩,member,rfl⟩ := mem_map.mp shown
  have found := find_of_mem inv.distinct member
  have named := inv.named slug built found
  obtain ⟨source,visible,same⟩ := (inv.met slug).mp (by rw [found]; rfl)
  have group := inv.groups slug
  have some_source : source ∈ sourcesOf catalogs slug := mem_filter.mpr ⟨visible,by simp [same]⟩
  obtain ⟨first,rest,sources⟩ := exists_cons_of_ne_nil (ne_nil_of_mem some_source)
  refine ⟨built,first,rest,?_,?_⟩
  · rw [settleEntry_slug,named,sources]
  · have listed : (visibleSources catalogs).filter (fun source => decide (sourceSlug source = slug)) = first :: rest := sources
    rw [listed] at group
    rw [group]
    rfl

theorem union_shows (visible : source ∈ visibleSources catalogs) :
    ∃ entry ∈ buildVisibleModelUnion catalogs, entry.slug = sourceSlug source := by
  have inv := union_inv catalogs
  obtain ⟨built,found⟩ := Option.isSome_iff_exists.mp ((inv.met (sourceSlug source)).mpr ⟨source,visible,rfl⟩)
  refine ⟨_,mem_map.mpr ⟨(sourceSlug source,built),mem_of_find found,rfl⟩,?_⟩
  rw [settleEntry_slug]
  exact inv.named _ built found

def advertisedEfforts (entry : RouteModel) : List String := stringEfforts entry.fields

def advertisedTiers (entry : RouteModel) : List String := ((items entry.fields "service_tiers").getD []).filterMap (optionText "id")

def isServed (localeCompare : String → String → ℤ) (alias_ : String) (catalogs : List RouteCatalog) (settings : RouteSettings) : Prop :=
  ∃ route, resolveModelRoute localeCompare alias_ catalogs settings = .ok route ∧ route.candidates ≠ []

instance (localeCompare : String → String → ℤ) (alias_ : String) (catalogs : List RouteCatalog) (settings : RouteSettings) :
    Decidable (isServed localeCompare alias_ catalogs settings) :=
  decidable_of_iff ((resolveModelRoute localeCompare alias_ catalogs settings).toOption.any (fun route => !route.candidates.isEmpty) = true) (by
    unfold isServed
    cases resolveModelRoute localeCompare alias_ catalogs settings <;> simp [Except.toOption])

theorem isServed_of_source (localeCompare : String → String → ℤ)
    (visible : source ∈ visibleSources catalogs) (name : RouteName source.1.kind source.2.slug) (settings : RouteSettings)
    (accepts : supportsModelSettings source.2 settings.reasoningEffort settings.serviceTier = true) :
    isServed localeCompare (sourceSlug source) catalogs settings := by
  obtain ⟨inside,member,shown⟩ := mem_visibleSources.mp visible
  obtain ⟨filled,plain⟩ : source.2.slug ≠ "" ∧ isReserved source.2.slug.toList = false := by
    unfold isVisible at shown
    split_ifs at shown with hidden
    simp only [not_or] at hidden
    exact ⟨hidden.2.2.2.1,by simpa using hidden.2.2.2.2⟩
  have parsed := parseModelRoute_routeSlug name filled plain
  have serving : serves source.1.kind source.2.slug settings.reasoningEffort settings.serviceTier source.1 = true := by
    simp only [serves,decide_true,Bool.true_and,any_eq_true]
    exact ⟨source.2,member,by simp [shown,accepts]⟩
  unfold isServed resolveModelRoute
  rw [sourceSlug,parsed]
  simp only [Option.isSome_none,Bool.false_eq_true,false_and,if_false,Option.none_or]
  refine ⟨_,rfl,?_⟩
  refine ne_nil_of_mem (a := source.1) ?_
  rw [mem_mergeSort,mem_filter]
  exact ⟨inside,serving⟩

theorem source_of_isServed {localeCompare : String → String → ℤ} {settings : RouteSettings} {alias_ : String}
    (served : isServed localeCompare alias_ catalogs settings) :
    ∃ parsed source, parseModelRoute alias_ = .ok parsed ∧ source ∈ visibleSources catalogs ∧
      sourceSlug source = routeSlug parsed.kind parsed.upstreamModel := by
  obtain ⟨route,resolved,some_candidate⟩ := served
  unfold resolveModelRoute at resolved
  cases read : parseModelRoute alias_ with
  | error error => simp [read] at resolved
  | ok parsed =>
    simp only [read] at resolved
    split_ifs at resolved
    cases Except.ok.inj resolved
    obtain ⟨catalog,member⟩ := exists_mem_of_ne_nil _ some_candidate
    rw [mem_mergeSort,mem_filter] at member
    obtain ⟨inside,serving⟩ := member
    simp only [serves,Bool.and_eq_true,decide_eq_true_eq,any_eq_true] at serving
    obtain ⟨kind,model,listed,⟨slug,shown⟩,-⟩ := serving
    exact ⟨parsed,(catalog,model),rfl,mem_visibleSources.mpr ⟨inside,listed,shown⟩,by simp [sourceSlug,kind,slug]⟩

theorem items_wellFormedTiers (model : RouteModel) (field : String) :
    items (wellFormedTiers model) field =
      if field = "service_tiers" then (items model.fields "service_tiers").map (fun _ => modelServiceTiers model.fields) else items model.fields field := by
  unfold wellFormedTiers
  cases listed : items model.fields "service_tiers" with
  | none =>
    split_ifs with same
    · rw [same,listed]
      rfl
    · rfl
  | some tiers =>
    simp only [items_put]
    by_cases same : field = "service_tiers"
    · simp [same,Json.asItems]
    · rw [if_neg (Ne.symm same),if_neg same]

theorem tiers_wellFormedTiers (model : RouteModel) :
    (items (wellFormedTiers model) "service_tiers").getD [] = modelServiceTiers model.fields := by
  rw [items_wellFormedTiers,if_pos rfl]
  unfold modelServiceTiers
  cases items model.fields "service_tiers" <;> rfl

theorem isServiceTier_id {option : Json} (valid : isServiceTier option = true) :
    ∃ fields id, option = .obj fields ∧ Record.text fields "id" = some id := by
  unfold isServiceTier at valid
  split at valid
  · rename_i fields
    cases named : Record.text fields "id" with
    | none => simp [named] at valid
    | some id => exact ⟨fields,id,rfl,named⟩
  · cases valid

theorem tierKey_of_advertisedTier {option : Json} (valid : isServiceTier option = true) {tier : String}
    (shown : optionText "id" (advertisedTier option) = some tier) : tierKey option = some (canonicalServiceTier tier) := by
  obtain ⟨fields,id,rfl,named⟩ := isServiceTier_id valid
  have own : optionText "id" (.obj fields) = some id := named
  rw [tierKey,own]
  have renamed : optionText "id" (advertisedTier (.obj fields)) = some (if canonicalServiceTier id = "fast" then "priority" else id) := by
    rw [advertisedTier,named]
    simp [optionText,Json.asRecord,OrderedMap.assign,Record.text,Json.asText]
  have same := Option.some.inj (renamed.symm.trans shown)
  subst same
  by_cases fast : canonicalServiceTier id = "fast"
  · rw [if_pos fast,Option.map_some,fast]
    rfl
  · rw [if_neg fast,Option.map_some]

section
variable {catalogs : List RouteCatalog} {slug : String} {built : RouteModel} {first : RouteCatalog × RouteModel}
variable {rest : List (RouteCatalog × RouteModel)} (sources : sourcesOf catalogs slug = first :: rest)
include sources

theorem record_source {fields : Record} (member : fields ∈ wellFormedTiers first.2 :: rest.map (fun source => wellFormedTiers source.2)) :
    ∃ source ∈ sourcesOf catalogs slug, fields = wellFormedTiers source.2 := by
  rw [sources]
  rw [← map_cons (f := fun source : RouteCatalog × RouteModel => wellFormedTiers source.2)] at member
  obtain ⟨source,inside,rfl⟩ := mem_map.mp member
  exact ⟨source,inside,rfl⟩

/-- An advertised effort is one that a source lists. -/
theorem effort_source {effort : String}
    (advertised : effort ∈ advertisedEfforts (settleEntry built (wellFormedTiers first.2 :: rest.map (fun source => wellFormedTiers source.2)))) :
    ∃ source ∈ sourcesOf catalogs slug, listsEffort source.2.fields effort = true := by
  have settled : ∀ group : List Record, items (settleEntry built (wellFormedTiers first.2 :: group)).fields "supported_reasoning_levels" =
      items (mergeCatalogModels (wellFormedTiers first.2) group) "supported_reasoning_levels" := by
    intro group
    refine items_congr ?_
    simp only [settleEntry]
    repeat' split
    all_goals simp [find_put]
  rw [advertisedEfforts,stringEfforts,settled] at advertised
  obtain ⟨level,member,named⟩ := mem_filterMap.mp advertised
  obtain ⟨fields,source_record,own⟩ := mergeCatalogModels_levels _ _ level member
  obtain ⟨source,at_source,rfl⟩ := record_source sources source_record
  rw [items_wellFormedTiers,if_neg (by decide)] at own
  exact ⟨source,at_source,any_eq_true.mpr ⟨level,own,decide_eq_true named⟩⟩

/-- An advertised speed is a well-formed tier of a source, under one of its two names. -/
theorem tier_source {tier : String}
    (listed : (items first.2.fields "service_tiers").isSome = true ∨ ∃ source ∈ first :: rest, modelServiceTiers source.2.fields ≠ [])
    (advertised : tier ∈ advertisedTiers (settleEntry built (wellFormedTiers first.2 :: rest.map (fun source => wellFormedTiers source.2)))) :
    ∃ source ∈ sourcesOf catalogs slug, ∃ option ∈ modelServiceTiers source.2.fields, tierKey option = some (canonicalServiceTier tier) := by
  obtain ⟨from_records,is_list⟩ := mergeCatalogModels_tiers (wellFormedTiers first.2) (rest.map (fun source => wellFormedTiers source.2))
  have merged_list : (items (mergeCatalogModels (wellFormedTiers first.2) (rest.map (fun source => wellFormedTiers source.2))) "service_tiers").isSome =
      true := by
    refine is_list ?_
    rcases listed with own | ⟨source,member,some_tier⟩
    · refine .inl ?_
      rw [items_wellFormedTiers,if_pos rfl,Option.isSome_map]
      exact own
    · refine .inr ⟨wellFormedTiers source.2,?_,?_⟩
      · rw [← map_cons (f := fun source : RouteCatalog × RouteModel => wellFormedTiers source.2)]
        exact mem_map_of_mem member
      · obtain ⟨option,inside⟩ := exists_mem_of_ne_nil _ some_tier
        obtain ⟨fields,id,rfl,named⟩ := isServiceTier_id (mem_filter.mp inside).2
        refine ⟨_,by rw [tiers_wellFormedTiers]; exact inside,?_⟩
        have own : optionText "id" (.obj fields) = some id := named
        rw [tierKey,own]
        rfl
  obtain ⟨tiers,there⟩ := Option.isSome_iff_exists.mp merged_list
  have settled : items (settleEntry built (wellFormedTiers first.2 :: rest.map (fun source => wellFormedTiers source.2))).fields "service_tiers" =
      some ((modelServiceTiers (mergeCatalogModels (wellFormedTiers first.2) (rest.map (fun source => wellFormedTiers source.2)))).map advertisedTier) := by
    simp only [settleEntry,there,items_put,if_true,Json.asItems]
  rw [advertisedTiers,settled,Option.getD_some] at advertised
  obtain ⟨shown,inside,named⟩ := mem_filterMap.mp advertised
  obtain ⟨option,kept,rfl⟩ := mem_map.mp inside
  obtain ⟨member,valid⟩ := mem_filter.mp kept
  obtain ⟨fields,source_record,own⟩ := from_records option member
  obtain ⟨source,at_source,rfl⟩ := record_source sources source_record
  exact ⟨source,at_source,option,by rwa [tiers_wellFormedTiers] at own,tierKey_of_advertisedTier valid named⟩

end

/-- The probes of all sources that list the effort turned it down. -/
def ProbedAway (catalogs : List RouteCatalog) (slug effort : String) : Prop :=
  (∃ source ∈ sourcesOf catalogs slug, listsEffort source.2.fields effort = true) ∧
    ∀ source ∈ sourcesOf catalogs slug, listsEffort source.2.fields effort = true → probedOut source.2.fields effort = true

/-- The first source has a list of tiers, or some source a well-formed tier. -/
def ListsTiers (catalogs : List RouteCatalog) (slug : String) : Prop :=
  (∃ first ∈ (sourcesOf catalogs slug).head?, (items first.2.fields "service_tiers").isSome = true) ∨
    ∃ source ∈ sourcesOf catalogs slug, modelServiceTiers source.2.fields ≠ []

/-- Every shown model is served, alone, with each shown effort that is not probed away and with
    each shown speed; and an alias that is served is shown without the speed it names. -/
theorem shown_models_are_served (localeCompare : String → String → ℤ) (catalogs : List RouteCatalog)
    (names : ∀ catalog ∈ catalogs, ∀ model ∈ catalog.models, RouteName catalog.kind model.slug) :
    (∀ entry ∈ buildVisibleModelUnion catalogs,
      isServed localeCompare entry.slug catalogs {} ∧
      (∀ effort ∈ advertisedEfforts entry, ¬ ProbedAway catalogs entry.slug effort →
        isServed localeCompare entry.slug catalogs { reasoningEffort := some effort }) ∧
      (ListsTiers catalogs entry.slug → ∀ tier ∈ advertisedTiers entry,
        isServed localeCompare entry.slug catalogs { serviceTier := some tier })) ∧
    (∀ (alias_ : String) (settings : RouteSettings), isServed localeCompare alias_ catalogs settings →
      ∃ parsed, parseModelRoute alias_ = .ok parsed ∧
        ∃ entry ∈ buildVisibleModelUnion catalogs, entry.slug = routeSlug parsed.kind parsed.upstreamModel ∧
          (parsed.serviceTier = none → entry.slug = alias_)) := by
  have serving : ∀ {slug : String} {source : RouteCatalog × RouteModel}, source ∈ sourcesOf catalogs slug → ∀ settings : RouteSettings,
      supportsModelSettings source.2 settings.reasoningEffort settings.serviceTier = true → isServed localeCompare slug catalogs settings := by
    intro slug source member settings accepts
    obtain ⟨visible,same⟩ := mem_filter.mp member
    have there := mem_visibleSources.mp visible
    rw [← of_decide_eq_true same]
    exact isServed_of_source localeCompare visible (names _ there.1 _ there.2.1) settings accepts
  refine ⟨fun entry shown => ?_,fun alias_ settings served => ?_⟩
  · obtain ⟨built,first,rest,sources,settled⟩ := mem_union shown
    have among : first ∈ sourcesOf catalogs entry.slug := by
      rw [sources]
      exact mem_cons_self
    refine ⟨serving among {} (by simp [supportsModelSettings,supportsEffort,supportsTier]),
      fun effort advertised held => ?_,fun lists tier advertised => ?_⟩
    · rw [settled] at advertised
      obtain ⟨source,member,listed,open_⟩ : ∃ source ∈ sourcesOf catalogs entry.slug, listsEffort source.2.fields effort = true ∧
          probedOut source.2.fields effort = false := by
        by_contra away
        push Not at away
        refine held ⟨effort_source sources advertised,fun source member listed => ?_⟩
        simpa using away source member listed
      refine serving member _ ?_
      simp only [supportsModelSettings,supportsTier,Option.bind_none,Bool.and_true,supportsEffort,Option.bind_some]
      cases named : nonEmpty effort with
      | none => rfl
      | some text =>
        have same : text = effort := by
          unfold nonEmpty at named
          split_ifs at named
          exact (Option.some.inj named).symm
        subst same
        simp [open_,listed]
    · have listed : (items first.2.fields "service_tiers").isSome = true ∨ ∃ source ∈ first :: rest, modelServiceTiers source.2.fields ≠ [] := by
        rw [ListsTiers,sources] at lists
        rcases lists with ⟨head,same,own⟩ | some_tier
        · cases Option.some.inj same
          exact .inl own
        · exact .inr some_tier
      rw [settled] at advertised
      obtain ⟨source,member,option,inside,keyed⟩ := tier_source sources listed advertised
      refine serving member _ ?_
      simp only [supportsModelSettings,supportsTier,Option.bind_none,Bool.true_and,supportsEffort,Option.bind_some]
      cases named : nonEmpty tier with
      | none => rfl
      | some text =>
        have same : text = tier := by
          unfold nonEmpty at named
          split_ifs at named
          exact (Option.some.inj named).symm
        subst same
        have chosen : (modelServiceTiers source.2.fields).any (fun option =>
            decide ((optionText "id" option).map canonicalServiceTier = some (canonicalServiceTier text))) = true :=
          any_eq_true.mpr ⟨option,inside,decide_eq_true keyed⟩
        simp only [chosen,Bool.or_true]
  · obtain ⟨parsed,source,read,visible,same⟩ := source_of_isServed served
    obtain ⟨entry,member,slug⟩ := union_shows visible
    refine ⟨parsed,read,entry,member,slug.trans same,fun unhurried => ?_⟩
    rw [slug,same,routeSlug_of_parseModelRoute read unhurried]

def byLetters (a b : String) : ℤ := if a < b then -1 else if a = b then 0 else 1

def fastTier : Json := .obj [("id",.str "priority"),("name",.str "Fast"),("description",.str "Faster processing")]

def oauthCatalog (models : List RouteModel) : RouteCatalog :=
  { id := "oauth", kind := .oauth, priority := 0, enabled := true, models := models, visibleModels := none }

def probedModel (status : String) : RouteModel :=
  { slug := "gpt-5"
    fields := [("supported_reasoning_levels",.arr [.obj [("effort",.str "high")]]),("service_tiers",.arr [fastTier]),
      ("capability_probe_status",.obj [("effort:high",.str status)])] }

def namelessTierModel : RouteModel := { slug := "gpt-5", fields := [("service_tiers",.arr [.obj [("id",.str "flex"),("name",.str "Flex")]])] }

theorem verified_settings_served :
    ∃ entry ∈ buildVisibleModelUnion [oauthCatalog [probedModel "verified"]],
      isServed byLetters entry.slug [oauthCatalog [probedModel "verified"]] {} ∧
      (∀ effort ∈ advertisedEfforts entry, isServed byLetters entry.slug [oauthCatalog [probedModel "verified"]] { reasoningEffort := some effort }) ∧
      ∀ tier ∈ advertisedTiers entry, isServed byLetters entry.slug [oauthCatalog [probedModel "verified"]] { serviceTier := some tier } := by
  have names : ∀ catalog ∈ [oauthCatalog [probedModel "verified"]], ∀ model ∈ catalog.models, RouteName catalog.kind model.slug := by
    intro catalog member model inside
    cases mem_singleton.mp member
    cases mem_singleton.mp inside
    exact ⟨by decide,by decide⟩
  obtain ⟨entry,member⟩ := exists_mem_of_ne_nil (buildVisibleModelUnion [oauthCatalog [probedModel "verified"]]) (by decide +kernel)
  obtain ⟨alone,efforts,tiers⟩ := (shown_models_are_served byLetters [oauthCatalog [probedModel "verified"]] names).1 entry member
  have slugs : ∀ entry ∈ buildVisibleModelUnion [oauthCatalog [probedModel "verified"]], entry.slug = "gpt-5" ∧ advertisedEfforts entry = ["high"] := by
    decide +kernel
  have source : (oauthCatalog [probedModel "verified"],probedModel "verified") ∈ sourcesOf [oauthCatalog [probedModel "verified"]] "gpt-5" :=
    mem_filter.mpr ⟨mem_visibleSources.mpr ⟨mem_singleton.mpr rfl,mem_singleton.mpr rfl,by decide⟩,by decide⟩
  obtain ⟨slug,shown⟩ := slugs entry member
  refine ⟨entry,member,alone,fun effort advertised => efforts effort advertised ?_,tiers ?_⟩
  · rintro ⟨-,away⟩
    rw [shown,mem_singleton] at advertised
    rw [slug,advertised] at away
    exact absurd (away _ source (by decide)) (by decide)
  · rw [slug]
    exact .inr ⟨_,source,by decide⟩

/-- A probed-out effort and a tier without description are shown and not served; an
    alias with a speed is served and not shown. -/
theorem shown_not_served :
    (∃ entry ∈ buildVisibleModelUnion [oauthCatalog [probedModel "unsupported"]], "high" ∈ advertisedEfforts entry ∧
      ¬ isServed byLetters entry.slug [oauthCatalog [probedModel "unsupported"]] { reasoningEffort := some "high" }) ∧
    (∃ entry ∈ buildVisibleModelUnion [oauthCatalog [⟨"gpt-5",[]⟩,namelessTierModel]], "flex" ∈ advertisedTiers entry ∧
      ¬ isServed byLetters entry.slug [oauthCatalog [⟨"gpt-5",[]⟩,namelessTierModel]] { serviceTier := some "flex" }) ∧
    (isServed byLetters "speed/fast/gpt-5" [oauthCatalog [probedModel "verified"]] {} ∧
      ∀ entry ∈ buildVisibleModelUnion [oauthCatalog [probedModel "verified"]], entry.slug ≠ "speed/fast/gpt-5") := by
  refine ⟨?_,?_,?_,?_⟩ <;> decide +kernel

end CodexMultiAuth.RoutePolicy
