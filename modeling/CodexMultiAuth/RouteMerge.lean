import CodexMultiAuth.RoutePolicy

/-!
What merging catalog records keeps: every advertised effort and every advertised
speed comes from a record that offers it.
-/
namespace CodexMultiAuth.RoutePolicy

open List OrderedMap

variable {field : String}

theorem mem_gatherOptions {key : Json → Option String} {models : List Record} {entry : String × Json}
    (member : entry ∈ gatherOptions field key models) :
    key entry.2 = some entry.1 ∧ ∃ fields ∈ models, entry.2 ∈ (items fields field).getD [] := by
  have put : ∀ (options : OrderedMap String Json) (name : String) (option : Json) (entry : String × Json),
      entry ∈ options.put name option → entry ∈ options ∨ entry = (name,option) := by
    intro options name option entry
    induction options with
    | nil => simp [put]
    | cons first rest ih =>
      rw [put]
      split_ifs with same
      · intro member
        rcases mem_cons.mp member with rfl | member
        · exact .inr rfl
        · exact .inl (mem_cons_of_mem first member)
      · intro member
        rcases mem_cons.mp member with rfl | member
        · exact .inl mem_cons_self
        · exact (ih member).imp (mem_cons_of_mem first) id
  have step : ∀ (source : List Json) (options : OrderedMap String Json),
      (∀ entry ∈ options, key entry.2 = some entry.1 ∧ ∃ fields ∈ models, entry.2 ∈ (items fields field).getD []) →
      (∀ option ∈ source, ∃ fields ∈ models, option ∈ (items fields field).getD []) →
      ∀ entry ∈ source.foldl (gatherOption key) options,
        key entry.2 = some entry.1 ∧ ∃ fields ∈ models, entry.2 ∈ (items fields field).getD [] := by
    intro source
    induction source with
    | nil => exact fun options held _ => held
    | cons option source ih =>
      intro options held from_
      refine ih _ ?_ fun later member => from_ later (mem_cons_of_mem option member)
      unfold gatherOption
      cases named : key option with
      | none => exact held
      | some name =>
        intro entry member
        rcases put options name option entry member with old | rfl
        · exact held entry old
        · exact ⟨named,from_ option mem_cons_self⟩
  refine step _ [] (by simp) ?_ entry member
  intro option inside
  simpa using inside

theorem gatherOptions_empty {key : Json → Option String} {models : List Record}
    (empty : (gatherOptions field key models).isEmpty = true) :
    ∀ fields ∈ models, ∀ option ∈ (items fields field).getD [], key option = none := by
  have put : ∀ (options : OrderedMap String Json) (name : String) (option : Json), options.put name option ≠ [] := by
    intro options name option
    cases options with
    | nil => simp [put]
    | cons first rest =>
      rw [put]
      split_ifs <;> simp
  have step : ∀ (source : List Json) (options : OrderedMap String Json),
      source.foldl (gatherOption key) options = [] → options = [] ∧ ∀ option ∈ source, key option = none := by
    intro source
    induction source with
    | nil => exact fun options done => ⟨done,by simp⟩
    | cons option source ih =>
      intro options done
      obtain ⟨empty,rest⟩ := ih _ done
      unfold gatherOption at empty
      cases named : key option with
      | none =>
        rw [named] at empty
        exact ⟨empty,forall_mem_cons.mpr ⟨named,rest⟩⟩
      | some name =>
        rw [named] at empty
        exact absurd empty (put options name option)
  have all := (step _ [] (isEmpty_iff.mp empty)).2
  intro fields member option inside
  exact all option (mem_flatMap.mpr ⟨fields,member,inside⟩)

theorem items_put (fields : Record) (key field : String) (value : Json) :
    items (put fields key value) field = if key = field then value.asItems else items fields field := by
  unfold items
  rw [find_put]
  split_ifs <;> rfl

theorem items_withOptions (fields : Record) (key field : String) (options : OrderedMap String Json) :
    items (withOptions fields key options) field =
      if key = field ∧ options.isEmpty = false then some (options.map Prod.snd) else items fields field := by
  unfold withOptions
  cases options.isEmpty with
  | true => simp
  | false =>
    rw [if_neg (by simp),items_put]
    by_cases same : key = field <;> simp [same,Json.asItems]

theorem find_clampCatalogContext (other : field ∉ contextLimits) (a b : Record) :
    find (clampCatalogContext a b) field = find a field := by
  simp only [contextLimits,mem_cons,not_mem_nil,or_false,not_or] at other
  obtain ⟨window,most,compact⟩ := other
  simp only [clampCatalogContext,contextLimits,foldl_cons,foldl_nil]
  repeat' split
  all_goals simp [find_put,find_remove,Ne.symm window,Ne.symm most,Ne.symm compact]

theorem find_clamped (other : field ∉ contextLimits) (rest : List Record) (a : Record) :
    find (rest.foldl clampCatalogContext a) field = find a field := by
  induction rest generalizing a with
  | nil => rfl
  | cons b rest ih => rw [foldl_cons,ih,find_clampCatalogContext other]

theorem find_clampDefaultTier (other : field ≠ "default_service_tier") (a : Record) :
    find (clampDefaultTier a) field = find a field := by
  unfold clampDefaultTier
  split
  · split_ifs
    · rw [find_put,if_neg (Ne.symm other)]
    · rfl
  · rfl

theorem items_congr {a b : Record} (same : find a field = find b field) : items a field = items b field := by
  unfold items
  rw [same]

variable (first : Record)

theorem items_withGathered_tiers (rest : List Record) :
    items (withGathered first rest) "service_tiers" =
      if (gatherOptions "service_tiers" tierKey (first :: rest)).isEmpty = false then
        some ((gatherOptions "service_tiers" tierKey (first :: rest)).map Prod.snd)
      else items first "service_tiers" := by
  rw [withGathered,items_withOptions,items_withOptions]
  simp

theorem items_mergeCatalogModels_tiers (rest : List Record) :
    items (mergeCatalogModels first rest) "service_tiers" =
      (items (withGathered first rest) "service_tiers").map (List.filter (hasWitness (first :: rest) (stringEfforts (withGathered first rest)))) := by
  have kept : items (mergeCatalogModels first rest) "service_tiers" =
      items (keepWitnessed (first :: rest) (withGathered first rest)) "service_tiers" := by
    refine items_congr ?_
    rw [mergeCatalogModels,find_clamped (by decide),find_clampDefaultTier (by decide)]
  rw [kept,keepWitnessed]
  cases listed : items (withGathered first rest) "service_tiers" with
  | none => simp [listed]
  | some tiers => simp [items_put,Json.asItems]

/-- The tiers of a merged record come from its records; they are a list where the
    first record has one or some record has a tier with an id. -/
theorem mergeCatalogModels_tiers (rest : List Record) :
    (∀ tier ∈ (items (mergeCatalogModels first rest) "service_tiers").getD [],
      ∃ fields ∈ first :: rest, tier ∈ (items fields "service_tiers").getD []) ∧
    ((items first "service_tiers").isSome = true ∨
      (∃ fields ∈ first :: rest, ∃ tier ∈ (items fields "service_tiers").getD [], (tierKey tier).isSome = true) →
      (items (mergeCatalogModels first rest) "service_tiers").isSome = true) := by
  rw [items_mergeCatalogModels_tiers,items_withGathered_tiers]
  split_ifs with some_option
  · refine ⟨?_,fun _ => rfl⟩
    intro tier member
    simp only [Option.map_some,Option.getD_some,mem_filter,mem_map] at member
    obtain ⟨⟨entry,inside,rfl⟩,-⟩ := member
    exact (mem_gatherOptions inside).2
  · have none_keyed : ∀ fields ∈ first :: rest, ∀ option ∈ (items fields "service_tiers").getD [], tierKey option = none :=
      gatherOptions_empty (by simpa using some_option)
    refine ⟨?_,?_⟩
    · intro tier member
      cases listed : items first "service_tiers" with
      | none => simp [listed] at member
      | some tiers =>
        simp only [listed,Option.map_some,Option.getD_some,mem_filter] at member
        exact ⟨first,mem_cons_self,by simpa [listed] using member.1⟩
    · rintro (listed | ⟨fields,source,tier,inside,keyed⟩)
      · simpa using listed
      · rw [none_keyed fields source tier inside] at keyed
        cases keyed

theorem mergeCatalogModels_levels (rest : List Record) :
    ∀ level ∈ (items (mergeCatalogModels first rest) "supported_reasoning_levels").getD [],
      ∃ fields ∈ first :: rest, level ∈ (items fields "supported_reasoning_levels").getD [] := by
  have kept : items (mergeCatalogModels first rest) "supported_reasoning_levels" = items (withGathered first rest) "supported_reasoning_levels" := by
    refine items_congr ?_
    rw [mergeCatalogModels,find_clamped (by decide),find_clampDefaultTier (by decide),keepWitnessed]
    split
    · rw [find_put,if_neg (by decide)]
    · rfl
  intro level member
  rw [kept,withGathered,items_withOptions,items_withOptions] at member
  simp only [String.reduceEq,false_and,if_false,true_and] at member
  split_ifs at member
  · obtain ⟨entry,inside,rfl⟩ := mem_map.mp member
    exact (mem_gatherOptions inside).2
  · exact ⟨first,mem_cons_self,member⟩

end CodexMultiAuth.RoutePolicy
