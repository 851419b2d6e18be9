import CodexMultiAuth.RoutingProfiles

/-!
Profile stores under any run of saves and updates. A profile that has been read once and
written reads the same ever after.
-/
namespace CodexMultiAuth.RoutingProfiles
open List OrderedMap OrderedMap
open Exclusive (Task safe safe_mono)
open Dialogue (Program)
open JsonStore (Code Disk Request Answer Failure StoreTask Kind Mutate Input)
set_option linter.unusedSectionVars false

variable [Host]

def settleTexts (texts : List String) : List String :=
  ((texts.map (fun entry => Host.toLowerCase (trim entry))).filter (fun entry => decide (entry ≠ ""))).eraseDups.mergeSort ordered

def settleName (name : String) : String := ((nonEmpty (trim name)).map (slice 80)).getD "project"

def settleBudget (budgetKey : Option String) : Option String := (budgetKey.bind (fun text => nonEmpty (trim text))).map (slice 80)

def settleWeights (weights : OrderedMap String ℚ) : OrderedMap String ℚ :=
  weights.filterMap (fun entry => weightEntry (entry.1,.num entry.2))

theorem ordered_trans (one two three : String) (first : ordered one two = true) (second : ordered two three = true) : ordered one three = true :=
  decide_eq_true (le_trans (of_decide_eq_true first) (of_decide_eq_true second))

theorem ordered_total (one two : String) : (ordered one two || ordered two one) = true := by
  rcases le_total (textUnits one) (textUnits two) with less | more
  · rw [ordered,decide_eq_true less]
    exact Bool.true_or _
  · rw [ordered,ordered,decide_eq_true more]
    exact Bool.or_true _

theorem eraseDups_of_nodup {α : Type} [DecidableEq α] {l : List α} (distinct : l.Nodup) : l.eraseDups = l := by
  induction l with
  | nil => rfl
  | cons a l ih =>
    obtain ⟨new,rest⟩ := nodup_cons.mp distinct
    rw [eraseDups_cons,filter_eq_self.mpr ?_,ih rest]
    intro b member
    rw [Bool.not_eq_true',beq_eq_false_iff_ne]
    rintro rfl
    exact new member

theorem settleTexts_idem [LawfulHost] (texts : List String) : settleTexts (settleTexts texts) = settleTexts texts := by
  have settled : ∀ entry ∈ settleTexts texts, Host.toLowerCase (trim entry) = entry ∧ entry ≠ "" := by
    intro entry member
    rw [settleTexts,mem_mergeSort,mem_eraseDups,mem_filter,mem_map] at member
    obtain ⟨⟨text,_,rfl⟩,some⟩ := member
    rw [LawfulHost.trim_toLowerCase,LawfulHost.toLowerCase_idem]
    exact ⟨rfl,of_decide_eq_true some⟩
  have distinct : (settleTexts texts).Nodup := nodup_mergeSort.mpr (nodup_eraseDups _)
  have sorted : (settleTexts texts).Pairwise (fun one two => ordered one two = true) := pairwise_mergeSort ordered_trans ordered_total _
  have same : (settleTexts texts).map (fun entry => Host.toLowerCase (trim entry)) = settleTexts texts := by
    conv_rhs => rw [← map_id (settleTexts texts)]
    exact map_congr_left (fun entry member => (settled entry member).1)
  conv_lhs => rw [settleTexts,same]
  rw [filter_eq_self.mpr (fun entry member => decide_eq_true (settled entry member).2),eraseDups_of_nodup distinct,
    mergeSort_of_pairwise sorted]

theorem nonEmpty_of_ne {text : String} (some : text ≠ "") : nonEmpty text = Option.some text := if_neg some

theorem cut_settles {text : String} (some : trim text ≠ "") :
    trim (slice 80 (trim text)) ≠ "" ∧ slice 80 (trim (slice 80 (trim text))) = trim (slice 80 (trim text)) :=
  ⟨trim_ne_empty (slice_led (trim_led text) 80) (slice_ne_empty (by decide) some),slice_trim_slice 80 (trim_led text)⟩

theorem settleName_twice (name : String) : settleName (settleName (settleName name)) = settleName (settleName name) := by
  have project : settleName "project" = "project" := by decide
  by_cases blank : trim name = ""
  · rw [show settleName name = "project" by rw [settleName,nonEmpty,if_pos blank]; rfl,project,project]
  · obtain ⟨some,kept⟩ := cut_settles blank
    have once : settleName name = slice 80 (trim name) := by
      rw [settleName,nonEmpty_of_ne blank]
      rfl
    have twice : settleName (settleName name) = trim (slice 80 (trim name)) := by
      rw [once,settleName,nonEmpty_of_ne some]
      exact kept
    rw [twice,settleName,trim_trim,nonEmpty_of_ne some]
    exact kept

theorem settleBudget_twice (budgetKey : Option String) : settleBudget (settleBudget (settleBudget budgetKey)) = settleBudget (settleBudget budgetKey) := by
  cases budgetKey with
  | none => rfl
  | some text =>
    by_cases blank : trim text = ""
    · rw [show settleBudget (some text) = none by rw [settleBudget,Option.bind_some,nonEmpty,if_pos blank]; rfl]
      rfl
    · obtain ⟨some,kept⟩ := cut_settles blank
      have once : settleBudget (Option.some text) = Option.some (slice 80 (trim text)) := by
        rw [settleBudget,Option.bind_some,nonEmpty_of_ne blank]
        rfl
      have twice : settleBudget (settleBudget (Option.some text)) = Option.some (trim (slice 80 (trim text))) := by
        rw [once,settleBudget,Option.bind_some,nonEmpty_of_ne some,Option.map_some,kept]
      rw [twice,settleBudget,Option.bind_some,trim_trim,nonEmpty_of_ne some,Option.map_some,kept]

/-- A weight that normalization leaves. -/
def WeightSettled (entry : String × ℚ) : Prop := weightEntry (entry.1,.num entry.2) = some entry

theorem weightEntry_settles {entry : String × Json} {weight : String × ℚ} (settles : weightEntry entry = some weight) : WeightSettled weight := by
  rw [weightEntry] at settles
  split at settles
  · next marked =>
    obtain ⟨raw,_,rfl⟩ := Option.map_eq_some_iff.mp settles
    rw [WeightSettled,weightEntry,if_pos marked]
    show some (entry.1,max 0 (min 10 (max 0 (min 10 raw)))) = some (entry.1,max 0 (min 10 raw))
    have least : (0 : ℚ) ≤ max 0 (min 10 raw) := le_max_left _ _
    have most : max 0 (min 10 raw) ≤ 10 := max_le (by decide) (min_le_left _ _)
    rw [min_eq_right most,max_eq_right least]
  · cases settles

theorem settleWeights_of_settled {weights : OrderedMap String ℚ} (settled : ∀ entry ∈ weights, WeightSettled entry) : settleWeights weights = weights := by
  rw [settleWeights]
  induction weights with
  | nil => rfl
  | cons entry rest ih =>
    obtain ⟨here,later⟩ := forall_mem_cons.mp settled
    exact (filterMap_cons_some (f := fun entry : String × ℚ => weightEntry (entry.1,.num entry.2)) here).trans (congrArg (List.cons entry) (ih later))

/-! ### Reading again -/

/-- A profile as it reads again under its key. -/
def reread (key : String) (profile : RoutingProfile) : RoutingProfile := normalizeFields key profile.fields

def Settled (key : String) (profile : RoutingProfile) : Prop := reread key profile = profile

theorem normalizeTokenList_textsJson (texts : List String) : normalizeTokenList (some (textsJson texts)) = settleTexts texts := by
  have items : (texts.map Json.str).filterMap Json.asText = texts := by
    rw [filterMap_map]
    exact filterMap_some
  show ((((texts.map Json.str).filterMap Json.asText).map (fun entry => Host.toLowerCase (trim entry))).filter
    (fun entry => decide (entry ≠ ""))).eraseDups.mergeSort ordered = _
  rw [items]
  rfl

theorem normalizeWeightMap_weightsJson (weights : OrderedMap String ℚ) : normalizeWeightMap (some (weightsJson weights)) = settleWeights weights := by
  show (weights.map (fun entry => (entry.1,Json.num entry.2))).filterMap weightEntry = settleWeights weights
  rw [filterMap_map]
  rfl

theorem projectKey_fields (key : String) (fields : Record) : (normalizeFields key fields).projectKey = key := by
  show ((Record.text fields "projectKey").filter (fun projectKey => decide (projectKey = key))).getD key = key
  cases text : Record.text fields "projectKey" with
  | none => rfl
  | some projectKey =>
    rw [Option.filter_some]
    split
    · next same => exact of_decide_eq_true same
    · rfl

theorem getD_trimmed (text : String) : (nonEmpty (trim text)).getD "" = trim text := by
  by_cases blank : trim text = ""
  · rw [nonEmpty,if_pos blank,blank]
    rfl
  · rw [nonEmpty_of_ne blank]
    rfl

theorem reread_eq (key : String) (profile : RoutingProfile) : reread key profile =
    { projectKey := key
      projectName := settleName profile.projectName
      identityRoot := trim profile.identityRoot
      preferredTags := settleTexts profile.preferredTags
      avoidTags := settleTexts profile.avoidTags
      modelAllowlist := settleTexts profile.modelAllowlist
      modelDenylist := settleTexts profile.modelDenylist
      accountWeightByKey := settleWeights profile.accountWeightByKey
      budgetKey := settleBudget profile.budgetKey
      updatedAt := profile.updatedAt } := by
  have budget : Record.text profile.fields "budgetKey" = profile.budgetKey := by
    show ((profile.budgetKey.map Json.str).getD .null).asText = profile.budgetKey
    cases profile.budgetKey <;> rfl
  have parts : reread key profile =
      { projectKey := (normalizeFields key profile.fields).projectKey
        projectName := settleName profile.projectName
        identityRoot := (nonEmpty (trim profile.identityRoot)).getD ""
        preferredTags := normalizeTokenList (some (textsJson profile.preferredTags))
        avoidTags := normalizeTokenList (some (textsJson profile.avoidTags))
        modelAllowlist := normalizeTokenList (some (textsJson profile.modelAllowlist))
        modelDenylist := normalizeTokenList (some (textsJson profile.modelDenylist))
        accountWeightByKey := normalizeWeightMap (some (weightsJson profile.accountWeightByKey))
        budgetKey := settleBudget (Record.text profile.fields "budgetKey")
        updatedAt := profile.updatedAt } := rfl
  rw [parts,projectKey_fields,getD_trimmed,budget]
  simp only [normalizeTokenList_textsJson,normalizeWeightMap_weightsJson]

/-- A profile that settles when it is read again. -/
structure Tidy (key : String) (profile : RoutingProfile) : Prop where
  projectName : ∃ name, profile.projectName = settleName name
  identityRoot : ∃ text, profile.identityRoot = trim text
  preferredTags : ∃ texts, profile.preferredTags = settleTexts texts
  avoidTags : ∃ texts, profile.avoidTags = settleTexts texts
  modelAllowlist : ∃ texts, profile.modelAllowlist = settleTexts texts
  modelDenylist : ∃ texts, profile.modelDenylist = settleTexts texts
  accountWeightByKey : ∀ entry ∈ profile.accountWeightByKey, WeightSettled entry
  budgetKey : ∃ budgetKey, profile.budgetKey = settleBudget budgetKey

variable {key : String} {profile : RoutingProfile}

theorem Tidy.settles [LawfulHost] (tidy : Tidy key profile) : Settled key (reread key profile) := by
  obtain ⟨name,named⟩ := tidy.projectName
  obtain ⟨root,rooted⟩ := tidy.identityRoot
  obtain ⟨preferred,prefers⟩ := tidy.preferredTags
  obtain ⟨avoid,avoids⟩ := tidy.avoidTags
  obtain ⟨allow,allows⟩ := tidy.modelAllowlist
  obtain ⟨deny,denies⟩ := tidy.modelDenylist
  obtain ⟨budget,budgets⟩ := tidy.budgetKey
  have weights := settleWeights_of_settled tidy.accountWeightByKey
  rw [Settled,reread_eq key (reread key profile),reread_eq key profile]
  simp only [named,rooted,prefers,avoids,allows,denies,budgets,weights,settleName_twice,trim_trim,settleTexts_idem,settleBudget_twice]

theorem settleTexts_nil : settleTexts [] = [] := mergeSort_of_pairwise List.Pairwise.nil

theorem normalizeTokenList_tidy (value : Option Json) : ∃ texts, normalizeTokenList value = settleTexts texts := by
  rw [normalizeTokenList]
  cases value.bind Json.asItems with
  | none => exact ⟨[],settleTexts_nil.symm⟩
  | some items => exact ⟨items.filterMap Json.asText,rfl⟩

theorem normalizeFields_tidy (key : String) (fields : Record) : Tidy key (normalizeFields key fields) where
  projectName := by
    show ∃ name, ((trimmedText fields "projectName").map (slice 80)).getD "project" = settleName name
    rw [trimmedText]
    cases Record.text fields "projectName" with
    | none => exact ⟨"",by decide⟩
    | some text => exact ⟨text,rfl⟩
  identityRoot := by
    show ∃ text, (trimmedText fields "identityRoot").getD "" = trim text
    rw [trimmedText]
    cases Record.text fields "identityRoot" with
    | none => exact ⟨"",by decide⟩
    | some text => exact ⟨text,getD_trimmed text⟩
  preferredTags := normalizeTokenList_tidy _
  avoidTags := normalizeTokenList_tidy _
  modelAllowlist := normalizeTokenList_tidy _
  modelDenylist := normalizeTokenList_tidy _
  accountWeightByKey := by
    show ∀ entry ∈ normalizeWeightMap (find fields "accountWeightByKey"), WeightSettled entry
    rw [normalizeWeightMap]
    cases (find fields "accountWeightByKey").bind Json.asRecord with
    | none => exact forall_mem_nil _
    | some weights =>
      intro entry member
      obtain ⟨raw,_,settles⟩ := mem_filterMap.mp member
      exact weightEntry_settles settles
  budgetKey := ⟨Record.text fields "budgetKey",rfl⟩

theorem Settled.tidy (settled : Settled key profile) : Tidy key profile := by
  rw [← settled]
  exact normalizeFields_tidy key profile.fields

theorem Tidy.stamped (tidy : Tidy key profile) (updatedAt : ℚ) : Tidy key { profile with updatedAt } :=
  ⟨tidy.projectName,tidy.identityRoot,tidy.preferredTags,tidy.avoidTags,tidy.modelAllowlist,tidy.modelDenylist,tidy.accountWeightByKey,tidy.budgetKey⟩

def rereadAll (profiles : OrderedMap String RoutingProfile) : OrderedMap String RoutingProfile :=
  profiles.map (fun entry => (entry.1,reread entry.1 entry.2))

theorem normalizeStore_toJson (store : RoutingProfileStore) : normalizeStore store.toJson = ⟨rereadAll store.profiles⟩ := by
  have entries : (store.profiles.map (fun entry => (entry.1,Json.obj entry.2.fields))).filterMap normalizeEntry = rereadAll store.profiles := by
    rw [filterMap_map,show (normalizeEntry ∘ fun entry : String × RoutingProfile => (entry.1,Json.obj entry.2.fields)) =
      some ∘ fun entry : String × RoutingProfile => (entry.1,reread entry.1 entry.2) from rfl,filterMap_eq_map]
    rfl
  rw [← entries]
  rfl

theorem find_rereadAll (profiles : OrderedMap String RoutingProfile) (key : String) :
    find (rereadAll profiles) key = (find profiles key).map (reread key) := by
  induction profiles with
  | nil => rfl
  | cons entry rest ih =>
    rw [rereadAll,map_cons,find_cons,find_cons]
    split
    · next same => rw [Option.map_some,← same]
    · exact ih

def good (store : RoutingProfileStore) : Prop := ∀ entry ∈ store.profiles, Settled entry.1 entry.2

variable {store : RoutingProfileStore}

theorem good.find (holds : good store)
    (found : find store.profiles key = some profile) : reread key profile = profile :=
  holds (key,profile) (mem_of_find found)

theorem good_rereadAll [LawfulHost] {profiles : OrderedMap String RoutingProfile} (tidy : ∀ entry ∈ profiles, Tidy entry.1 entry.2) :
    good ⟨rereadAll profiles⟩ := by
  intro entry member
  obtain ⟨origin,there,rfl⟩ := mem_map.mp member
  exact (tidy origin there).settles

theorem tidy_rereadAll (profiles : OrderedMap String RoutingProfile) : ∀ entry ∈ rereadAll profiles, Tidy entry.1 entry.2 := by
  intro entry member
  obtain ⟨origin,_,rfl⟩ := mem_map.mp member
  exact normalizeFields_tidy origin.1 origin.2.fields

theorem find_written (holds : good store) {profiles : OrderedMap String RoutingProfile}
    (same : find profiles key = find store.profiles key) :
    find (rereadAll profiles) key = find store.profiles key := by
  rw [find_rereadAll,same]
  cases found : find store.profiles key with
  | none => rfl
  | some profile => rw [Option.map_some,holds.find found]

/-! ### Bringing profiles -/

/-- Whether a profile that is brought is set over that of its key. -/
def Brings (baseline : Option RoutingProfileStore) (store : RoutingProfileStore) (key : String) (profile : RoutingProfile) : Prop :=
  match baseline with
  | none => ∀ existing, find store.profiles key = some existing → existing.updatedAt ≤ profile.updatedAt
  | some baseline => find baseline.profiles key ≠ some profile

/-- What is kept of a profile that was brought: itself, or, where it was edited, under its key. -/
def Follows (baseline : Option RoutingProfileStore) (incoming : List (String × RoutingProfile)) (entry : String × RoutingProfile) : Prop :=
  ∃ origin ∈ incoming, origin.1 = entry.1 ∧
    (entry = origin ∨ ∃ edited, baseline = some edited ∧ find edited.profiles origin.1 ≠ some origin.2)

variable {baseline : Option RoutingProfileStore} {entry : String × RoutingProfile}

theorem Follows.refl {incoming : List (String × RoutingProfile)}
    (member : entry ∈ incoming) : Follows baseline incoming entry := ⟨entry,member,rfl,Or.inl rfl⟩

theorem Follows.trans {incoming carried : List (String × RoutingProfile)}
    (first : ∀ other ∈ carried, Follows baseline incoming other) (second : Follows baseline carried entry) : Follows baseline incoming entry := by
  obtain ⟨middle,member,named,kept⟩ := second
  obtain ⟨origin,there,named',kept'⟩ := first middle member
  refine ⟨origin,there,named'.trans named,?_⟩
  rcases kept with rfl | ⟨edited,given,differs⟩
  · exact kept'
  · rcases kept' with rfl | earlier
    · exact Or.inr ⟨edited,given,differs⟩
    · exact Or.inr earlier

theorem Follows.brings {incoming : List (String × RoutingProfile)}
    (follows : Follows baseline incoming entry) (brings : Brings baseline store entry.1 entry.2) :
    ∃ origin ∈ incoming, origin.1 = entry.1 ∧ Brings baseline store entry.1 origin.2 := by
  obtain ⟨origin,there,named,rfl | ⟨edited,rfl,differs⟩⟩ := follows
  · exact ⟨entry,there,rfl,brings⟩
  · refine ⟨origin,there,named,?_⟩
    rw [← named]
    exact differs

/-- A profile that is brought changes at most its key, and what is kept of it is as tidy. -/
theorem mergeProfile_spec (baseline : Option RoutingProfileStore) (merged : OrderedMap String RoutingProfile) (entry : String × RoutingProfile)
    (tidy : Tidy entry.1 entry.2) (rest : ∀ other ∈ merged, Tidy other.1 other.2) :
    (∀ other ∈ (mergeProfile baseline merged entry).1, Tidy other.1 other.2) ∧
      Follows baseline [entry] (mergeProfile baseline merged entry).2 ∧ Tidy entry.1 (mergeProfile baseline merged entry).2.2 ∧
      ∀ key, (key = entry.1 → ¬ Brings baseline ⟨merged⟩ key entry.2) →
        find (mergeProfile baseline merged entry).1 key = find merged key := by
  have put_tidy (profile : RoutingProfile) (still : Tidy entry.1 profile) : ∀ other ∈ put merged entry.1 profile, Tidy other.1 other.2 := by
    intro other member
    rcases mem_put member with old | rfl
    · exact rest other old
    · exact still
  cases baseline with
  | none =>
    rw [mergeProfile]
    split
    · next newer =>
      refine ⟨put_tidy entry.2 tidy,Follows.refl mem_cons_self,tidy,?_⟩
      intro key unchanged
      rw [find_put]
      split
      · next same =>
        refine absurd ?_ (unchanged same.symm)
        intro existing found
        rw [← same] at found
        rw [show find merged entry.1 = some existing from found] at newer
        exact of_decide_eq_true newer
      · rfl
    · exact ⟨rest,Follows.refl mem_cons_self,tidy,fun _ _ => rfl⟩
  | some baseline =>
    rw [mergeProfile]
    dsimp only
    split
    · exact ⟨rest,Follows.refl mem_cons_self,tidy,fun _ _ => rfl⟩
    · next edited =>
      refine ⟨put_tidy _ (tidy.stamped _),⟨entry,mem_cons_self,rfl,Or.inr ⟨baseline,rfl,edited⟩⟩,tidy.stamped _,?_⟩
      intro key unchanged
      rw [find_put]
      split
      · next same =>
        refine absurd ?_ (unchanged same.symm)
        rw [← same]
        exact edited
      · rfl

theorem Brings.congr {store other : RoutingProfileStore}
    (same : find store.profiles key = find other.profiles key) (brings : Brings baseline store key profile) :
    Brings baseline other key profile := by
  cases baseline with
  | none =>
    intro existing found
    exact brings existing (same.trans found)
  | some baseline => exact brings

theorem mergeProfiles_spec (baseline : Option RoutingProfileStore) (merged : OrderedMap String RoutingProfile) (incoming : List (String × RoutingProfile))
    (tidy : ∀ entry ∈ incoming, Tidy entry.1 entry.2) (rest : ∀ other ∈ merged, Tidy other.1 other.2) :
    (∀ other ∈ (mergeProfiles baseline merged incoming).1, Tidy other.1 other.2) ∧
      (∀ entry ∈ (mergeProfiles baseline merged incoming).2, Follows baseline incoming entry ∧ Tidy entry.1 entry.2) ∧
      ∀ key, (∀ entry ∈ incoming, entry.1 = key → ¬ Brings baseline ⟨merged⟩ key entry.2) →
        find (mergeProfiles baseline merged incoming).1 key = find merged key := by
  induction incoming generalizing merged with
  | nil => exact ⟨rest,forall_mem_nil _,fun _ _ => rfl⟩
  | cons entry later ih =>
    obtain ⟨here,others⟩ := forall_mem_cons.mp tidy
    obtain ⟨merges,follows,kept,leaves⟩ := mergeProfile_spec baseline merged entry here rest
    obtain ⟨tidyAfter,keptAfter,leavesAfter⟩ := ih (mergeProfile baseline merged entry).1 others merges
    refine ⟨tidyAfter,?_,?_⟩
    · rintro other member
      rcases mem_cons.mp member with rfl | among
      · obtain ⟨origin,alone,named,same⟩ := follows
        cases mem_singleton.mp alone
        refine ⟨⟨entry,mem_cons_self,named,same⟩,?_⟩
        rw [← named]
        exact kept
      · obtain ⟨⟨origin,there,same⟩,still⟩ := keptAfter other among
        exact ⟨⟨origin,mem_cons_of_mem _ there,same⟩,still⟩
    · intro key unchanged
      obtain ⟨first,following⟩ := forall_mem_cons.mp unchanged
      have same := leaves key (fun named => first named.symm)
      refine (leavesAfter key ?_).trans same
      intro other member named brings
      exact following other member named (brings.congr same)

section
variable {T : Type}

/-- Whether an operation changes what a store has for a key. -/
def Changes : Operation T → RoutingProfileStore → String → Prop
  | .save store baseline,current,key =>
    ∃ entry ∈ (normalizeStore store).profiles, entry.1 = key ∧ Brings (baseline.map normalizeStore) current key entry.2
  | .update mutate,current,key => find (mutate current).1.profiles key ≠ find current.profiles key

/-- The profiles that the operation does not change are as they were. -/
def Done (operation : Operation T) (_ : Option T) (store later : RoutingProfileStore) : Prop :=
  ∀ key, ¬ Changes operation store key → find later.profiles key = find store.profiles key

/-- Whether the operation would write nothing to an empty store. -/
def Lenient : Operation T → Prop
  | .save _ _ => False
  | .update mutate => (mutate emptyStore).2.2 = false

instance (operation : Operation T) : Decidable (Lenient operation) :=
  match operation with
  | .save _ _ => isFalse id
  | .update mutate => inferInstanceAs (Decidable ((mutate emptyStore).2.2 = false))

def Spares (keys : String → Prop) (operation : Operation T) (store : RoutingProfileStore) : Prop := ∀ key, keys key → ¬ Changes operation store key

def Same (keys : String → Prop) (store later : RoutingProfileStore) : Prop :=
  ∀ key, keys key → find later.profiles key = find store.profiles key

variable [LawfulHost] {keys : String → Prop}

theorem normalizeStore_tidy (value : Json) : ∀ entry ∈ (normalizeStore value).profiles, Tidy entry.1 entry.2 := by
  have none : ∀ entry ∈ emptyStore.profiles, Tidy entry.1 entry.2 := forall_mem_nil _
  rw [normalizeStore]
  split
  · exact none
  · split
    · split
      · next profiles _ =>
        intro entry member
        obtain ⟨raw,_,normalized⟩ := mem_filterMap.mp member
        obtain ⟨profile,normal,rfl⟩ := Option.map_eq_some_iff.mp normalized
        obtain ⟨fields,_,rfl⟩ := Option.map_eq_some_iff.mp normal
        exact normalizeFields_tidy raw.1 fields
      · exact none
    · exact none

/-- A store that was read, written and read again reads the same ever after. -/
theorem normalizeStore_settles (value : Json) :
    normalizeStore (normalizeStore (normalizeStore value).toJson).toJson = normalizeStore (normalizeStore value).toJson := by
  have holds := good_rereadAll (normalizeStore_tidy value)
  have same : rereadAll (rereadAll (normalizeStore value).profiles) = rereadAll (normalizeStore value).profiles :=
    (map_congr_left fun entry member => congrArg (Prod.mk entry.1) (holds entry member)).trans (map_id _)
  rw [normalizeStore_toJson,normalizeStore_toJson,same]

/-- A profile with a name that is cut at a space, one tag in two cases and a weight out of range. -/
def crooked : Json :=
  .obj [("version",.num 1),("profiles",.obj [("p",.obj [("projectName",.str (String.ofList (List.replicate 79 'a') ++ " b")),
    ("preferredTags",.arr [.str " B",.str "b"]),("accountWeightByKey",.obj [("sha256:0",.num 12)])])])]

omit [Host] [LawfulHost] in
theorem normalizeStore_settles_crooked :
    let read := @normalizeStore asciiHost
    read (read (read crooked).toJson).toJson = read (read crooked).toJson ∧
      (read crooked).profiles.map (fun entry => entry.2.projectName) = [String.ofList (List.replicate 79 'a') ++ " "] ∧
      (read (read crooked).toJson).profiles.map (fun entry => (entry.2.projectName,entry.2.preferredTags,entry.2.accountWeightByKey)) =
        [(String.ofList (List.replicate 79 'a'),["b"],[("sha256:0",10)])] :=
  ⟨@normalizeStore_settles asciiHost asciiHost_lawful crooked,by decide +kernel,by decide +kernel⟩

theorem save_mutates (store : Json) (baseline : Option Json) :
    JsonStore.Mutates profileKind False (Spares keys (Operation.save store baseline : Operation T)) good (Same keys)
      (fun carry => ∀ entry ∈ carry, Follows (baseline.map normalizeStore) (normalizeStore store).profiles entry ∧ Tidy entry.1 entry.2)
      (Done (Operation.save store baseline : Operation T)) (saveRoutingProfileStore (baseline.map normalizeStore)) where
  carries carry current fits here := by
    have spec := mergeProfiles_spec (baseline.map normalizeStore) current.profiles carry (fun entry member => (fits entry member).2)
      (fun entry member => (here entry member).tidy)
    intro entry member
    obtain ⟨follows,tidy⟩ := spec.2.1 entry member
    exact ⟨Follows.trans (fun other among => (fits other among).1) follows,tidy⟩
  keeps _ _ _ _ _ none := by cases none
  writes carry current payload fits here spares some := by
    have spec := mergeProfiles_spec (baseline.map normalizeStore) current.profiles carry (fun entry member => (fits entry member).2)
      (fun entry member => (here entry member).tidy)
    have leaves (key : String) (unchanged : ¬ Changes (Operation.save store baseline : Operation T) current key) :
        find (rereadAll (mergeProfiles (baseline.map normalizeStore) current.profiles carry).1) key = find current.profiles key := by
      refine find_written here (spec.2.2 key ?_)
      rintro entry member rfl brings
      exact unchanged ((fits entry member).1.brings brings)
    cases some
    show good (normalizeStore _) ∧ Same keys current (normalizeStore _) ∧ Done _ _ current (normalizeStore _)
    rw [normalizeStore_toJson]
    exact ⟨good_rereadAll spec.1,fun key among => leaves key (spares key among),leaves⟩
  misses lenient := lenient.elim

theorem update_mutates (mutate : RoutingProfileStore → RoutingProfileStore × T × Bool) :
    JsonStore.Mutates profileKind ((mutate emptyStore).2.2 = false) (Spares keys (.update mutate)) good (Same keys) (fun _ => True)
      (Done (.update mutate)) (updateRoutingProfileStore mutate) where
  carries _ _ _ _ := trivial
  keeps _ _ _ _ _ _ := fun _ _ => rfl
  writes carry current payload _ here spares some := by
    have leaves (key : String) (unchanged : ¬ Changes (.update mutate) current key) :
        find (rereadAll (rereadAll (mutate current).1.profiles)) key = find current.profiles key := by
      have same : find (mutate current).1.profiles key = find current.profiles key := not_not.mp unchanged
      exact find_written here (find_written here same)
    rw [updateRoutingProfileStore] at some
    dsimp only at some
    split at some
    · cases some
      show good (normalizeStore _) ∧ Same keys current (normalizeStore _) ∧ Done _ _ current (normalizeStore _)
      rw [normalizeStore_toJson,normalizeStore_toJson]
      exact ⟨good_rereadAll (tidy_rereadAll _),fun key among => leaves key (spares key among),leaves⟩
    · cases some
  misses clean _ _ _ _ _ := by
    refine ⟨?_,fun _ _ => rfl⟩
    show (if (mutate emptyStore).2.2 = true then _ else none) = none
    rw [if_neg (Bool.eq_false_iff.mp clean)]

/-- The file can be read by an operation that would write over it, and the operation
    changes none of the keys. -/
def Allowed (keys : String → Prop) (operation : Operation T) : Disk → Request → Input → Prop :=
  JsonStore.Careful profileKind (Lenient operation) (Spares keys operation)

theorem write_rule (lenient : Prop) (apt : RoutingProfileStore → Prop) (onward : RoutingProfileStore → RoutingProfileStore → Prop) :
    JsonStore.WriteRule profileKind lenient apt good onward writeProfiles := by
  intro payload expectedMtimeMs s here goodAfter next
  exact JsonStore.mkdir_then here (JsonStore.writeJsonStore_safe here goodAfter next expectedMtimeMs)

theorem Operation.program_safe (operation : Operation T) (s : Disk) (here : JsonStore.Kept profileKind good (Same keys) s) :
    safe JsonStore.respond (Allowed keys operation) (JsonStore.Kept profileKind good (Same keys)) operation.program
      (JsonStore.Outcome profileKind (Done operation) s) s := by
  cases operation with
  | save store baseline =>
    refine JsonStore.update_safe (save_mutates store baseline) (write_rule _ _ _) ?_ here
    exact fun entry member => ⟨Follows.refl member,normalizeStore_tidy store entry member⟩
  | update mutate => exact JsonStore.update_safe (update_mutates mutate) (write_rule _ _ _) trivial here

abbrev ProfileWorld (T : Type) : Type := Exclusive.World Answer Disk (Operation T) (Except Failure (Option T))

def storeOf (disk : Disk) : RoutingProfileStore := profileKind.stored disk

abbrev ProfileRuns (keys : String → Prop) : ProfileWorld T → ProfileWorld T → Prop :=
  Exclusive.Runs JsonStore.respond (Allowed keys) Operation.program

def startWith (file : Option JsonStore.StoreFile) : ProfileWorld T := .quiet ⟨file,none,false⟩

/-- From any state of a run on, keys that no operation changes have what they had; an
    operation that has ended has left the other keys, and everything where it failed or
    could not read the store. -/
theorem profiles_kept (keys : String → Prop) {file : Option JsonStore.StoreFile} (settled : good (storeOf ⟨file,none,false⟩)) {w w' : ProfileWorld T}
    (run : ProfileRuns keys (startWith file) w) (later : ProfileRuns keys w w') :
    (∀ key, keys key → find (storeOf w'.state).profiles key = find (storeOf w.state).profiles key) ∧
      (∀ operation began result, w'.call = some ⟨operation,began,.done (.ok result)⟩ → ∀ key, ¬ Changes operation (storeOf began) key →
        find (storeOf w'.state).profiles key = find (storeOf began).profiles key) ∧
      ∀ operation began ended, w'.call = some ⟨operation,began,.done ended⟩ → w'.state.unread = true ∨ ended.isOk = false →
        w'.state.file = began.file := by
  have start : JsonStore.Kept profileKind good (Same keys) ⟨file,none,false⟩ := by
    refine ⟨settled,?_⟩
    rintro payload ⟨⟩
  have keeps := Exclusive.Keeps.run Operation.program_safe start run
  obtain ⟨kept,goesOn⟩ := JsonStore.onward_run (fun _ _ _ => rfl) (fun _ _ _ first second key among => (second key among).trans (first key among))
    Operation.program_safe keeps later
  refine ⟨goesOn,?_,?_⟩
  · intro operation began result ended
    exact (kept.ended ended).2
  · intro operation began outcome ended unread
    have outcome_ := kept.ended ended
    cases outcome with
    | ok result => exact outcome_.1 (unread.resolve_right (fun failed => by cases failed))
    | error failure => exact outcome_

end

end CodexMultiAuth.RoutingProfiles
