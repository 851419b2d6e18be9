import CodexMultiAuth.ConfigBinding

/-!
A bound `config.toml` bound again. Nothing changes but for one text: carriage returns
and one line that is not the provider's, whose lines were joined without them.
-/
namespace CodexMultiAuth.ConfigToml
open List
set_option linter.unusedSectionVars false

theorem trimText_inside (text : Text) : trimText text <:+: text :=
  ( rdropWhile_prefix _ _).isInfix.trans (dropWhile_suffix _).isInfix

theorem readTomlTableName_inside {line : Line} {name : Text} (named : readTomlTableName line = some name) : name <:+: line := by
  have trimmed := trimText_inside line
  unfold readTomlTableName at named
  split at named
  · rename_i rest shape
    rw [shape] at trimmed
    have inner : rest.dropLast <:+: line := (( dropLast_prefix rest).isInfix.trans (suffix_cons '[' rest).isInfix).trans trimmed
    simp only at named
    split_ifs at named
    all_goals
      split at named
      · rename_i second more bracket
        have tail : second :: more <:+: line := by
          have whole := suffix_cons '[' (second :: more)
          rw [← bracket] at whole
          first
            | exact (whole.isInfix.trans ( dropLast_prefix _).isInfix).trans inner
            | exact whole.isInfix.trans inner
        exact Option.some.inj named ▸ (trimText_inside _).trans tail
      · first
          | exact Option.some.inj named ▸ ((trimText_inside _).trans ( dropLast_prefix _).isInfix).trans inner
          | exact Option.some.inj named ▸ (trimText_inside _).trans inner
  · cases named

theorem foreign_of_noProvider {line : Line} (free : ¬ PROVIDER_ID <:+: line) : readTomlTableName line ≠ some providerTable :=
  fun named => free ((suffix_append "model_providers.".toList PROVIDER_ID).isInfix.trans (readTomlTableName_inside named))

theorem foreign_of_isTable {line : Line} (plain : isTable line = false) : readTomlTableName line = none := by
  simpa [isTable] using plain

def blockHeader : Line := '[' :: providerTable ++ [']']

def blockRows (baseUrl clientApiKey : Text) : List Line := (createRuntimeRotationProviderBlock baseUrl clientApiKey).tail

variable (baseUrl clientApiKey : Text)

theorem createRuntimeRotationProviderBlock_cons :
    createRuntimeRotationProviderBlock baseUrl clientApiKey = blockHeader :: blockRows baseUrl clientApiKey := rfl

theorem providerTable_letters : providerTable = ['m','o','d','e','l','_','p','r','o','v','i','d','e','r','s','.'] ++ PROVIDER_ID := by
  have front : "model_providers.".toList = ['m','o','d','e','l','_','p','r','o','v','i','d','e','r','s','.'] := by rfl
  delta providerTable
  rewrite [front]
  exact Eq.refl _

theorem blockHeader_named : readTomlTableName blockHeader = some providerTable := by
  delta blockHeader
  rewrite [providerTable_letters,providerId_letters]
  decide

theorem blockHeader_clean : CleanLine blockHeader := by
  delta blockHeader
  rewrite [providerTable_letters,providerId_letters]
  decide

theorem isTable_of_letter {line : Line} {c : Char} (starts : (line.dropWhile isWhiteSpace).head? = some c) (letter : c ≠ '[') :
    isTable line = false := by
  by_contra table
  rw [head?_of_isTable (by simpa using table)] at starts
  exact letter (Option.some.inj starts).symm

theorem blockRows_plain :
    ∀ line ∈ blockRows baseUrl clientApiKey, CleanLine line ∧ readTomlTableName line = none := by
  intro line member
  unfold blockRows createRuntimeRotationProviderBlock at member
  simp only [cons_append,nil_append,tail_cons,mem_cons,mem_append,not_mem_nil,or_false] at member
  rcases member with rfl | rfl | rfl | member | rfl | rfl
  · exact ⟨by decide,foreign_of_isTable (isTable_of_letter (c := 'n') rfl (by decide))⟩
  · exact ⟨tomlStringLiteral_clean _ _ (by decide),foreign_of_isTable (isTable_of_letter (c := 'b') rfl (by decide))⟩
  · exact ⟨by decide,foreign_of_isTable (isTable_of_letter (c := 'r') rfl (by decide))⟩
  · split_ifs at member
    · cases member
    · cases mem_singleton.mp member
      exact ⟨tomlStringLiteral_clean _ _ (by decide),foreign_of_isTable (isTable_of_letter (c := 'e') rfl (by decide))⟩
  · exact ⟨by decide,foreign_of_isTable (isTable_of_letter (c := 'h') rfl (by decide))⟩
  · exact ⟨by decide,foreign_of_isTable (isTable_of_letter (c := 'w') rfl (by decide))⟩

theorem block_clean : ∀ line ∈ createRuntimeRotationProviderBlock baseUrl clientApiKey, CleanLine line := by
  intro line member
  rw [createRuntimeRotationProviderBlock_cons] at member
  rcases mem_cons.mp member with rfl | member
  · exact blockHeader_clean
  · exact (blockRows_plain baseUrl clientApiKey line member).1

/-- Lines, an empty line and the provider's block. -/
def boundText (ending inner : List Char) (lines : List Line) (baseUrl clientApiKey : Text) : Text :=
  joinLines inner lines ++ ending ++ ending ++ joinLines ending (createRuntimeRotationProviderBlock baseUrl clientApiKey) ++ ending

section
variable {ending inner : List Char} (isEnding : IsEnding ending) (isInner : IsEnding inner) {lines : List Line}
variable (clean : ∀ line ∈ lines, CleanLine line) (filled : lines ≠ []) (baseUrl clientApiKey : Text)
include isEnding isInner clean filled

theorem splitLines_boundText :
    splitLines (boundText ending inner lines baseUrl clientApiKey) =
      lines ++ [] :: blockHeader :: (blockRows baseUrl clientApiKey ++ [[]]) := by
  have block := block_clean baseUrl clientApiKey
  have blank : CleanLine [] := by decide
  have tail := splitLines_joinLines_append isEnding isEnding [] block (by simp [createRuntimeRotationProviderBlock_cons])
  have gap := splitLines_append blank isEnding (joinLines ending (createRuntimeRotationProviderBlock baseUrl clientApiKey) ++ ending ++ [])
  have whole := splitLines_joinLines_append isInner isEnding
    ([] ++ ending ++ (joinLines ending (createRuntimeRotationProviderBlock baseUrl clientApiKey) ++ ending ++ [])) clean filled
  rw [gap,tail] at whole
  simpa [boundText,splitLines,createRuntimeRotationProviderBlock_cons] using whole

theorem lineEnding_boundText (agrees : ending = ['\n'] → inner = ['\n']) :
    lineEnding (boundText ending inner lines baseUrl clientApiKey) = ending := by
  rcases isEnding with rfl | rfl
  · have feed := agrees rfl
    subst feed
    have flat : hasCrlf (joinLines ['\n'] lines ++ ['\n'] ++ (['\n'] ++
        (joinLines ['\n'] (createRuntimeRotationProviderBlock baseUrl clientApiKey) ++ ['\n'] ++ []))) = false := by
      have block := block_clean baseUrl clientApiKey
      rw [hasCrlf_joinLines_append_lf clean filled]
      show hasCrlf ([] ++ ['\n'] ++ _) = false
      rw [hasCrlf_append_lf (by decide),hasCrlf_joinLines_append_lf block (by simp [createRuntimeRotationProviderBlock_cons])]
      rfl
    have shape : boundText ['\n'] ['\n'] lines baseUrl clientApiKey = joinLines ['\n'] lines ++ ['\n'] ++ (['\n'] ++
        (joinLines ['\n'] (createRuntimeRotationProviderBlock baseUrl clientApiKey) ++ ['\n'] ++ [])) := by simp [boundText]
    rw [lineEnding,shape,flat]
    rfl
  · have shape : boundText ['\r','\n'] inner lines baseUrl clientApiKey = joinLines inner lines ++ ['\r','\n'] ++ (['\r','\n'] ++
        (joinLines ['\r','\n'] (createRuntimeRotationProviderBlock baseUrl clientApiKey) ++ ['\r','\n'])) := by simp [boundText]
    rw [shape,lineEnding_crlf]

theorem removeRuntimeRotationProviderBlock_boundText (agrees : ending = ['\n'] → inner = ['\n'])
    (foreign : ∀ line ∈ lines, readTomlTableName line ≠ some providerTable) :
    removeRuntimeRotationProviderBlock (boundText ending inner lines baseUrl clientApiKey) = joinLines ending (lines ++ [[]]) := by
  have above : ∀ line ∈ lines ++ [[]], readTomlTableName line ≠ some providerTable := by
    intro line member
    rcases mem_append.mp member with member | member
    · exact foreign line member
    · cases mem_singleton.mp member
      simp [readTomlTableName,trimText]
  have rows : ∀ line ∈ blockRows baseUrl clientApiKey ++ [[]], readTomlTableName line = none := by
    intro line member
    rcases mem_append.mp member with member | member
    · exact (blockRows_plain baseUrl clientApiKey line member).2
    · cases mem_singleton.mp member
      rfl
  have split : splitLines (boundText ending inner lines baseUrl clientApiKey) =
      (lines ++ [[]]) ++ blockHeader :: (blockRows baseUrl clientApiKey ++ [[]]) := by
    rw [splitLines_boundText isEnding isInner clean filled]
    simp
  rw [removeRuntimeRotationProviderBlock,lineEnding_boundText isEnding isInner clean filled baseUrl clientApiKey agrees,split,
    removeBlockLines_block above blockHeader_named rows]

end

theorem shownEnding_feed {ending : List Char} {lines : List Line} (feed : ending = ['\n']) : shownEnding ending lines = ['\n'] := by
  rw [feed]
  exact ite_self _

/-! ### The texts that are bound -/

/-- One style of line ends, and no carriage return before it or at the end. -/
def SingleLineEnding (rawConfig : Text) : Prop :=
  ∃ ending lines, IsEnding ending ∧ lines ≠ [] ∧ (∀ line ∈ lines, CleanLine line) ∧ rawConfig = joinLines ending lines

/-- A text that was never bound and assigns each root key that the binding edits at most once. -/
structure Bindable (rawConfig : Text) : Prop where
  single : SingleLineEnding rawConfig
  provider : ∀ line ∈ splitLines rawConfig, ¬ PROVIDER_ID <:+: line
  sideband : ∀ line ∈ splitLines rawConfig, isOwnRealtimeSidebandLine line = false
  modelProvider : (rootLines (splitLines rawConfig)).countP (assigns MODEL_PROVIDER) ≤ 1
  responseStorage : (rootLines (splitLines rawConfig)).countP (assigns RESPONSE_STORAGE) ≤ 1

def bodyLines (rawConfig : Text) : List Line := (splitLines rawConfig).rdropWhile (fun line => decide (line = []))

def boundBody (rawConfig baseUrl : Text) : List Line := boundLines (rootLines (bodyLines rawConfig)) (tableLines (bodyLines rawConfig)) baseUrl

section
variable {rawConfig : Text} (bindable : Bindable rawConfig)
include bindable

theorem Bindable.clean : ∀ line ∈ splitLines rawConfig, CleanLine line := by
  obtain ⟨ending,lines,isEnding,filled,clean,rfl⟩ := bindable.single
  rwa [splitLines_joinLines isEnding clean filled]

theorem Bindable.joined : joinLines (lineEnding rawConfig) (splitLines rawConfig) = rawConfig := by
  obtain ⟨ending,lines,isEnding,filled,clean,rfl⟩ := bindable.single
  rw [splitLines_joinLines isEnding clean filled]
  exact joinLines_lineEnding isEnding clean le_rfl

theorem Bindable.tidy : Tidy (bodyLines rawConfig) := rdropWhile_empty_tidy bindable.clean

theorem Bindable.strip : stripLineEnds rawConfig = joinLines (lineEnding rawConfig) (bodyLines rawConfig) := by
  conv_lhs => rw [← bindable.joined]
  exact stripLineEnds_joinLines (isEnding_lineEnding rawConfig) bindable.clean

theorem Bindable.body_subset {line : Line} (member : line ∈ bodyLines rawConfig) : line ∈ splitLines rawConfig :=
  ( rdropWhile_prefix _ _).subset member

theorem Bindable.stripped :
    stripLineEnds (removeRuntimeRotationProviderBlock rawConfig) = joinLines (lineEnding rawConfig) (bodyLines rawConfig) := by
  have foreign : ∀ line ∈ splitLines rawConfig, readTomlTableName line ≠ some providerTable :=
    fun line member => foreign_of_noProvider (bindable.provider line member)
  have kept := removeBlockLines_plain foreign []
  rw [append_nil] at kept
  rw [removeRuntimeRotationProviderBlock,kept,removeBlockLines,append_nil]
  exact stripLineEnds_joinLines (isEnding_lineEnding rawConfig) bindable.clean

theorem Bindable.parts : ∃ before after, Parts (rootLines (bodyLines rawConfig)) (tableLines (bodyLines rawConfig)) before
    ((rootLines (bodyLines rawConfig)).find? (assigns MODEL_PROVIDER)) after := parts_exist bindable.tidy

theorem Bindable.unmarked : ∀ line ∈ rootLines (bodyLines rawConfig), isOwnRealtimeSidebandLine line = false :=
  fun line member => bindable.sideband line (bindable.body_subset (( takeWhile_prefix _).subset member))

variable (baseUrl : Text)

theorem Bindable.boundBody_tidy : Tidy (boundBody rawConfig baseUrl) := by
  obtain ⟨before,after,parts⟩ := bindable.parts
  exact parts.boundLines_tidy baseUrl

theorem Bindable.boundBody_ne_nil : boundBody rawConfig baseUrl ≠ [] := by
  obtain ⟨before,after,parts⟩ := bindable.parts
  simp [boundBody,boundLines,parts.bound_shape]

theorem Bindable.foreign :
    ∀ line ∈ boundBody rawConfig baseUrl, readTomlTableName line ≠ some providerTable := by
  obtain ⟨before,after,parts⟩ := bindable.parts
  have plain : ∀ {line : Line}, isTable line = false → readTomlTableName line ≠ some providerTable := by
    intro line plain
    simp [foreign_of_isTable plain]
  intro line member
  rcases mem_append.mp member with member | member
  · rcases mem_append.mp member with member | member
    · exact plain (parts.boundRoot_isRoot line member)
    · unfold sidebandLines at member
      split_ifs at member
      · cases member
      · cases mem_singleton.mp member
        exact plain (sidebandLine_isTable baseUrl)
  · exact foreign_of_noProvider (bindable.provider line (bindable.body_subset ((dropWhile_suffix _).subset member)))

variable (baseUrl clientApiKey : Text)

theorem Bindable.rewritten :
    rewriteConfigTomlForRuntimeRotationProvider rawConfig baseUrl clientApiKey =
      boundText (lineEnding rawConfig) (shownEnding (lineEnding rawConfig) (bodyLines rawConfig))
        (boundBody rawConfig baseUrl) baseUrl clientApiKey := by
  obtain ⟨before,after,parts⟩ := bindable.parts
  have whole := rootLines_append_tableLines (bodyLines rawConfig)
  have first := parts.rewriteRoot_first (isEnding_lineEnding rawConfig) bindable.unmarked baseUrl
  rw [whole] at first
  show rewriteRoot (stripLineEnds (removeRuntimeRotationProviderBlock rawConfig)) baseUrl ++ _ ++ _ ++ _ ++ _ = _
  rw [bindable.stripped,first]
  rfl

/-- A bound text bound again: its inner ending is the one its lines show without the sideband line. -/
theorem Bindable.rewritten_again {inner : List Char} (isInner : IsEnding inner)
    (agrees : lineEnding rawConfig = ['\n'] → inner = ['\n']) :
    rewriteConfigTomlForRuntimeRotationProvider
        (boundText (lineEnding rawConfig) inner (boundBody rawConfig baseUrl)
          baseUrl clientApiKey) baseUrl clientApiKey =
      boundText (lineEnding rawConfig)
        (shownEnding (lineEnding rawConfig) (boundRoot (rootLines (bodyLines rawConfig)) ++ tableLines (bodyLines rawConfig)))
        (boundBody rawConfig baseUrl) baseUrl clientApiKey := by
  obtain ⟨before,after,parts⟩ := bindable.parts
  have isEnding := isEnding_lineEnding rawConfig
  have tidy := bindable.boundBody_tidy baseUrl
  have filled := bindable.boundBody_ne_nil baseUrl
  have ending := lineEnding_boundText isEnding isInner tidy.clean filled baseUrl clientApiKey agrees
  have without := removeRuntimeRotationProviderBlock_boundText isEnding isInner tidy.clean filled baseUrl clientApiKey agrees
    (bindable.foreign baseUrl)
  have stripped : stripLineEnds (joinLines (lineEnding rawConfig)
      (boundBody rawConfig baseUrl ++ [[]])) =
      joinLines (lineEnding rawConfig) (boundBody rawConfig baseUrl) := by
    rw [joinLines_append _ filled (by simp),joinLines_singleton,append_nil,stripLineEnds_append_ending _ isEnding,tidy.strip isEnding]
  have unmarked := parts.boundRoot_unmarked bindable.unmarked
  have dropped : (boundRoot (boundRoot (rootLines (bodyLines rawConfig)) ++ sidebandLines (boundRoot (rootLines (bodyLines rawConfig))) baseUrl)).filter
      (fun line => !isOwnRealtimeSidebandLine line) = boundRoot (rootLines (bodyLines rawConfig)) := by
    rw [parts.boundRoot_again,filter_append,filter_unmarked unmarked]
    unfold sidebandLines
    split_ifs <;> simp [sidebandLine_own]
  have again := (parts.again baseUrl).rewriteRoot_kept isEnding dropped parts.boundRoot_tidy (by simp [parts.bound_shape]) baseUrl
  show rewriteRoot (stripLineEnds (removeRuntimeRotationProviderBlock (boundText _ _ _ _ _))) baseUrl ++ lineEnding (boundText _ _ _ _ _) ++
    lineEnding (boundText _ _ _ _ _) ++ joinLines (lineEnding (boundText _ _ _ _ _)) _ ++ lineEnding (boundText _ _ _ _ _) = _
  have edited : rewriteRoot (joinLines (lineEnding rawConfig)
      (boundBody rawConfig baseUrl)) baseUrl =
      joinLines (shownEnding (lineEnding rawConfig) (boundRoot (rootLines (bodyLines rawConfig)) ++ tableLines (bodyLines rawConfig)))
        (boundBody rawConfig baseUrl) := by
    rw [boundBody,boundLines,again]
    unfold sidebandLines
    split_ifs
    · simp
    · have two : 2 ≤ (boundRoot (rootLines (bodyLines rawConfig)) ++ [createRealtimeSidebandConfigLine baseUrl] ++
          tableLines (bodyLines rawConfig)).length := by
        simp [parts.bound_shape]
        omega
      have shown : shownEnding (lineEnding rawConfig) (boundRoot (rootLines (bodyLines rawConfig)) ++
          [createRealtimeSidebandConfigLine baseUrl] ++ tableLines (bodyLines rawConfig)) = lineEnding rawConfig := if_pos two
      rw [shown]
      simp
  rw [ending,without,stripped,edited]
  rfl

/-- The text has carriage returns and one line, which is not its provider's. -/
def OneLineCrlf (rawConfig : Text) : Prop :=
  hasCrlf rawConfig = true ∧ ∃ line, bodyLines rawConfig = [line] ∧ assigns MODEL_PROVIDER line = false

theorem Bindable.two_le_boundLines :
    2 ≤ (boundBody rawConfig baseUrl).length := by
  obtain ⟨before,after,parts⟩ := bindable.parts
  unfold boundBody boundLines sidebandLines
  split_ifs with user
  · obtain ⟨line,found⟩ := Option.isSome_iff_exists.mp user
    have assigned := List.find?_some found
    have member := mem_of_find?_eq_some found
    rw [parts.bound_shape] at member ⊢
    have other : line ≠ rewrittenLine := by
      rintro rfl
      exact absurd assigned (by simp [rewrittenLine_sideband])
    simp only [mem_append,mem_cons,other,false_or] at member
    rcases member with member | member
    · have one := length_pos_of_mem member
      simp at one ⊢
      omega
    · have one := length_pos_of_mem member
      simp at one ⊢
      omega
  · simp [parts.bound_shape]
    omega

theorem Bindable.boundRoot_length :
    (boundRoot (rootLines (bodyLines rawConfig)) ++ tableLines (bodyLines rawConfig)).length =
      (bodyLines rawConfig).length +
        if ((rootLines (bodyLines rawConfig)).find? (assigns MODEL_PROVIDER)).isSome then 0 else 1 := by
  obtain ⟨before,after,parts⟩ := bindable.parts
  have whole := congrArg List.length (rootLines_append_tableLines (bodyLines rawConfig))
  have shape := congrArg List.length parts.split.shape
  have ends := parts.split.ends
  rw [parts.bound_shape]
  cases found : (rootLines (bodyLines rawConfig)).find? (assigns MODEL_PROVIDER) with
  | none => simp [found,ends found] at whole shape ⊢; omega
  | some line => simp [found] at whole shape ⊢; omega

theorem Bindable.oneLine : (∃ line, bodyLines rawConfig = [line] ∧ assigns MODEL_PROVIDER line = false) ↔
    ¬ (2 ≤ (boundRoot (rootLines (bodyLines rawConfig)) ++ tableLines (bodyLines rawConfig)).length →
      2 ≤ (bodyLines rawConfig).length) := by
  rw [bindable.boundRoot_length]
  constructor
  · rintro ⟨line,alone,unassigned⟩
    have none_found : (rootLines (bodyLines rawConfig)).find? (assigns MODEL_PROVIDER) = none := by
      refine List.find?_eq_none.mpr fun other member => ?_
      have same := ( takeWhile_prefix _).subset member
      rw [alone,mem_singleton] at same
      simp [same,unassigned]
    rw [none_found,alone]
    simp
  · intro grown
    split_ifs at grown with found
    · omega
    · obtain ⟨line,alone⟩ := length_eq_one_iff.mp (show (bodyLines rawConfig).length = 1 by omega)
      refine ⟨line,alone,?_⟩
      by_contra assigned
      rw [Bool.not_eq_false] at assigned
      refine found ?_
      have plain := isTable_of_assigns (l := 'm') rfl (by decide) assigned
      simp [alone,rootLines,plain,assigned]

theorem Bindable.rewrite_idempotent_iff :
    rewriteConfigTomlForRuntimeRotationProvider (rewriteConfigTomlForRuntimeRotationProvider rawConfig baseUrl clientApiKey) baseUrl clientApiKey =
      rewriteConfigTomlForRuntimeRotationProvider rawConfig baseUrl clientApiKey ↔ ¬ OneLineCrlf rawConfig := by
  obtain ⟨before,after,parts⟩ := bindable.parts
  have isEnding := isEnding_lineEnding rawConfig
  have two := bindable.two_le_boundLines baseUrl
  have tidy := bindable.boundBody_tidy baseUrl
  rw [bindable.rewritten,bindable.rewritten_again baseUrl clientApiKey (isEnding_shownEnding isEnding _) shownEnding_feed]
  have same : ∀ {first second : List Char}, IsEnding first → IsEnding second →
      (boundText (lineEnding rawConfig) first (boundBody rawConfig baseUrl) baseUrl
          clientApiKey =
        boundText (lineEnding rawConfig) second (boundBody rawConfig baseUrl) baseUrl
          clientApiKey ↔ first = second) := by
    intro first second isFirst isSecond
    constructor
    · intro equal
      have joined : joinLines first (boundBody rawConfig baseUrl) =
          joinLines second (boundBody rawConfig baseUrl) := by
        simpa [boundText] using equal
      have shown := congrArg lineEnding joined
      rwa [lineEnding_joinLines isFirst tidy.clean,lineEnding_joinLines isSecond tidy.clean,if_pos two,if_pos two] at shown
    · rintro rfl
      rfl
  rw [same (isEnding_shownEnding isEnding _) (isEnding_shownEnding isEnding _),OneLineCrlf,bindable.oneLine]
  have grows := bindable.boundRoot_length
  cases crlf : hasCrlf rawConfig with
  | false => simp [lineEnding,crlf,shownEnding]
  | true =>
    simp only [lineEnding,crlf,if_true,shownEnding,true_and,not_not]
    by_cases many : 2 ≤ (bodyLines rawConfig).length
    · have more : 2 ≤ (boundRoot (rootLines (bodyLines rawConfig)) ++ tableLines (bodyLines rawConfig)).length := by omega
      simp only [many,more,if_true,implies_true]
    · by_cases more : 2 ≤ (boundRoot (rootLines (bodyLines rawConfig)) ++ tableLines (bodyLines rawConfig)).length
      · simp only [many,more,if_true,if_false]
        decide
      · simp only [many,more,if_false,false_implies]

end

end CodexMultiAuth.ConfigToml
