import CodexMultiAuth.ConfigEdits

/-!
The lines of a bound `config.toml`: the root with the proxy's line and the storage
line, the sideband line where the user set none, the tables as they were, and the
provider's block behind an empty line.
-/
namespace CodexMultiAuth.ConfigToml

open List

instance (line : Line) : Decidable (CleanLine line) := inferInstanceAs (Decidable (_ ∧ _))

theorem providerId_letters : PROVIDER_ID =
    ['c','o','d','e','x','-','m','u','l','t','i','-','a','u','t','h','-','r','u','n','t','i','m','e','-','p','r','o','x','y'] := by
  rfl

theorem modelProvider_letters : MODEL_PROVIDER = ['m','o','d','e','l','_','p','r','o','v','i','d','e','r'] := by rfl

theorem responseStorage_letters : RESPONSE_STORAGE =
    ['d','i','s','a','b','l','e','_','r','e','s','p','o','n','s','e','_','s','t','o','r','a','g','e'] := by
  rfl

theorem storageLine_letters : storageLine = RESPONSE_STORAGE ++ [' ','=',' ','f','a','l','s','e'] := by
  rewrite [responseStorage_letters]
  rfl

theorem rewrittenLine_letters : rewrittenLine = MODEL_PROVIDER ++ [' ','=',' ','"'] ++ PROVIDER_ID ++ ['"'] := by
  have plain : PROVIDER_ID.flatMap escapeChar = PROVIDER_ID := by
    rewrite [providerId_letters]
    decide
  have front : "model_provider = ".toList = MODEL_PROVIDER ++ [' ','=',' '] := by
    rewrite [modelProvider_letters]
    rfl
  have unfolded : rewrittenLine = "model_provider = ".toList ++ ('"' :: PROVIDER_ID.flatMap escapeChar ++ ['"']) := by
    delta rewrittenLine tomlStringLiteral
    exact Eq.refl _
  rewrite [unfolded,plain,front]
  simp only [append_assoc,cons_append,nil_append]

theorem escapeChar_flat (c : Char) : '\n' ∉ escapeChar c := by
  by_cases low : c.toNat < 128
  · have all : ∀ n < 128, '\n' ∉ escapeChar (Char.ofNat n) := by decide
    simpa using all c.toNat low
  · have feed : c ≠ '\n' := by rintro rfl; exact low (by decide)
    unfold escapeChar
    repeat' split
    all_goals first | decide | skip
    · exact absurd (by omega) low
    · simpa using Ne.symm feed

theorem tomlStringLiteral_clean (front value : Text) (flat : '\n' ∉ front) : CleanLine (front ++ tomlStringLiteral value) := by
  refine ⟨?_,?_⟩
  swap
  · rw [tomlStringLiteral,← append_assoc,List.getLast?_concat]
    decide
  simp only [tomlStringLiteral,mem_append,mem_cons,mem_flatMap,not_or]
  refine ⟨flat,⟨by decide,?_⟩,by decide⟩
  rintro ⟨c,-,inside⟩
  exact escapeChar_flat c inside

variable (baseUrl : Text)

theorem sidebandLine_clean : CleanLine (createRealtimeSidebandConfigLine baseUrl) := by
  refine ⟨?_,?_⟩
  · have literal := (tomlStringLiteral_clean (REALTIME_SIDEBAND_KEY ++ " = ".toList) baseUrl (by decide)).1
    unfold createRealtimeSidebandConfigLine
    simp only [mem_append,not_or] at literal ⊢
    exact ⟨⟨literal,by decide⟩,by decide⟩
  · unfold createRealtimeSidebandConfigLine
    rw [List.getLast?_append_of_ne_nil _ (by decide)]
    decide

theorem rewrittenLine_clean : CleanLine rewrittenLine := by
  rewrite [rewrittenLine_letters,modelProvider_letters,providerId_letters]
  decide

theorem storageLine_clean : CleanLine storageLine := by
  rewrite [storageLine_letters,responseStorage_letters]
  decide

theorem rewrittenLine_assigns : assigns MODEL_PROVIDER rewrittenLine = true := by
  rewrite [rewrittenLine_letters,modelProvider_letters,providerId_letters]
  decide

theorem storageLine_assigns : assigns RESPONSE_STORAGE storageLine = true := by
  rewrite [storageLine_letters,responseStorage_letters]
  decide

theorem rewrittenLine_isTable : isTable rewrittenLine = false := isTable_of_assigns (l := 'm') rfl (by decide) rewrittenLine_assigns
theorem storageLine_isTable : isTable storageLine = false := isTable_of_assigns (l := 'd') rfl (by decide) storageLine_assigns

theorem rewrittenLine_storage : assigns RESPONSE_STORAGE rewrittenLine = false :=
  assigns_other (k := 'd') (l := 'm') rfl rfl (by decide) rewrittenLine_assigns

theorem rewrittenLine_disables : disablesStorage rewrittenLine = false := by
  rewrite [rewrittenLine_letters,disablesStorage,modelProvider_letters,providerId_letters,responseStorage_letters]
  decide

theorem storageLine_disables : disablesStorage storageLine = false := by
  rewrite [storageLine_letters,disablesStorage,responseStorage_letters]
  decide

theorem blank_disables : disablesStorage [] = false := by
  rewrite [disablesStorage,responseStorage_letters]
  rfl

theorem assigns_nil {key : List Char} {k : Char} (starts : key.head? = some k) : assigns key [] = false := by
  by_contra assigned
  have first := head?_of_assigns starts (by simpa using assigned)
  cases first

theorem rewrittenLine_sideband : assigns REALTIME_SIDEBAND_KEY rewrittenLine = false :=
  assigns_other (k := 'e') (l := 'm') rfl rfl (by decide) rewrittenLine_assigns

theorem rewrittenLine_own : isOwnRealtimeSidebandLine rewrittenLine = false := by
  rw [isOwnRealtimeSidebandLine,rewrittenLine_sideband,Bool.false_and]

theorem storageLine_own : isOwnRealtimeSidebandLine storageLine = false := by
  have other : assigns REALTIME_SIDEBAND_KEY storageLine = false := assigns_other (k := 'e') (l := 'd') rfl rfl (by decide) storageLine_assigns
  rw [isOwnRealtimeSidebandLine,other,Bool.false_and]

theorem rewrittenLine_runtime : isRuntimeProviderLine rewrittenLine = true := by
  rw [isRuntimeProviderLine,rewrittenLine_assigns,includesProvider,Bool.true_and]
  exact decide_eq_true ⟨MODEL_PROVIDER ++ [' ','=',' ','"'],['"'],rewrittenLine_letters.symm⟩

theorem rewrittenLine_enabled : enabledLine rewrittenLine = rewrittenLine := by rw [enabledLine,rewrittenLine_disables]; rfl

theorem storageLine_enabled : enabledLine storageLine = storageLine := by rw [enabledLine,storageLine_disables]; rfl

theorem zipWith_self (key rest : List Char) : (List.zipWith (fun a b => decide (a = b)) key (key ++ rest)).all id = true := by
  induction key with
  | nil => rfl
  | cons k key ih => simpa using ih

theorem assigns_key {key : List Char} {k : Char} (starts : key.head? = some k) (visible : isWhiteSpace k = false) {rest value : List Char}
    (equals : rest.dropWhile isWhiteSpace = '=' :: value) : assigns key (key ++ rest) = true := by
  have start : (key ++ rest).dropWhile isWhiteSpace = key ++ rest := by
    cases key with
    | nil => cases starts
    | cons l key => cases Option.some.inj starts; simp [visible]
  have long : ¬ (key ++ rest).length < key.length := by simp
  unfold assigns afterKey
  simp only [start,zipWith_self,drop_left,equals]
  simp

theorem sidebandLine_assigns : assigns REALTIME_SIDEBAND_KEY (createRealtimeSidebandConfigLine baseUrl) = true := by
  unfold createRealtimeSidebandConfigLine
  simp only [append_assoc]
  have equals : (" = ".toList ++ (tomlStringLiteral baseUrl ++ ([' '] ++ REALTIME_SIDEBAND_MARKER))).dropWhile isWhiteSpace =
      '=' :: ' ' :: (tomlStringLiteral baseUrl ++ ([' '] ++ REALTIME_SIDEBAND_MARKER)) := rfl
  exact assigns_key (k := 'e') rfl (by decide) equals

theorem sidebandLine_own : isOwnRealtimeSidebandLine (createRealtimeSidebandConfigLine baseUrl) = true := by
  have kept : (createRealtimeSidebandConfigLine baseUrl).rdropWhile isWhiteSpace = createRealtimeSidebandConfigLine baseUrl := by
    have ends : REALTIME_SIDEBAND_MARKER = REALTIME_SIDEBAND_MARKER.dropLast ++ ['d'] := by decide
    unfold createRealtimeSidebandConfigLine
    rw [ends,← append_assoc,rdropWhile_concat_neg isWhiteSpace _ 'd' (by decide)]
  rw [isOwnRealtimeSidebandLine,sidebandLine_assigns,kept,Bool.true_and]
  exact decide_eq_true (suffix_append _ _)

theorem sidebandLine_isTable : isTable (createRealtimeSidebandConfigLine baseUrl) = false :=
  isTable_of_assigns (l := 'e') rfl (by decide) (sidebandLine_assigns baseUrl)

theorem sidebandLine_enabled : enabledLine (createRealtimeSidebandConfigLine baseUrl) = createRealtimeSidebandConfigLine baseUrl := by
  refine if_neg fun disables => ?_
  have other : assigns REALTIME_SIDEBAND_KEY _ = false := assigns_of_disablesStorage (k := 'e') rfl disables (by decide)
  rw [sidebandLine_assigns] at other
  cases other

theorem assigns_enabledLine {key : List Char} {k : Char} (starts : key.head? = some k) (different : sameLetter 'd' k = false) (line : Line) :
    assigns key (enabledLine line) = assigns key line := by
  unfold enabledLine
  split_ifs with disables
  · have other : k ≠ 'd' := by rintro rfl; exact absurd different (by decide)
    have written := assigns_other starts (l := 'd') rfl (Ne.symm other) storageLine_assigns
    rw [assigns_of_disablesStorage starts disables different,written]
  · rfl

theorem enabledLine_own (line : Line) : isOwnRealtimeSidebandLine (enabledLine line) = isOwnRealtimeSidebandLine line := by
  unfold enabledLine
  split_ifs with disables
  · have here : assigns REALTIME_SIDEBAND_KEY line = false := assigns_of_disablesStorage (k := 'e') rfl disables (by decide)
    rw [storageLine_own,isOwnRealtimeSidebandLine,here,Bool.false_and]
  · rfl

theorem enabledLine_idem (line : Line) : enabledLine (enabledLine line) = enabledLine line := by
  by_cases disables : disablesStorage line = true
  · have replaced : enabledLine line = storageLine := if_pos disables
    rw [replaced,storageLine_enabled]
  · have kept : enabledLine line = line := if_neg disables
    rw [kept,kept]

theorem enabledLine_disables (line : Line) : disablesStorage (enabledLine line) = false := by
  unfold enabledLine
  split_ifs with disables
  · exact storageLine_disables
  · simpa using disables

variable {line : Line}

theorem enabledLine_isTable (plain : isTable line = false) : isTable (enabledLine line) = false := by
  unfold enabledLine
  split_ifs
  · exact storageLine_isTable
  · exact plain

theorem enabledLine_clean (clean : CleanLine line) : CleanLine (enabledLine line) := by
  unfold enabledLine
  split_ifs
  · exact storageLine_clean
  · exact clean

theorem enabledLine_eq_nil : enabledLine line = [] ↔ line = [] := by
  unfold enabledLine
  split_ifs with disables
  · constructor
    · intro blank
      exact absurd blank (by decide)
    · rintro rfl
      exact absurd disables (by simp [blank_disables])
  · rfl

theorem IsRoot.enabled {root : List Line} (isRoot : IsRoot root) : IsRoot (root.map enabledLine) := by
  intro line member
  obtain ⟨source,there,rfl⟩ := mem_map.mp member
  exact enabledLine_isTable (isRoot source there)

theorem Tidy.cons {rest : List Line} (clean : CleanLine line) (filled : line ≠ []) (tidy : Tidy rest) : Tidy (line :: rest) := by
  refine ⟨forall_mem_cons.mpr ⟨clean,tidy.clean⟩,?_⟩
  cases rest with
  | nil => simpa using filled
  | cons next more => rw [List.getLast?_cons_cons]; exact tidy.last

variable {first second : List Line}

theorem Tidy.append (clean : ∀ line ∈ first, CleanLine line) (tidy : Tidy second) (filled : second ≠ []) :
    Tidy (first ++ second) := by
  refine ⟨fun line member => ?_,?_⟩
  · rcases mem_append.mp member with member | member
    · exact clean line member
    · exact tidy.clean line member
  · rw [List.getLast?_append_of_ne_nil first filled]
    exact tidy.last

theorem Tidy.suffix (tidy : Tidy (first ++ second)) : Tidy second := by
  refine ⟨fun line member => tidy.clean line (mem_append_right first member),fun ends => ?_⟩
  have filled : second ≠ [] := by rintro rfl; cases ends
  exact tidy.last (by rw [List.getLast?_append_of_ne_nil first filled,ends])

theorem Tidy.enabled (tidy : Tidy (first ++ second)) : Tidy (first.map enabledLine ++ second) := by
  have clean : ∀ line ∈ first.map enabledLine, CleanLine line := by
    intro line member
    obtain ⟨source,there,rfl⟩ := mem_map.mp member
    exact enabledLine_clean (tidy.clean source (mem_append_left second there))
  by_cases filled : second = []
  · subst filled
    refine ⟨by simpa using clean,?_⟩
    have last := tidy.last
    simp only [append_nil,List.getLast?_map] at last ⊢
    cases ends : first.getLast? with
    | none => simp
    | some line => simpa [ends,enabledLine_eq_nil] using last
  · exact Tidy.append clean tidy.suffix filled

/-! ### The root of a bound text -/

/-- The root with the proxy's line, no line of it disabling storage. -/
def boundRoot (root : List Line) : List Line := (rewriteProviderLines root).map enabledLine

/-- The sideband line, where the root sets none. -/
def sidebandLines (root : List Line) (baseUrl : Text) : List Line :=
  if (root.find? (assigns REALTIME_SIDEBAND_KEY)).isSome then [] else [createRealtimeSidebandConfigLine baseUrl]

def boundLines (root tables : List Line) (baseUrl : Text) : List Line :=
  boundRoot root ++ sidebandLines (boundRoot root) baseUrl ++ tables

/-- The parts of a text without line ends at its end: what comes before and after
    its provider line, and its tables. -/
structure Parts (root tables before : List Line) (first : Option Line) (after : List Line) : Prop where
  isRoot : IsRoot root
  isTables : IsTables tables
  split : KeySplit MODEL_PROVIDER root before first after
  tidy : Tidy (root ++ tables)

theorem parts_exist {body : List Line} (tidy : Tidy body) :
    ∃ before after, Parts (rootLines body) (tableLines body) before ((rootLines body).find? (assigns MODEL_PROVIDER)) after := by
  obtain ⟨before,after,split⟩ := keySplit_exists MODEL_PROVIDER (rootLines body)
  exact ⟨before,after,isRoot_rootLines body,isTables_tableLines body,split,by rwa [rootLines_append_tableLines]⟩

section
variable {root tables before after : List Line} {first : Option Line} (parts : Parts root tables before first after)
include parts

theorem Parts.rewritten : rewriteProviderLines root = before ++ rewrittenLine :: after := by
  have no_tables : IsTables [] := by simp [IsTables]
  simpa using rewriteProviderLines_root parts.isRoot no_tables parts.split

theorem Parts.rewritten_tables : rewriteProviderLines (root ++ tables) = rewriteProviderLines root ++ tables := by
  rw [rewriteProviderLines_root parts.isRoot parts.isTables parts.split,parts.rewritten]

theorem Parts.bound_shape : boundRoot root = before.map enabledLine ++ rewrittenLine :: after.map enabledLine := by
  rw [boundRoot,parts.rewritten,map_append,map_cons,rewrittenLine_enabled]

theorem Parts.before_isRoot : IsRoot before := fun line member => parts.isRoot line (by simp [parts.split.shape,member])
theorem Parts.after_isRoot : IsRoot after := fun line member => parts.isRoot line (by simp [parts.split.shape,member])

theorem Parts.before_clean : ∀ line ∈ before, CleanLine line :=
  fun line member => parts.tidy.clean line (by simp [parts.split.shape,member])

theorem Parts.after_tidy : Tidy (after ++ tables) := by
  have tidy := parts.tidy
  rw [parts.split.shape,append_assoc] at tidy
  exact tidy.suffix

theorem Parts.rewritten_isRoot : IsRoot (rewriteProviderLines root) := by
  rw [parts.rewritten]
  refine parts.before_isRoot.append fun line member => ?_
  rcases mem_cons.mp member with rfl | member
  · exact rewrittenLine_isTable
  · exact parts.after_isRoot line member

theorem Parts.rewritten_tidy : Tidy (rewriteProviderLines root ++ tables) := by
  rw [parts.rewritten,append_assoc]
  exact Tidy.append parts.before_clean (Tidy.cons rewrittenLine_clean (by decide) parts.after_tidy) (by simp)

theorem Parts.boundRoot_isRoot : IsRoot (boundRoot root) := parts.rewritten_isRoot.enabled

theorem Parts.boundRoot_tidy : Tidy (boundRoot root ++ tables) := parts.rewritten_tidy.enabled

theorem Parts.boundLines_tidy (baseUrl : Text) : Tidy (boundLines root tables baseUrl) := by
  unfold boundLines sidebandLines
  split_ifs
  · simpa using parts.boundRoot_tidy
  · rw [append_assoc]
    refine Tidy.append (fun line member => parts.boundRoot_tidy.clean line (mem_append_left tables member)) ?_ (by simp)
    exact Tidy.cons (sidebandLine_clean baseUrl) (by intro blank; cases blank) parts.boundRoot_tidy.suffix

theorem Parts.boundRoot_unmarked (unmarked : ∀ line ∈ root, isOwnRealtimeSidebandLine line = false) :
    ∀ line ∈ boundRoot root, isOwnRealtimeSidebandLine line = false := by
  rw [parts.bound_shape]
  have kept : ∀ line ∈ before ++ after, isOwnRealtimeSidebandLine (enabledLine line) = false := by
    intro line member
    rw [enabledLine_own]
    refine unmarked line ?_
    rw [parts.split.shape]
    rcases mem_append.mp member with member | member <;> simp [member]
  intro line member
  simp only [mem_append,mem_cons,mem_map] at member
  rcases member with ⟨source,there,rfl⟩ | rfl | ⟨source,there,rfl⟩
  · exact kept source (mem_append_left after there)
  · exact rewrittenLine_own
  · exact kept source (mem_append_right before there)

theorem Parts.again (baseUrl : Text) :
    Parts (boundRoot root ++ sidebandLines (boundRoot root) baseUrl) tables (before.map enabledLine) (some rewrittenLine)
      (after.map enabledLine ++ sidebandLines (boundRoot root) baseUrl) := by
  have sideband : IsRoot (sidebandLines (boundRoot root) baseUrl) := by
    unfold sidebandLines
    split_ifs
    · simp [IsRoot]
    · simpa [IsRoot] using sidebandLine_isTable baseUrl
  refine ⟨parts.boundRoot_isRoot.append sideband,parts.isTables,⟨?_,?_,?_,by simp⟩,parts.boundLines_tidy baseUrl⟩
  · simp [parts.bound_shape]
  · intro line member
    obtain ⟨source,there,rfl⟩ := mem_map.mp member
    rw [assigns_enabledLine (k := 'm') rfl (by decide)]
    exact parts.split.unassigned source there
  · simpa using rewrittenLine_assigns

theorem Parts.boundRoot_again (baseUrl : Text) :
    boundRoot (boundRoot root ++ sidebandLines (boundRoot root) baseUrl) =
      boundRoot root ++ sidebandLines (boundRoot root) baseUrl := by
  have sideband : (sidebandLines (boundRoot root) baseUrl).map enabledLine = sidebandLines (boundRoot root) baseUrl := by
    unfold sidebandLines
    split_ifs
    · rfl
    · simp [sidebandLine_enabled]
  rw [(parts.again baseUrl).bound_shape,map_append,sideband]
  simp [parts.bound_shape,Function.comp_def,enabledLine_idem]

theorem Parts.length_le : (root ++ tables).length ≤ (boundRoot root ++ tables).length := by
  have shape := parts.split.shape
  have ends := parts.split.ends
  rw [parts.bound_shape]
  cases first with
  | none => simp [shape,ends rfl]
  | some line => simp [shape]

end

/-- The ending that a text of these lines shows. -/
def shownEnding (ending : List Char) (lines : List Line) : List Char := if 2 ≤ lines.length then ending else ['\n']

theorem isEnding_shownEnding {ending : List Char} (isEnding : IsEnding ending) (lines : List Line) : IsEnding (shownEnding ending lines) := by
  unfold shownEnding
  split_ifs
  · exact isEnding
  · exact .inl rfl

section
variable {ending : List Char} (isEnding : IsEnding ending) {lines : List Line}
include isEnding

theorem joinLines_lineEnding (clean : ∀ line ∈ lines, CleanLine line) {other : List Line} (fewer : other.length ≤ lines.length) :
    joinLines (lineEnding (joinLines ending lines)) other = joinLines ending other := by
  rw [lineEnding_joinLines isEnding clean]
  split_ifs with two
  · rfl
  · exact joinLines_short (by omega) _ _

theorem rewriteTopLevelModelProvider_joinLines (tidy : Tidy lines) :
    rewriteTopLevelModelProvider (joinLines ending lines) = joinLines (shownEnding ending lines) (rewriteProviderLines lines) := by
  rw [rewriteTopLevelModelProvider,tidy.textLines isEnding,lineEnding_joinLines isEnding tidy.clean]
  rfl

theorem enableTopLevelResponseStorage_joinLines (tidy : Tidy lines) :
    enableTopLevelResponseStorage (joinLines ending lines) = joinLines ending (enableStorageLines true lines) := by
  have same : ∀ (inTopLevel : Bool) (lines : List Line), (enableStorageLines inTopLevel lines).length = lines.length := by
    intro inTopLevel lines
    induction lines generalizing inTopLevel with
    | nil => rfl
    | cons line rest ih => rw [enableStorageLines]; split_ifs <;> simp [ih]
  rw [enableTopLevelResponseStorage,tidy.textLines isEnding]
  exact joinLines_lineEnding isEnding tidy.clean (same true lines).le

theorem removeRealtimeSidebandBaseUrl_joinLines (clean : ∀ line ∈ lines, CleanLine line) (filled : lines ≠ []) :
    removeRealtimeSidebandBaseUrl (joinLines ending lines) = joinLines ending (removeSidebandLines true lines) := by
  have fewer : ∀ (inTopLevel : Bool) (lines : List Line), (removeSidebandLines inTopLevel lines).length ≤ lines.length := by
    intro inTopLevel lines
    induction lines generalizing inTopLevel with
    | nil => exact le_rfl
    | cons line rest ih =>
      rw [removeSidebandLines]
      have tail := ih (inTopLevel && !isTable line)
      split_ifs
      · exact tail.trans (Nat.le_succ rest.length)
      · exact Nat.succ_le_succ tail
  rw [removeRealtimeSidebandBaseUrl,splitLines_joinLines isEnding clean filled]
  exact joinLines_lineEnding isEnding clean (fewer true lines)

theorem rewriteTopLevelRealtimeSidebandBaseUrl_joinLines (clean : ∀ line ∈ lines, CleanLine line) (filled : lines ≠ []) (baseUrl : Text)
    (tidy : Tidy (removeSidebandLines true lines)) (some_left : removeSidebandLines true lines ≠ [])
    (removed : removeSidebandLines true (removeSidebandLines true lines) = removeSidebandLines true lines) :
    rewriteTopLevelRealtimeSidebandBaseUrl (joinLines ending lines) baseUrl =
      if (extractTopLevel REALTIME_SIDEBAND_KEY (removeSidebandLines true lines)).isSome then
        joinLines ending (removeSidebandLines true lines)
      else
        joinLines (shownEnding ending (removeSidebandLines true lines))
          (spliceRoot (createRealtimeSidebandConfigLine baseUrl) (removeSidebandLines true lines)) := by
  have once := removeRealtimeSidebandBaseUrl_joinLines isEnding clean filled
  have twice := removeRealtimeSidebandBaseUrl_joinLines isEnding tidy.clean some_left
  rw [removed] at twice
  rw [rewriteTopLevelRealtimeSidebandBaseUrl,once,configHasTopLevelRealtimeSidebandBaseUrl,twice,extractTopLevelLine,
    splitLines_joinLines isEnding tidy.clean some_left,tidy.textLines isEnding,lineEnding_joinLines isEnding tidy.clean]
  rfl

end

def rewriteRoot (text baseUrl : Text) : Text :=
  stripLineEnds (rewriteTopLevelRealtimeSidebandBaseUrl
    (enableTopLevelResponseStorage (stripLineEnds (rewriteTopLevelModelProvider text))) baseUrl)

theorem filter_unmarked {lines : List Line} (unmarked : ∀ line ∈ lines, isOwnRealtimeSidebandLine line = false) :
    lines.filter (fun line => !isOwnRealtimeSidebandLine line) = lines :=
  filter_eq_self.mpr fun line member => by simp [unmarked line member]

section
variable {root tables before after : List Line} {first : Option Line} (parts : Parts root tables before first after)
variable {ending : List Char} (isEnding : IsEnding ending)
include parts isEnding

/-- The edits of a text whose own sideband lines are all dropped from the kept lines. -/
theorem Parts.rewriteRoot_kept {kept : List Line} (dropped : (boundRoot root).filter (fun line => !isOwnRealtimeSidebandLine line) = kept)
    (tidy : Tidy (kept ++ tables)) (filled : kept ≠ []) (baseUrl : Text) :
    rewriteRoot (joinLines ending (root ++ tables)) baseUrl =
      if (kept.find? (assigns REALTIME_SIDEBAND_KEY)).isSome then joinLines (shownEnding ending (root ++ tables)) (kept ++ tables)
      else joinLines (shownEnding (shownEnding ending (root ++ tables)) (kept ++ tables))
        (kept ++ createRealtimeSidebandConfigLine baseUrl :: tables) := by
  have shown := isEnding_shownEnding isEnding (root ++ tables)
  have rewritten : stripLineEnds (rewriteTopLevelModelProvider (joinLines ending (root ++ tables))) =
      joinLines (shownEnding ending (root ++ tables)) (rewriteProviderLines root ++ tables) := by
    rw [rewriteTopLevelModelProvider_joinLines isEnding parts.tidy,parts.rewritten_tables,parts.rewritten_tidy.strip shown]
  have stored : enableTopLevelResponseStorage (joinLines (shownEnding ending (root ++ tables)) (rewriteProviderLines root ++ tables)) =
      joinLines (shownEnding ending (root ++ tables)) (boundRoot root ++ tables) := by
    rw [enableTopLevelResponseStorage_joinLines shown parts.rewritten_tidy,enableStorageLines_root parts.rewritten_isRoot parts.isTables]
    rfl
  have keptRoot : IsRoot kept := fun line member => parts.boundRoot_isRoot line (mem_of_mem_filter (dropped ▸ member))
  have removed : removeSidebandLines true (boundRoot root ++ tables) = kept ++ tables := by
    rw [removeSidebandLines_root parts.boundRoot_isRoot parts.isTables,dropped]
  have unmarked : ∀ line ∈ kept, isOwnRealtimeSidebandLine line = false := by
    intro line member
    have passed := (mem_filter.mp (dropped ▸ member)).2
    exact Bool.not_eq_true' _ |>.mp passed
  have twice : removeSidebandLines true (kept ++ tables) = kept ++ tables := by
    rw [removeSidebandLines_root keptRoot parts.isTables,filter_unmarked unmarked]
  have nonempty : boundRoot root ++ tables ≠ [] := by simp [parts.bound_shape]
  rw [rewriteRoot,rewritten,stored,rewriteTopLevelRealtimeSidebandBaseUrl_joinLines shown parts.boundRoot_tidy.clean nonempty baseUrl
    (removed ▸ tidy) (by simp [removed,filled]) (by rw [removed,twice]),removed,extractTopLevel_root _ keptRoot parts.isTables,
    spliceRoot_root _ keptRoot parts.isTables]
  split_ifs
  · exact tidy.strip shown
  · refine Tidy.strip ?_ (isEnding_shownEnding shown _)
    refine Tidy.append (fun line member => tidy.clean line (mem_append_left tables member)) ?_ (by simp)
    exact Tidy.cons (sidebandLine_clean baseUrl) (by intro blank; cases blank) tidy.suffix

theorem Parts.rewriteRoot_first (unmarked : ∀ line ∈ root, isOwnRealtimeSidebandLine line = false) (baseUrl : Text) :
    rewriteRoot (joinLines ending (root ++ tables)) baseUrl =
      joinLines (shownEnding ending (root ++ tables)) (boundLines root tables baseUrl) := by
  have dropped := filter_unmarked (parts.boundRoot_unmarked unmarked)
  have filled : boundRoot root ≠ [] := by simp [parts.bound_shape]
  rw [parts.rewriteRoot_kept isEnding dropped parts.boundRoot_tidy filled,boundLines,sidebandLines]
  split_ifs
  · simp
  · have longer := parts.length_le
    have same : shownEnding (shownEnding ending (root ++ tables)) (boundRoot root ++ tables) = shownEnding ending (root ++ tables) := by
      by_cases two : 2 ≤ (root ++ tables).length
      · rw [shownEnding,if_pos (two.trans longer)]
      · have feed : shownEnding ending (root ++ tables) = ['\n'] := if_neg two
        rw [feed]
        exact ite_self _
    rw [same]
    simp

end

end CodexMultiAuth.ConfigToml
