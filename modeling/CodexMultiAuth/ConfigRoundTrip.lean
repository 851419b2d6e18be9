import CodexMultiAuth.ConfigRebind

/-!
Binding a `config.toml` and unbinding it again.
-/
namespace CodexMultiAuth.ConfigToml
open List
set_option linter.unusedSectionVars false

theorem blanks_split {tables blanks : List Line} (isTables : IsTables tables) (blank : ∀ line ∈ blanks, line = []) :
    ∃ low rest, tables ++ blanks = low ++ rest ∧ (∀ line ∈ low, line = []) ∧ IsTables rest := by
  cases tables with
  | nil => exact ⟨blanks,[],by simp,blank,by simp [IsTables]⟩
  | cons header tables => exact ⟨[],header :: tables ++ blanks,by simp,by simp,by simpa [IsTables] using isTables⟩

theorem blank_isRoot {low : List Line} (blank : ∀ line ∈ low, line = []) : IsRoot low := by
  intro line member
  rw [blank line member]
  decide

theorem blank_assigns {low : List Line} (blank : ∀ line ∈ low, line = []) {key : List Char} {k : Char} (starts : key.head? = some k) :
    ∀ line ∈ low, assigns key line = false := by
  intro line member
  by_contra assigned
  have head := head?_of_assigns starts (by simpa using assigned)
  rw [blank line member] at head
  cases head

theorem joinLines_ne_nil {ending : List Char} (isEnding : IsEnding ending) {lines : List Line} (clean : ∀ line ∈ lines, CleanLine line)
    {line : Line} (member : line ∈ lines) (filled : line ≠ []) : joinLines ending lines ≠ [] := by
  intro blank
  have split := splitLines_joinLines isEnding clean (ne_nil_of_mem member)
  rw [blank] at split
  rw [← split] at member
  exact filled (mem_singleton.mp member)

theorem bodyLines_blanks (rawConfig : Text) :
    ∃ blanks, splitLines rawConfig = bodyLines rawConfig ++ blanks ∧ ∀ line ∈ blanks, line = [] := by
  refine ⟨(splitLines rawConfig).rtakeWhile (fun line => decide (line = [])),rdropWhile_append_rtakeWhile.symm,?_⟩
  intro line member
  simpa using mem_rtakeWhile_imp member

theorem extractTopLevelLine_body {rawConfig : Text} {key : List Char} {k : Char} (starts : key.head? = some k) :
    extractTopLevelLine rawConfig key = (rootLines (bodyLines rawConfig)).find? (assigns key) := by
  obtain ⟨blanks,shape,blank⟩ := bodyLines_blanks rawConfig
  obtain ⟨low,rest,split,empty,isTables⟩ := blanks_split (isTables_tableLines (bodyLines rawConfig)) blank
  have lines : splitLines rawConfig = (rootLines (bodyLines rawConfig) ++ low) ++ rest := by
    rw [shape,append_assoc,← split,← append_assoc,rootLines_append_tableLines]
  have none_low : low.find? (assigns key) = none := List.find?_eq_none.mpr fun line member => by simp [blank_assigns empty starts line member]
  rw [extractTopLevelLine,lines,extractTopLevel_root key ((isRoot_rootLines _).append (blank_isRoot empty)) isTables,List.find?_append,none_low,
    Option.or_none]

theorem takeWhile_split {test : Line → Bool} {before : List Line} (after : List Line) {line : Line} (others : ∀ earlier ∈ before, test earlier = false)
    (found : test line = true) : (before ++ line :: after).takeWhile (fun line => !test line) = before := by
  rw [takeWhile_append_of_pos (fun earlier member => by simp [others earlier member])]
  simp [found]

theorem split_unique {test : Line → Bool} {before after other rest : List Line} {line next : Line}
    (same : before ++ line :: after = other ++ next :: rest) (others : ∀ earlier ∈ before, test earlier = false) (found : test line = true)
    (elsewhere : ∀ earlier ∈ other, test earlier = false) (there : test next = true) : before = other ∧ line = next ∧ after = rest := by
  have left := takeWhile_split after others found
  rw [same,takeWhile_split rest elsewhere there] at left
  subst left
  simpa using same

theorem KeySplit.unique {key : List Char} {lines before after other rest : List Line} {first next : Option Line}
    (split : KeySplit key lines before first after) (again : KeySplit key lines other next rest) :
    before = other ∧ first = next ∧ after = rest := by
  have shape := split.shape.symm.trans again.shape
  cases first with
  | none =>
    cases next with
    | none => simpa [split.ends rfl,again.ends rfl] using shape
    | some line =>
      have member : line ∈ before := by
        rw [split.ends rfl] at shape
        simp at shape
        simp [shape]
      exact absurd (again.assigned line rfl) (by simp [split.unassigned line member])
  | some line =>
    cases next with
    | none =>
      have member : line ∈ other := by
        rw [again.ends rfl] at shape
        simp at shape
        simp [← shape]
      exact absurd (split.assigned line rfl) (by simp [again.unassigned line member])
    | some found =>
      simp only [Option.toList_some,append_assoc,singleton_append] at shape
      obtain ⟨front,here,back⟩ := split_unique shape split.unassigned (split.assigned line rfl) again.unassigned (again.assigned found rfl)
      exact ⟨front,congrArg some here,back⟩

theorem restore_enabled {lines before after : List Line} {first : Option Line}
    (exact_case : ∀ line ∈ lines, disablesStorage line = true → assigns RESPONSE_STORAGE line = true)
    (once : lines.countP (assigns RESPONSE_STORAGE) ≤ 1) (split : KeySplit RESPONSE_STORAGE (lines.map enabledLine) before first after) :
    before ++ (lines.find? (assigns RESPONSE_STORAGE)).toList ++ after = lines := by
  obtain ⟨front,back,original⟩ := keySplit_exists RESPONSE_STORAGE lines
  have kept : ∀ line ∈ lines, assigns RESPONSE_STORAGE line = false → enabledLine line = line := by
    intro line member unassigned
    refine if_neg fun disables => ?_
    rw [exact_case line member disables] at unassigned
    cases unassigned
  have front_kept : front.map enabledLine = front :=
    map_congr_left (fun line member => kept line (by rw [original.shape]; simp [member]) (original.unassigned line member)) |>.trans (map_id _)
  have back_plain : ∀ line ∈ back, assigns RESPONSE_STORAGE line = false := by
    intro line member
    by_contra assigned
    have again : 1 ≤ back.countP (assigns RESPONSE_STORAGE) := countP_pos_iff.mpr ⟨line,member,by simpa using assigned⟩
    cases found : lines.find? (assigns RESPONSE_STORAGE) with
    | none => simp [original.ends found] at member
    | some source =>
      have assignedSource := List.find?_some found
      rw [original.shape,found] at once
      simp [assignedSource] at once
      omega
  have back_kept : back.map enabledLine = back :=
    map_congr_left (fun line member => kept line (by rw [original.shape]; simp [member]) (back_plain line member)) |>.trans (map_id _)
  have mapped : KeySplit RESPONSE_STORAGE (lines.map enabledLine) front ((lines.find? (assigns RESPONSE_STORAGE)).map enabledLine) back := by
    refine ⟨?_,original.unassigned,?_,?_⟩
    · conv_lhs => rw [original.shape]
      cases lines.find? (assigns RESPONSE_STORAGE) <;> simp [front_kept,back_kept]
    · intro line member
      obtain ⟨source,found,rfl⟩ := Option.map_eq_some_iff.mp member
      unfold enabledLine
      split_ifs
      · exact storageLine_assigns
      · exact List.find?_some found
    · intro none_mapped
      exact original.ends (Option.map_eq_none_iff.mp none_mapped)
  obtain ⟨rfl,-,rfl⟩ := split.unique mapped
  exact original.shape.symm

section
variable {ending : List Char} (isEnding : IsEnding ending)
include isEnding

theorem restoreTopLevelResponseStorage_joinLines {root rest before after : List Line} {first : Option Line} {originalConfig : Text}
    (isRoot : IsRoot root) (isTables : IsTables rest) (clean : ∀ line ∈ root ++ rest, CleanLine line)
    (filled : joinLines ending (root ++ rest) ≠ []) (two : 2 ≤ (root ++ rest).length) (split : KeySplit RESPONSE_STORAGE root before first after)
    (covered : first = none → extractTopLevelLine originalConfig RESPONSE_STORAGE = none) :
    restoreTopLevelResponseStorage (joinLines ending (root ++ rest)) originalConfig =
      joinLines ending (before ++ (extractTopLevelLine originalConfig RESPONSE_STORAGE).toList ++ after ++ rest) := by
  have front : IsRoot before := fun line member => isRoot line (by rw [split.shape]; simp [member])
  rw [restoreTopLevelResponseStorage,textLines_joinLines_filled isEnding clean filled,lineEnding_joinLines isEnding clean,if_pos two]
  cases first with
  | none =>
    have alone := split.shape
    rw [split.ends rfl] at alone ⊢
    simp only [Option.toList_none,append_nil] at alone
    subst alone
    rw [restoreStorageLines_none _ isRoot isTables split.unassigned,covered rfl]
    simp
  | some line =>
    have shape : root ++ rest = before ++ line :: (after ++ rest) := by rw [split.shape]; simp
    rw [shape,restoreStorageLines_found _ front split.unassigned (split.assigned line rfl)]
    cases extractTopLevelLine originalConfig RESPONSE_STORAGE <;> simp

theorem restoreTopLevelModelProvider_joinLines {before after : List Line} {line : Line} {originalConfig : Text}
    (clean : ∀ each ∈ before ++ line :: after, CleanLine each) (filled : joinLines ending (before ++ line :: after) ≠ [])
    (two : 2 ≤ (before ++ line :: after).length) (others : ∀ earlier ∈ before, isRuntimeProviderLine earlier = false)
    (found : isRuntimeProviderLine line = true) :
    restoreTopLevelModelProvider (joinLines ending (before ++ line :: after)) originalConfig =
      joinLines ending (before ++ (extractTopLevelLine originalConfig MODEL_PROVIDER).toList ++ after) := by
  rw [restoreTopLevelModelProvider,textLines_joinLines_filled isEnding clean filled,lineEnding_joinLines isEnding clean,if_pos two,
    restoreProviderLines_found _ others found]
  cases extractTopLevelLine originalConfig MODEL_PROVIDER <;> simp

end

/-! ### The text restored -/

theorem stripLineEnds_ensure (text : Text) : stripLineEnds (ensureTomlTrailingNewline (stripLineEnds text)) = stripLineEnds text := by
  rw [ensureTomlTrailingNewline,stripLineEnds_append_ending _ (.inl rfl)]
  simp only [stripLineEnds,rdropWhile_idempotent]

section
variable {rawConfig : Text} (bindable : Bindable rawConfig)
include bindable

theorem Bindable.storage_covered
    (none_bound : (boundRoot (rootLines (bodyLines rawConfig))).find? (assigns RESPONSE_STORAGE) = none) :
    (rootLines (bodyLines rawConfig)).find? (assigns RESPONSE_STORAGE) = none := by
  obtain ⟨before,after,parts⟩ := bindable.parts
  refine List.find?_eq_none.mpr fun line member assigned => ?_
  have bound : enabledLine line ∈ boundRoot (rootLines (bodyLines rawConfig)) := by
    rw [parts.split.shape] at member
    rw [parts.bound_shape]
    simp only [mem_append,Option.mem_toList] at member
    rcases member with (member | first) | member
    · exact mem_append_left _ (mem_map_of_mem member)
    · have other : assigns RESPONSE_STORAGE line = false :=
        assigns_other (k := 'd') (l := 'm') rfl rfl (by decide) (parts.split.assigned line first)
      rw [assigned] at other
      cases other
    · exact mem_append_right _ (mem_cons_of_mem _ (mem_map_of_mem member))
  refine List.find?_eq_none.mp none_bound _ bound ?_
  unfold enabledLine
  split_ifs
  · exact storageLine_assigns
  · exact assigned

/-- The root that restoring leaves: the storage line put back, then the first line
    of the proxy exchanged for the original one. -/
structure RestoredRoot (rawConfig : Text) (root : List Line) : Prop where
  parts : ∃ before after front back line,
    KeySplit RESPONSE_STORAGE (boundRoot (rootLines (bodyLines rawConfig))) before
      ((boundRoot (rootLines (bodyLines rawConfig))).find? (assigns RESPONSE_STORAGE)) after ∧
    before ++ ((rootLines (bodyLines rawConfig)).find? (assigns RESPONSE_STORAGE)).toList ++ after = front ++ line :: back ∧
    (∀ earlier ∈ front, isRuntimeProviderLine earlier = false) ∧ isRuntimeProviderLine line = true ∧
    root = front ++ ((rootLines (bodyLines rawConfig)).find? (assigns MODEL_PROVIDER)).toList ++ back

variable (baseUrl clientApiKey : Text)

theorem Bindable.unblocked {low rest : List Line} (blank : ∀ line ∈ low, line = []) (isTables : IsTables rest)
    (behind : tableLines (bodyLines rawConfig) ++ [[]] = low ++ rest) :
    removeRealtimeSidebandBaseUrl (removeRuntimeRotationProviderBlock
        (rewriteConfigTomlForRuntimeRotationProvider rawConfig baseUrl clientApiKey)) =
      joinLines (lineEnding rawConfig) ((boundRoot (rootLines (bodyLines rawConfig)) ++ low) ++ rest) := by
  obtain ⟨before,after,parts⟩ := bindable.parts
  have isEnding := isEnding_lineEnding rawConfig
  have tidy := bindable.boundBody_tidy baseUrl
  have filled := bindable.boundBody_ne_nil baseUrl
  have shape : boundBody rawConfig baseUrl ++ [[]] =
      (boundRoot (rootLines (bodyLines rawConfig)) ++ sidebandLines (boundRoot (rootLines (bodyLines rawConfig))) baseUrl ++ low) ++ rest := by
    rw [boundBody,boundLines,append_assoc,behind,append_assoc,append_assoc,append_assoc]
  have clean : ∀ line ∈ boundBody rawConfig baseUrl ++ [[]], CleanLine line := by
    intro line member
    rcases mem_append.mp member with member | member
    · exact tidy.clean line member
    · cases mem_singleton.mp member
      decide
  have unmarked : (boundRoot (rootLines (bodyLines rawConfig)) ++ sidebandLines (boundRoot (rootLines (bodyLines rawConfig))) baseUrl ++ low).filter
      (fun line => !isOwnRealtimeSidebandLine line) = boundRoot (rootLines (bodyLines rawConfig)) ++ low := by
    have low_kept : low.filter (fun line => !isOwnRealtimeSidebandLine line) = low := by
      refine filter_unmarked fun line member => ?_
      rw [blank line member,isOwnRealtimeSidebandLine,assigns_nil (k := 'e') rfl,Bool.false_and]
    rw [filter_append,filter_append,low_kept,filter_unmarked (parts.boundRoot_unmarked bindable.unmarked)]
    unfold sidebandLines
    split_ifs <;> simp [sidebandLine_own]
  have isRoot : IsRoot (boundRoot (rootLines (bodyLines rawConfig)) ++ sidebandLines (boundRoot (rootLines (bodyLines rawConfig))) baseUrl ++ low) :=
    (parts.again baseUrl).isRoot.append (blank_isRoot blank)
  rw [bindable.rewritten,removeRuntimeRotationProviderBlock_boundText isEnding (isEnding_shownEnding isEnding _) tidy.clean filled baseUrl
    clientApiKey shownEnding_feed (bindable.foreign baseUrl),removeRealtimeSidebandBaseUrl_joinLines isEnding clean (by simp),shape,
    removeSidebandLines_root isRoot isTables,unmarked]

theorem Bindable.restored :
    ∃ root, RestoredRoot rawConfig root ∧ (∀ line ∈ root, CleanLine line) ∧
      stripLineEnds (restoreConfigTomlFromRuntimeRotationProvider
        (rewriteConfigTomlForRuntimeRotationProvider rawConfig baseUrl clientApiKey) rawConfig) =
      joinLines (lineEnding rawConfig) ((root ++ tableLines (bodyLines rawConfig)).rdropWhile (fun line => decide (line = []))) := by
  obtain ⟨head,tail,parts⟩ := bindable.parts
  have isEnding := isEnding_lineEnding rawConfig
  have blank_one : ∀ line ∈ [([] : Line)], line = [] := by simp
  obtain ⟨low,rest,behind,blank,isTables⟩ := blanks_split (isTables_tableLines (bodyLines rawConfig)) blank_one
  obtain ⟨before,after,split⟩ := keySplit_exists RESPONSE_STORAGE (boundRoot (rootLines (bodyLines rawConfig)))
  have proxied : rewrittenLine ∈ boundRoot (rootLines (bodyLines rawConfig)) := by simp [parts.bound_shape]
  have bound_clean : ∀ line ∈ (boundRoot (rootLines (bodyLines rawConfig)) ++ low) ++ rest, CleanLine line := by
    intro line member
    rw [append_assoc,← behind,← append_assoc] at member
    rcases mem_append.mp member with member | member
    · exact parts.boundRoot_tidy.clean line member
    · cases mem_singleton.mp member
      decide
  have original_clean : ∀ line ∈ rootLines (bodyLines rawConfig), CleanLine line :=
    fun line member => bindable.clean line (bindable.body_subset (( takeWhile_prefix _).subset member))
  -- the root with the storage line put back still has the proxy's line
  have kept : rewrittenLine ∈ before ++ ((rootLines (bodyLines rawConfig)).find? (assigns RESPONSE_STORAGE)).toList ++ after := by
    rw [split.shape] at proxied
    simp only [mem_append,Option.mem_toList] at proxied ⊢
    rcases proxied with (front | first) | back
    · exact .inl (.inl front)
    · exact absurd (split.assigned _ first) (by simp [rewrittenLine_storage])
    · exact .inr back
  have kept_clean : ∀ line ∈ before ++ ((rootLines (bodyLines rawConfig)).find? (assigns RESPONSE_STORAGE)).toList ++ after, CleanLine line := by
    intro line member
    have inside : ∀ source ∈ before ++ after, CleanLine source := by
      intro source there
      refine parts.boundRoot_tidy.clean source (mem_append_left _ ?_)
      rw [split.shape]
      rcases mem_append.mp there with there | there <;> simp [there]
    simp only [mem_append,Option.mem_toList] at member
    rcases member with (member | original) | member
    · exact inside line (mem_append_left after member)
    · exact original_clean line (mem_of_find?_eq_some original)
    · exact inside line (mem_append_right before member)
  obtain ⟨line,found⟩ : ∃ line, (before ++ ((rootLines (bodyLines rawConfig)).find? (assigns RESPONSE_STORAGE)).toList ++ after).find?
      isRuntimeProviderLine = some line :=
    Option.isSome_iff_exists.mp (List.find?_isSome.mpr ⟨rewrittenLine,kept,rewrittenLine_runtime⟩)
  obtain ⟨runtime,front,back,shape,others⟩ := List.find?_eq_some_iff_append.mp found
  have others : ∀ earlier ∈ front, isRuntimeProviderLine earlier = false := by simpa using others
  refine ⟨_,⟨before,after,front,back,line,split,shape,others,runtime,rfl⟩,?_,?_⟩
  · intro each member
    simp only [mem_append,Option.mem_toList] at member
    rcases member with (member | original) | member
    · exact kept_clean each (by rw [shape]; simp [member])
    · exact original_clean each (mem_of_find?_eq_some original)
    · exact kept_clean each (by rw [shape]; simp [member])
  · -- the empty lines before the block go to the root where there is no table
    have two : 2 ≤ ((boundRoot (rootLines (bodyLines rawConfig)) ++ low) ++ rest).length := by
      rw [append_assoc,← behind]
      simp [parts.bound_shape]
      omega
    have filled := joinLines_ne_nil isEnding bound_clean
      (mem_append_left rest (mem_append_left low proxied)) (by decide)
    have stored : restoreTopLevelResponseStorage (joinLines (lineEnding rawConfig) ((boundRoot (rootLines (bodyLines rawConfig)) ++ low) ++ rest)) rawConfig =
        joinLines (lineEnding rawConfig) (front ++ line :: (back ++ low ++ rest)) := by
      have covered : (boundRoot (rootLines (bodyLines rawConfig))).find? (assigns RESPONSE_STORAGE) = none →
          extractTopLevelLine rawConfig RESPONSE_STORAGE = none := by
        rw [extractTopLevelLine_body (k := 'd') rfl]
        exact bindable.storage_covered
      obtain ⟨other,more,whole,same⟩ : ∃ other more, KeySplit RESPONSE_STORAGE (boundRoot (rootLines (bodyLines rawConfig)) ++ low) other
          ((boundRoot (rootLines (bodyLines rawConfig))).find? (assigns RESPONSE_STORAGE)) more ∧
          other ++ (extractTopLevelLine rawConfig RESPONSE_STORAGE).toList ++ more =
            before ++ (extractTopLevelLine rawConfig RESPONSE_STORAGE).toList ++ after ++ low := by
        have low_plain : ∀ each ∈ low, assigns RESPONSE_STORAGE each = false := blank_assigns blank (k := 'd') rfl
        cases first : (boundRoot (rootLines (bodyLines rawConfig))).find? (assigns RESPONSE_STORAGE) with
        | none =>
          have alone := split.shape
          rw [first,split.ends first] at alone
          refine ⟨before ++ low,[],⟨by rw [alone]; simp,?_,by simp,fun _ => rfl⟩,?_⟩
          · intro each member
            rcases mem_append.mp member with member | member
            · exact split.unassigned each member
            · exact low_plain each member
          · rw [covered first,split.ends first]
            simp
        | some storage =>
          refine ⟨before,after ++ low,⟨?_,split.unassigned,by simpa using List.find?_some first,by simp⟩,by simp⟩
          conv_lhs => rw [split.shape,first]
          simp
      rw [restoreTopLevelResponseStorage_joinLines isEnding (parts.boundRoot_isRoot.append (blank_isRoot blank)) isTables bound_clean filled two
        whole covered,same,extractTopLevelLine_body (k := 'd') rfl,shape]
      simp
    have line_filled : line ≠ [] := by
      rintro rfl
      exact absurd runtime (by rw [isRuntimeProviderLine,assigns_nil (k := 'm') rfl]; simp)
    have stored_clean : ∀ each ∈ front ++ line :: (back ++ low ++ rest), CleanLine each := by
      intro each member
      have together : front ++ line :: (back ++ low ++ rest) = (front ++ line :: back) ++ (low ++ rest) := by simp
      rw [together,← shape] at member
      rcases mem_append.mp member with member | member
      · exact kept_clean each member
      · exact bound_clean each (by rw [append_assoc]; exact mem_append_right _ member)
    have some_more : 1 ≤ (low ++ rest).length := by rw [← behind]; simp
    have provided : restoreTopLevelModelProvider (joinLines (lineEnding rawConfig) (front ++ line :: (back ++ low ++ rest))) rawConfig = _ :=
      restoreTopLevelModelProvider_joinLines isEnding stored_clean (joinLines_ne_nil isEnding stored_clean (by simp) line_filled)
        (by simp at some_more ⊢; omega) others runtime
    have last : front ++ (extractTopLevelLine rawConfig MODEL_PROVIDER).toList ++ (back ++ low ++ rest) =
        (front ++ ((rootLines (bodyLines rawConfig)).find? (assigns MODEL_PROVIDER)).toList ++ back ++ tableLines (bodyLines rawConfig)) ++ [[]] := by
      have together : back ++ low ++ rest = back ++ (tableLines (bodyLines rawConfig) ++ [[]]) := by rw [behind,append_assoc]
      rw [extractTopLevelLine_body (k := 'm') rfl,together]
      simp
    have final_clean : ∀ each ∈ front ++ (extractTopLevelLine rawConfig MODEL_PROVIDER).toList ++ (back ++ low ++ rest), CleanLine each := by
      intro each member
      simp only [mem_append,Option.mem_toList] at member
      rcases member with (member | original) | member
      · exact stored_clean each (by simp [member])
      · rw [extractTopLevelLine_body (k := 'm') rfl] at original
        exact original_clean each (mem_of_find?_eq_some original)
      · exact stored_clean each (mem_append_right front (mem_cons_of_mem line (by simpa [or_assoc] using member)))
    rw [restoreConfigTomlFromRuntimeRotationProvider,bindable.unblocked baseUrl clientApiKey blank isTables behind,stored,provided,
      stripLineEnds_ensure,stripLineEnds_joinLines isEnding final_clean,last,rdropWhile_concat_pos _ _ _ (by simp)]

/-! ### The round trip -/

omit bindable in
theorem mem_rootLines_append {lines : List Line} (more : List Line) {line : Line} (member : line ∈ rootLines lines) :
    line ∈ rootLines (lines ++ more) := by
  unfold rootLines at member ⊢
  rw [takeWhile_append]
  split_ifs
  · exact mem_append_left _ (( takeWhile_prefix _).subset member)
  · exact member

/-- No root line that only the case-insensitive test takes for the storage key. -/
def StorageInCase (rawConfig : Text) : Prop :=
  ∀ line ∈ rootLines (splitLines rawConfig), disablesStorage line = true → assigns RESPONSE_STORAGE line = true

theorem Bindable.rootLines_body :
    ∃ low, rootLines (splitLines rawConfig) = rootLines (bodyLines rawConfig) ++ low ∧ ∀ line ∈ low, line = [] := by
  obtain ⟨blanks,shape,blank⟩ := bodyLines_blanks rawConfig
  obtain ⟨low,rest,split,empty,isTables⟩ := blanks_split (isTables_tableLines (bodyLines rawConfig)) blank
  refine ⟨low,?_,empty⟩
  have lines : splitLines rawConfig = (rootLines (bodyLines rawConfig) ++ low) ++ rest := by
    rw [shape,append_assoc,← split,← append_assoc,rootLines_append_tableLines]
  rw [lines,rootLines_append ((isRoot_rootLines _).append (blank_isRoot empty)) isTables]

theorem Bindable.storageInCase_iff : StorageInCase rawConfig ↔
    ∀ line ∈ rootLines (bodyLines rawConfig), disablesStorage line = true → assigns RESPONSE_STORAGE line = true := by
  obtain ⟨low,shape,blank⟩ := bindable.rootLines_body
  rw [StorageInCase,shape]
  constructor
  · intro inCase line member
    exact inCase line (mem_append_left low member)
  · intro inCase line member disables
    rcases mem_append.mp member with member | member
    · exact inCase line member disables
    · rw [blank line member] at disables
      exact absurd disables (by simp [blank_disables])

theorem Bindable.restoredRoot_eq {root : List Line} (restored : RestoredRoot rawConfig root) (inCase : StorageInCase rawConfig) :
    root = rootLines (bodyLines rawConfig) := by
  obtain ⟨head,tail,parts⟩ := bindable.parts
  obtain ⟨before,after,front,back,line,split,shape,others,runtime,rfl⟩ := restored.parts
  have split_root := parts.split.shape
  have provider_plain : ∀ each ∈ (rootLines (bodyLines rawConfig)).find? (assigns MODEL_PROVIDER), assigns RESPONSE_STORAGE each = false :=
    fun each found => assigns_other (k := 'd') (l := 'm') rfl rfl (by decide) (parts.split.assigned each found)
  have same_storage : (rewriteProviderLines (rootLines (bodyLines rawConfig))).find? (assigns RESPONSE_STORAGE) =
      (rootLines (bodyLines rawConfig)).find? (assigns RESPONSE_STORAGE) := by
    rw [parts.rewritten]
    conv_rhs => rw [split_root]
    have proxy := rewrittenLine_storage
    cases found : (rootLines (bodyLines rawConfig)).find? (assigns MODEL_PROVIDER) with
    | none => simp [List.find?_append,proxy]
    | some provider => simp [List.find?_append,proxy,provider_plain provider found]
  have inside : ∀ each ∈ rewriteProviderLines (rootLines (bodyLines rawConfig)), disablesStorage each = true →
      assigns RESPONSE_STORAGE each = true := by
    intro each member disables
    rw [parts.rewritten] at member
    have source : each ∈ head ++ tail → assigns RESPONSE_STORAGE each = true := by
      intro there
      refine bindable.storageInCase_iff.mp inCase each ?_ disables
      rw [split_root]
      rcases mem_append.mp there with there | there <;> simp [there]
    rcases mem_append.mp member with member | member
    · exact source (mem_append_left tail member)
    · rcases mem_cons.mp member with rfl | member
      · exact absurd disables (by simp [rewrittenLine_disables])
      · exact source (mem_append_right head member)
  have once : (rewriteProviderLines (rootLines (bodyLines rawConfig))).countP (assigns RESPONSE_STORAGE) ≤ 1 := by
    have proxy := rewrittenLine_storage
    obtain ⟨low,whole,-⟩ := bindable.rootLines_body
    have counted := bindable.responseStorage
    rw [whole,countP_append,split_root] at counted
    rw [parts.rewritten]
    simp [countP_append,proxy] at counted ⊢
    omega
  have undone := restore_enabled inside once split
  rw [same_storage,shape,parts.rewritten] at undone
  have front_plain : ∀ each ∈ head, isRuntimeProviderLine each = false := fun each member => by
    simp [isRuntimeProviderLine,parts.split.unassigned each member]
  obtain ⟨rfl,rfl,rfl⟩ := split_unique undone others runtime front_plain rewrittenLine_runtime
  exact split_root.symm

theorem Bindable.restoredRoot_inCase {root : List Line} (restored : RestoredRoot rawConfig root) :
    IsRoot root ∧ ∀ line ∈ root, disablesStorage line = true → assigns RESPONSE_STORAGE line = true := by
  obtain ⟨head,tail,parts⟩ := bindable.parts
  obtain ⟨before,after,front,back,line,split,shape,others,runtime,rfl⟩ := restored.parts
  have original : ∀ {key : List Char}, ∀ each ∈ (rootLines (bodyLines rawConfig)).find? (assigns key), isTable each = false :=
    fun each found => isRoot_rootLines _ each (mem_of_find?_eq_some found)
  have bound : ∀ each ∈ before ++ after, each ∈ boundRoot (rootLines (bodyLines rawConfig)) := by
    intro each member
    rw [split.shape]
    rcases mem_append.mp member with member | member <;> simp [member]
  have kept : ∀ each ∈ front ++ line :: back,
      isTable each = false ∧ (disablesStorage each = true → assigns RESPONSE_STORAGE each = true) := by
    have either : ∀ each ∈ before ++ after, isTable each = false ∧ (disablesStorage each = true → assigns RESPONSE_STORAGE each = true) := by
      intro each member
      refine ⟨parts.boundRoot_isRoot each (bound each member),fun disables => ?_⟩
      obtain ⟨source,-,rfl⟩ := mem_map.mp (bound each member)
      rw [enabledLine_disables] at disables
      cases disables
    intro each member
    rw [← shape] at member
    simp only [mem_append,Option.mem_toList] at member
    rcases member with (member | found) | member
    · exact either each (mem_append_left after member)
    · exact ⟨original each found,fun _ => List.find?_some found⟩
    · exact either each (mem_append_right before member)
  have final : ∀ each ∈ front ++ ((rootLines (bodyLines rawConfig)).find? (assigns MODEL_PROVIDER)).toList ++ back,
      isTable each = false ∧ (disablesStorage each = true → assigns RESPONSE_STORAGE each = true) := by
    intro each member
    simp only [mem_append,Option.mem_toList] at member
    rcases member with (member | found) | member
    · exact kept each (by simp [member])
    · refine ⟨original each found,fun disables => ?_⟩
      have other : assigns MODEL_PROVIDER each = false := assigns_of_disablesStorage (k := 'm') rfl disables (by decide)
      rw [List.find?_some found] at other
      cases other
    · exact kept each (by simp [member])
  exact ⟨fun each member => (final each member).1,fun each member => (final each member).2⟩

theorem Bindable.restore_rewrite_iff :
    stripLineEnds (restoreConfigTomlFromRuntimeRotationProvider
      (rewriteConfigTomlForRuntimeRotationProvider rawConfig baseUrl clientApiKey) rawConfig) = stripLineEnds rawConfig ↔
      StorageInCase rawConfig := by
  obtain ⟨root,restored,clean,text⟩ := bindable.restored baseUrl clientApiKey
  have isEnding := isEnding_lineEnding rawConfig
  have whole := rootLines_append_tableLines (bodyLines rawConfig)
  rw [text,bindable.strip]
  constructor
  · intro same
    have all_clean : ∀ line ∈ root ++ tableLines (bodyLines rawConfig), CleanLine line := by
      intro line member
      rcases mem_append.mp member with member | member
      · exact clean line member
      · exact bindable.tidy.clean line ((dropWhile_suffix _).subset member)
    have lines := (rdropWhile_empty_tidy all_clean).joinLines_injective bindable.tidy isEnding same
    obtain ⟨isRoot,inCase⟩ := bindable.restoredRoot_inCase restored
    have inside := rdropWhile_prefix (fun line => decide (line = [])) (root ++ tableLines (bodyLines rawConfig))
    rw [lines] at inside
    obtain ⟨more,rest⟩ := inside
    have front := rootLines_append isRoot (isTables_tableLines (bodyLines rawConfig))
    rw [← rest] at front
    refine bindable.storageInCase_iff.mpr fun line member => inCase line ?_
    rw [← front]
    exact mem_rootLines_append more member
  · intro inCase
    rw [bindable.restoredRoot_eq restored inCase,whole,bindable.tidy.rdropWhile]

end

/-- Unbinding undoes binding and binding again changes nothing, for exactly the texts
    whose storage lines are in case and that are not one line with a carriage return. -/
theorem restore_rewrite_and_rewrite_idempotent_iff (rawConfig baseUrl clientApiKey : Text) (bindable : Bindable rawConfig) :
    (stripLineEnds (restoreConfigTomlFromRuntimeRotationProvider
        (rewriteConfigTomlForRuntimeRotationProvider rawConfig baseUrl clientApiKey) rawConfig) = stripLineEnds rawConfig ∧
      rewriteConfigTomlForRuntimeRotationProvider (rewriteConfigTomlForRuntimeRotationProvider rawConfig baseUrl clientApiKey)
        baseUrl clientApiKey = rewriteConfigTomlForRuntimeRotationProvider rawConfig baseUrl clientApiKey) ↔
      StorageInCase rawConfig ∧ ¬ OneLineCrlf rawConfig :=
  and_congr (bindable.restore_rewrite_iff baseUrl clientApiKey) (bindable.rewrite_idempotent_iff baseUrl clientApiKey)

def profileConfig : Text := "model = \"gpt\"\n\n[profiles.work]\nmodel_provider = \"azure\"\n".toList
def upperCaseConfig : Text := "DISABLE_RESPONSE_STORAGE = true\n".toList
def oneLineConfig : Text := "model = \"gpt\"\r\n".toList

theorem profileConfig_bindable : Bindable profileConfig := by
  refine ⟨⟨['\n'],splitLines profileConfig,.inl rfl,splitLines_ne_nil _,?_,?_⟩,?_,?_,?_,?_⟩ <;> decide +kernel

theorem profileConfig_round_trip :
    stripLineEnds (restoreConfigTomlFromRuntimeRotationProvider
        (rewriteConfigTomlForRuntimeRotationProvider profileConfig "http://127.0.0.1:1".toList "key".toList) profileConfig) =
      stripLineEnds profileConfig ∧
    rewriteConfigTomlForRuntimeRotationProvider
        (rewriteConfigTomlForRuntimeRotationProvider profileConfig "http://127.0.0.1:1".toList "key".toList)
        "http://127.0.0.1:1".toList "key".toList =
      rewriteConfigTomlForRuntimeRotationProvider profileConfig "http://127.0.0.1:1".toList "key".toList := by
  refine (restore_rewrite_and_rewrite_idempotent_iff profileConfig _ _ profileConfig_bindable).mpr ⟨?_,?_⟩
  · show ∀ line ∈ rootLines (splitLines profileConfig), _
    decide
  · rintro ⟨crlf,-⟩
    exact absurd crlf (by decide)

theorem upperCaseConfig_bindable : Bindable upperCaseConfig := by
  refine ⟨⟨['\n'],splitLines upperCaseConfig,.inl rfl,splitLines_ne_nil _,?_,?_⟩,?_,?_,?_,?_⟩ <;> decide +kernel

theorem oneLineConfig_bindable : Bindable oneLineConfig := by
  refine ⟨⟨['\r','\n'],splitLines oneLineConfig,.inr rfl,splitLines_ne_nil _,?_,?_⟩,?_,?_,?_,?_⟩ <;> decide +kernel

/-- The upper-case line is rewritten and not put back; the single line keeps its
    carriage return only the second time. -/
theorem round_trip_fails :
    (Bindable upperCaseConfig ∧
      stripLineEnds (restoreConfigTomlFromRuntimeRotationProvider
        (rewriteConfigTomlForRuntimeRotationProvider upperCaseConfig "http://127.0.0.1:1".toList []) upperCaseConfig) ≠
        stripLineEnds upperCaseConfig) ∧
    (Bindable oneLineConfig ∧
      rewriteConfigTomlForRuntimeRotationProvider
          (rewriteConfigTomlForRuntimeRotationProvider oneLineConfig "http://127.0.0.1:1".toList []) "http://127.0.0.1:1".toList [] ≠
        rewriteConfigTomlForRuntimeRotationProvider oneLineConfig "http://127.0.0.1:1".toList []) := by
  refine ⟨⟨upperCaseConfig_bindable,?_⟩,⟨oneLineConfig_bindable,?_⟩⟩
  · rw [Ne,upperCaseConfig_bindable.restore_rewrite_iff]
    intro inCase
    exact absurd (inCase "DISABLE_RESPONSE_STORAGE = true".toList (by decide) (by decide)) (by decide)
  · rw [Ne,oneLineConfig_bindable.rewrite_idempotent_iff,not_not]
    exact ⟨by decide,"model = \"gpt\"".toList,by decide,by decide⟩

end CodexMultiAuth.ConfigToml
