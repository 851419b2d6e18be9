import CodexMultiAuth.NativeProviderConfig

/-!
The native provider binding on the lines of a text. A bind puts the block in front of the
lines that it keeps (`rewrite_lines`); what a bind has written is found again
(`withoutNativeBlock_bound`), so that the next bind writes the same (`rewrite_again`).
-/
namespace CodexMultiAuth.NativeProvider
open List
open ConfigToml (Line Text splitLines joinLines trimText assigns tomlStringLiteral isTable isOwnRealtimeSidebandLine
  removeRealtimeSidebandBaseUrl configHasTopLevelRealtimeSidebandBaseUrl createRealtimeSidebandConfigLine extractTopLevel removeSidebandLines
  MODEL_PROVIDER REALTIME_SIDEBAND_KEY REALTIME_SIDEBAND_MARKER IsEnding CleanLine joinLines_nil joinLines_singleton joinLines_cons
  joinLines_append splitLines_joinLines isEnding_lineEnding escapeChar lineEnding splitLines_ne_nil head?_of_isTable head?_of_assigns
  extractTopLevelLine)

theorem begin_letters : BEGIN =
    ['#',' ','c','o','d','e','x','-','m','u','l','t','i','-','a','u','t','h',' ','n','a','t','i','v','e',' ','p','r','o',
      'v','i','d','e','r',' ','b','e','g','i','n'] := by
  rfl

theorem end_letters : END =
    ['#',' ','c','o','d','e','x','-','m','u','l','t','i','-','a','u','t','h',' ','n','a','t','i','v','e',' ','p','r','o',
      'v','i','d','e','r',' ','e','n','d'] := by
  rfl

theorem openaiBaseUrl_letters : OPENAI_BASE_URL =
    ['o','p','e','n','a','i','_','b','a','s','e','_','u','r','l'] := by
  rfl

theorem providerLine_letters : providerLine =
    ['m','o','d','e','l','_','p','r','o','v','i','d','e','r',' ','=',' ','"','o','p','e','n','a','i','"'] := by
  rfl

theorem realtimeKey_letters : REALTIME_SIDEBAND_KEY =
    ['e','x','p','e','r','i','m','e','n','t','a','l','_','r','e','a','l','t','i','m','e','_','w','s','_','b','a','s','e',
      '_','u','r','l'] := by
  rfl

theorem realtimeMarker_letters : REALTIME_SIDEBAND_MARKER =
    ['#',' ','c','o','d','e','x','-','m','u','l','t','i','-','a','u','t','h',' ','r','e','a','l','t','i','m','e',' ','s',
      'i','d','e','b','a','n','d'] := by
  rfl

theorem begin_filled : BEGIN ≠ [] := by
  rewrite [begin_letters]
  decide

theorem end_filled : END ≠ [] := by
  rewrite [end_letters]
  decide

theorem end_flat : '\n' ∉ END := by
  rewrite [end_letters]
  decide

theorem prefix_line {needle line rest : Text} (flat : '\n' ∉ needle) (start : needle <+: line ++ '\n' :: rest) : needle <+: line := by
  rcases prefix_or_prefix_of_prefix start (prefix_append line ('\n' :: rest)) with inside | ⟨more,rfl⟩
  · exact inside
  · cases more with
    | nil => simp
    | cons c more =>
      have goes : c :: more <+: '\n' :: rest := (prefix_append_right_inj line).mp start
      obtain ⟨rfl,-⟩ := cons_prefix_cons.mp goes
      exact absurd (mem_append_right line mem_cons_self) flat

theorem breakOn_here {needle : Text} (filled : needle ≠ []) (tail : Text) : breakOn needle (needle ++ tail) = some ([],tail) := by
  obtain ⟨c,rest,rfl⟩ := exists_cons_of_ne_nil filled
  rw [cons_append,breakOn,if_pos (by rw [← cons_append]; exact prefix_append _ _)]
  rw [← cons_append,drop_left]

theorem breakOn_line {needle line : Text} (filled : needle ≠ []) (flat : '\n' ∉ needle) (absent : ¬ needle <:+: line) (rest : Text) :
    breakOn needle (line ++ '\n' :: rest) = (breakOn needle rest).map fun (front,tail) => (line ++ '\n' :: front,tail) := by
  induction line with
  | nil =>
    have elsewhere : ¬ needle <+: '\n' :: rest := by
      intro start
      obtain ⟨c,more,rfl⟩ := exists_cons_of_ne_nil filled
      obtain ⟨rfl,-⟩ := cons_prefix_cons.mp start
      exact flat mem_cons_self
    rw [nil_append,breakOn,if_neg elsewhere]
    rfl
  | cons c line ih =>
    have elsewhere : ¬ needle <+: c :: (line ++ '\n' :: rest) := by
      intro start
      rw [← cons_append] at start
      exact absent (prefix_line flat start).isInfix
    have later : ¬ needle <:+: line := fun inside => absent (infix_cons inside)
    rw [cons_append,breakOn,if_neg elsewhere,ih later,Option.map_map]
    rfl

theorem breakOn_absent {needle text : Text} (filled : needle ≠ []) (absent : ¬ needle <:+: text) : breakOn needle text = none := by
  induction text with
  | nil => rw [breakOn,if_neg filled]
  | cons c rest ih =>
    have elsewhere : ¬ needle <+: c :: rest := fun start => absent start.isInfix
    rw [breakOn,if_neg elsewhere,ih fun inside => absent (infix_cons inside)]
    rfl

def ended (lines : List Line) : Text := lines.flatMap fun line => line ++ ['\n']

variable {lines : List Line}

theorem breakOn_ended {needle : Text} (filled : needle ≠ []) (flat : '\n' ∉ needle)
    (absent : ∀ line ∈ lines, ¬ needle <:+: line) (tail : Text) :
    breakOn needle (ended lines ++ needle ++ tail) = some (ended lines,tail) := by
  induction lines with
  | nil => exact breakOn_here filled tail
  | cons line more ih =>
    obtain ⟨here,later⟩ := forall_mem_cons.mp absent
    have whole : ended (line :: more) ++ needle ++ tail = line ++ '\n' :: (ended more ++ needle ++ tail) := by simp [ended]
    rw [whole,breakOn_line filled flat here,ih later]
    simp [ended]

def trailing (lines : List Line) : Text := if lines = [] then [] else '\n' :: joinLines ['\n'] lines

theorem joinLines_trailing (line : Line) (lines : List Line) : joinLines ['\n'] (line :: lines) = line ++ trailing lines := by
  unfold trailing
  split
  case isTrue none_ => rw [none_,joinLines_singleton,append_nil]
  case isFalse some_ => rw [joinLines_cons ['\n'] line some_,append_assoc]; rfl

theorem joinLines_ended (front : List Line) (line : Line) (lines : List Line) :
    joinLines ['\n'] (front ++ line :: lines) = ended front ++ line ++ trailing lines := by
  induction front with
  | nil => exact joinLines_trailing line lines
  | cons first more ih =>
    have some_ : more ++ line :: lines ≠ [] := by simp
    rw [cons_append,joinLines_cons ['\n'] first some_,ih]
    simp [ended]

theorem dropLineEnd_trailing (lines : List Line) : dropLineEnd (trailing lines) = joinLines ['\n'] lines := by
  unfold trailing
  split
  case isTrue none_ => rw [none_]; rfl
  case isFalse => rfl

theorem line_inside (text : Text) : (∀ line ∈ (splitLines text).head?, line <+: text) ∧ ∀ line ∈ splitLines text, line <:+: text := by
  induction text with
  | nil => exact ⟨fun line member => by simp [splitLines] at member; simp [member],fun line member => by simp [splitLines] at member; simp [member]⟩
  | cons c rest ih =>
    rw [splitLines]
    split
    case isTrue =>
      refine ⟨fun line member => ?_,fun line member => ?_⟩
      · rw [List.head?_cons,Option.mem_some_iff] at member
        rw [← member]
        exact nil_prefix
      · rcases mem_cons.mp member with rfl | member
        · exact nil_infix
        · exact infix_cons (ih.2 line member)
    case isFalse =>
      split
      case isTrue crlf =>
        refine ⟨fun line member => ?_,fun line member => infix_cons (ih.2 line member)⟩
        obtain ⟨d,more,rfl⟩ : ∃ d more, rest = d :: more := exists_cons_of_ne_nil (by rintro rfl; exact absurd crlf.2 (by simp))
        have feed : d = '\n' := by simpa using crlf.2
        rw [feed,splitLines,if_pos rfl,List.head?_cons,Option.mem_some_iff] at member
        rw [← member]
        exact nil_prefix
      case isFalse =>
        obtain ⟨first,lines,split⟩ : ∃ first lines, splitLines rest = first :: lines := exists_cons_of_ne_nil (splitLines_ne_nil rest)
        rw [split] at ih ⊢
        have begins : first <+: rest := ih.1 first rfl
        refine ⟨fun line member => ?_,fun line member => ?_⟩
        · rw [List.head?_cons,Option.mem_some_iff] at member
          rw [← member]
          exact cons_prefix_cons.mpr ⟨rfl,begins⟩
        · rcases mem_cons.mp member with rfl | member
          · exact (cons_prefix_cons.mpr ⟨rfl,begins⟩).isInfix
          · exact infix_cons (ih.2 line (mem_cons_of_mem first member))

theorem isOwn_absent {text : Text} (absent : ¬ REALTIME_SIDEBAND_MARKER <:+: text) :
    ∀ line ∈ splitLines text, isOwnRealtimeSidebandLine line = false := by
  intro line member
  by_contra own
  rw [Bool.not_eq_false,isOwnRealtimeSidebandLine,Bool.and_eq_true,decide_eq_true_eq] at own
  exact absent ((own.2.isInfix.trans ( rdropWhile_prefix _ line).isInfix).trans ((line_inside text).2 line member))

theorem removeSidebandLines_absent (absent : ∀ line ∈ lines, isOwnRealtimeSidebandLine line = false) :
    ∀ inTopLevel : Bool, removeSidebandLines inTopLevel lines = lines := by
  induction lines with
  | nil => intro inTopLevel; rfl
  | cons line rest ih =>
    intro inTopLevel
    obtain ⟨here,later⟩ := forall_mem_cons.mp absent
    rw [removeSidebandLines]
    rw [here,Bool.and_false,if_neg Bool.false_ne_true,ih later]

section
variable {text : Text} (clean : ∀ line ∈ splitLines text, CleanLine line) (absent : ∀ line ∈ splitLines text, isOwnRealtimeSidebandLine line = false)
include clean absent

theorem splitLines_removeRealtime : splitLines (removeRealtimeSidebandBaseUrl text) = splitLines text := by
  rw [removeRealtimeSidebandBaseUrl,removeSidebandLines_absent absent,splitLines_joinLines (isEnding_lineEnding text) clean (splitLines_ne_nil text)]

theorem hasRealtime_eq :
    configHasTopLevelRealtimeSidebandBaseUrl text = (extractTopLevel REALTIME_SIDEBAND_KEY (splitLines text)).isSome := by
  rw [configHasTopLevelRealtimeSidebandBaseUrl,extractTopLevelLine,splitLines_removeRealtime clean absent]

end

theorem selectLines_subset {select root : Bool} {line : Line} (member : line ∈ selectLines select root lines) :
    line ∈ lines := by
  induction lines generalizing root with
  | nil => nomatch member
  | cons first rest ih =>
    rw [selectLines] at member
    split at member
    · rcases mem_cons.mp member with rfl | member
      · exact mem_cons_self
      · exact mem_cons_of_mem first (ih member)
    · exact mem_cons_of_mem first (ih member)

theorem selectLines_false {root : Bool} :
    selectLines false root (selectLines false root lines) = selectLines false root lines := by
  induction lines generalizing root with
  | nil => rfl
  | cons line rest ih =>
    conv => rhs; rw [selectLines]
    rw [selectLines]
    split
    case isTrue kept =>
      rw [selectLines]
      rw [if_pos kept,ih]
    case isFalse out =>
      -- A line that is taken out is of the root, which goes on after it.
      have inside : (root && !opensTable line) = root := by
        cases root with
        | false => rfl
        | true =>
          cases opens : opensTable line with
          | false => rfl
          | true => exact absurd (by rw [opens]; rfl) out
      rw [inside]
      exact ih

theorem not_isTable {line : Line} (plain : opensTable line = false) : isTable line = false := by
  by_contra table
  rw [Bool.not_eq_false] at table
  have opens : opensTable line = true := decide_eq_true (head?_of_isTable table)
  rw [plain] at opens
  exact absurd opens (by decide)

theorem not_realtime {line : Line} (sets : setsRootKey line = true) : assigns REALTIME_SIDEBAND_KEY line = false := by
  by_contra realtime
  rw [Bool.not_eq_false] at realtime
  have first := head?_of_assigns (k := 'e') (by decide) realtime
  rw [setsRootKey,Bool.or_eq_true] at sets
  rcases sets with sets | sets
  · have second := head?_of_assigns (k := 'm') (by decide) sets
    rw [first] at second
    exact absurd second (by decide)
  · have second := head?_of_assigns (k := 'o') (by decide) sets
    rw [first] at second
    exact absurd second (by decide)

theorem extractTopLevel_selectLines (lines : List Line) :
    extractTopLevel REALTIME_SIDEBAND_KEY (selectLines false true lines) = extractTopLevel REALTIME_SIDEBAND_KEY lines := by
  have all_kept : ∀ lines : List Line, selectLines false false lines = lines := by
    intro lines
    induction lines with
    | nil => rfl
    | cons line rest ih =>
      rw [selectLines]
      rw [Bool.false_and,Bool.false_and,if_pos rfl,ih]
  induction lines with
  | nil => rfl
  | cons line rest ih =>
    rw [selectLines]
    rw [Bool.true_and]
    cases opens : opensTable line with
    | true =>
      rw [Bool.not_true,Bool.false_and,if_pos rfl,all_kept]
    | false =>
      rw [Bool.not_false,Bool.true_and]
      split
      case isTrue kept =>
        rw [extractTopLevel,extractTopLevel,ih]
      case isFalse out =>
        have sets : setsRootKey line = true := by
          cases sets : setsRootKey line with
          | true => rfl
          | false => exact absurd sets out
        rw [extractTopLevel,not_isTable opens,not_realtime sets]
        exact ih

/-! ### The block's own lines -/

theorem escapeChar_plain {c : Char} (high : 128 ≤ c.toNat) : escapeChar c = [c] := by
  have differs : ∀ low : Char, low.toNat < 128 → c ≠ low := by
    rintro low below rfl
    exact absurd high (by omega)
  have control : ¬ (c.toNat < 32 ∨ c.toNat = 127) := by omega
  unfold escapeChar
  rw [if_neg (differs _ (by decide)),if_neg (differs _ (by decide)),if_neg (differs _ (by decide)),if_neg (differs _ (by decide)),
    if_neg (differs _ (by decide)),if_neg (differs _ (by decide)),if_neg (differs _ (by decide)),if_neg control]

/-- What holds of the escape of every character below 128, and of every other character,
    holds of all escapes. -/
theorem escapeChar_cases {P : Char → List Char → Prop} (low : ∀ n < 128, P (Char.ofNat n) (escapeChar (Char.ofNat n)))
    (high : ∀ c : Char, 128 ≤ c.toNat → P c [c]) (c : Char) : P c (escapeChar c) := by
  by_cases below : c.toNat < 128
  · have here := low c.toNat below
    rwa [Char.ofNat_toNat] at here
  · rw [escapeChar_plain (Nat.not_lt.mp below)]
    exact high c (Nat.not_lt.mp below)

/-- A fragment that `new URL` finds empty hides nothing but blanks and control characters. -/
def Fragments (parseUrl : Text → Option Url) : Prop :=
  ∀ text url, parseUrl text = some url → url.hash = [] → ∀ front after, text = front ++ '#' :: after → ∀ c ∈ after, c.toNat ≤ 32

/-- No `v` comes after a `#`. -/
def Unmarked (text : Text) : Prop := text.Pairwise fun first second => ¬ (first = '#' ∧ second = 'v')

instance (text : Text) : Decidable (Unmarked text) := inferInstanceAs (Decidable (List.Pairwise _ _))

variable {baseUrl : Text}

theorem unmarked_of_accepted {parseUrl : Text → Option Url} (fragments : Fragments parseUrl)
    (accepted : (parseUrl baseUrl).any Url.isProxyOrigin = true) : Unmarked baseUrl := by
  obtain ⟨url,parsed,origin⟩ : ∃ url, parseUrl baseUrl = some url ∧ url.isProxyOrigin = true := by
    cases parsed : parseUrl baseUrl with
    | none => rw [parsed] at accepted; nomatch accepted
    | some url => rw [parsed] at accepted; exact ⟨url,rfl,accepted⟩
  have hash : url.hash = [] := by
    simp only [Url.isProxyOrigin,Bool.and_eq_true,decide_eq_true_eq] at origin
    exact origin.1.2
  have hidden := fragments baseUrl url parsed hash
  have all : ∀ text front : Text, baseUrl = front ++ text → Unmarked text := by
    intro text
    induction text with
    | nil => intro front _; exact List.Pairwise.nil
    | cons c rest ih =>
      intro front whole
      refine List.Pairwise.cons ?_ (ih (front ++ [c]) (by rw [whole]; simp))
      rintro d member ⟨rfl,rfl⟩
      exact absurd (hidden front rest whole 'v' member) (by decide)
  exact all baseUrl [] rfl

theorem mem_escapeChar (c : Char) : ∀ d ∈ escapeChar c, (d = '#' → c = '#') ∧ (d = 'v' → c = 'v') := by
  have all : (escapeChar c).all (fun d => decide ((d = '#' → c = '#') ∧ (d = 'v' → c = 'v'))) = true := by
    refine escapeChar_cases (P := fun c text => text.all (fun d => decide ((d = '#' → c = '#') ∧ (d = 'v' → c = 'v'))) = true) (by decide) ?_ c
    intro c _
    rw [all_cons,decide_eq_true ⟨id,id⟩]
    rfl
  exact fun d member => of_decide_eq_true (all_eq_true.mp all d member)

theorem unmarked_escapeChar (c : Char) : Unmarked (escapeChar c) := by
  refine escapeChar_cases (P := fun _ text => Unmarked text) (by decide) ?_ c
  intro c _
  exact pairwise_singleton _ c

theorem unmarked_literal (unmarked : Unmarked baseUrl) : Unmarked (tomlStringLiteral baseUrl) := by
  have escaped : Unmarked (baseUrl.flatMap escapeChar) := by
    refine pairwise_flatMap.mpr ⟨fun c _ => unmarked_escapeChar c,unmarked.imp fun differs first firstIn second secondIn marks => ?_⟩
    exact differs ⟨(mem_escapeChar _ first firstIn).1 marks.1,(mem_escapeChar _ second secondIn).2 marks.2⟩
  refine List.Pairwise.cons ?_ (pairwise_append.mpr ⟨escaped,pairwise_singleton _ _,?_⟩)
  · rintro c - ⟨quote,-⟩
    exact absurd quote (by decide)
  · rintro c - d member ⟨-,rfl⟩
    exact absurd (mem_singleton.mp member) (by decide)

theorem Unmarked.append_left {front text : Text} (plain : '#' ∉ front) (unmarked : Unmarked text) : Unmarked (front ++ text) := by
  have none_ : ∀ c ∈ front, c ≠ '#' := fun c member same => plain (same ▸ member)
  refine pairwise_append.mpr ⟨?_,unmarked,fun c member d _ marks => none_ c member marks.1⟩
  exact pairwise_of_forall_mem_list fun c member d _ marks => none_ c member marks.1

theorem Unmarked.append_right {text tail : Text} (unmarked : Unmarked text) (plain : 'v' ∉ tail) : Unmarked (text ++ tail) := by
  have none_ : ∀ c ∈ tail, c ≠ 'v' := fun c member same => plain (same ▸ member)
  refine pairwise_append.mpr ⟨unmarked,?_,fun c _ d member marks => none_ d member marks.2⟩
  exact pairwise_of_forall_mem_list fun c _ d member marks => none_ d member marks.2

theorem end_absent {line : Text} (unmarked : Unmarked line) : ¬ END <:+: line := by
  intro inside
  have marked : ¬ Unmarked END := by
    rewrite [end_letters]
    decide
  exact marked (unmarked.sublist inside.sublist)

def blockFront (hasRealtime : Bool) (baseUrl : Text) : List Line :=
  [BEGIN,providerLine,baseUrlLine baseUrl] ++ if hasRealtime then [] else [createRealtimeSidebandConfigLine baseUrl]

theorem nativeBlock_append (hasRealtime : Bool) (baseUrl : Text) (kept : List Line) :
    nativeBlock hasRealtime baseUrl ++ kept = blockFront hasRealtime baseUrl ++ END :: kept := by
  simp [nativeBlock,blockFront]

theorem unmarked_realtimeLine (unmarked : Unmarked baseUrl) : Unmarked (createRealtimeSidebandConfigLine baseUrl) := by
  unfold createRealtimeSidebandConfigLine
  have key : '#' ∉ REALTIME_SIDEBAND_KEY ++ " = ".toList := by
    rewrite [realtimeKey_letters]
    decide
  have marker : 'v' ∉ [' '] ++ REALTIME_SIDEBAND_MARKER := by
    rewrite [realtimeMarker_letters]
    decide
  rw [append_assoc]
  exact Unmarked.append_right (Unmarked.append_left key (unmarked_literal unmarked)) marker

theorem blockFront_unmarked (unmarked : Unmarked baseUrl) (hasRealtime : Bool) :
    ∀ line ∈ blockFront hasRealtime baseUrl, ¬ END <:+: line := by
  intro line member
  rcases mem_append.mp member with member | member
  · simp only [mem_cons,not_mem_nil,or_false] at member
    rcases member with rfl | rfl | rfl
    · rewrite [begin_letters,end_letters]
      decide
    · refine end_absent ?_
      rewrite [providerLine_letters]
      decide
    · have key : '#' ∉ OPENAI_BASE_URL ++ " = ".toList := by
        rewrite [openaiBaseUrl_letters]
        decide
      exact end_absent (Unmarked.append_left key (unmarked_literal unmarked))
  · cases hasRealtime with
    | true => nomatch member
    | false =>
      rw [mem_singleton.mp member]
      exact end_absent (unmarked_realtimeLine unmarked)

/-- The block that a bind has written is found, and what follows it are the lines it kept. -/
theorem withoutNativeBlock_bound (unmarked : Unmarked baseUrl) (hasRealtime : Bool) (kept : List Line) :
    withoutNativeBlock (joinLines ['\n'] (nativeBlock hasRealtime baseUrl ++ kept)) = some (joinLines ['\n'] kept) := by
  have text : joinLines ['\n'] (nativeBlock hasRealtime baseUrl ++ kept) =
      ended (blockFront hasRealtime baseUrl) ++ END ++ trailing kept := by
    rw [nativeBlock_append,joinLines_ended]
  obtain ⟨rest,begins⟩ : ∃ rest, ended (blockFront hasRealtime baseUrl) ++ END ++ trailing kept = BEGIN ++ rest := by
    refine ⟨'\n' :: (ended ([providerLine,baseUrlLine baseUrl] ++ if hasRealtime then [] else [createRealtimeSidebandConfigLine baseUrl]) ++
      END ++ trailing kept),?_⟩
    simp [ended,blockFront]
  have first : breakOn BEGIN (BEGIN ++ rest) = some ([],rest) := breakOn_here begin_filled rest
  have last := breakOn_ended end_filled end_flat (blockFront_unmarked unmarked hasRealtime) (trailing kept)
  rw [text,begins,withoutNativeBlock,first]
  dsimp only
  rw [← begins,last,Option.map_some,nil_append,dropLineEnd_trailing]

section
variable {parseUrl : Text → Option Url} {baseUrl content : Text} (accepted : (parseUrl baseUrl).any Url.isProxyOrigin = true)
include accepted

theorem rewrite_of_unbound {inner : Text} (clean : ∀ line ∈ splitLines inner, CleanLine line)
    (absent : ∀ line ∈ splitLines inner, isOwnRealtimeSidebandLine line = false) (unbound : withoutNativeBlock content = some inner) :
    rewriteNativeProviderConfig parseUrl content baseUrl =
      some (joinLines ['\n'] (nativeBlock (extractTopLevel REALTIME_SIDEBAND_KEY (splitLines inner)).isSome baseUrl ++
        selectLines false true (splitLines inner))) := by
  have lines := splitLines_removeRealtime clean absent
  have has : configHasTopLevelRealtimeSidebandBaseUrl (removeRealtimeSidebandBaseUrl inner) =
      (extractTopLevel REALTIME_SIDEBAND_KEY (splitLines inner)).isSome := by
    rw [hasRealtime_eq (by rwa [lines]) (by rwa [lines]),lines]
  rw [rewriteNativeProviderConfig,if_pos accepted,unbound,Option.map_some]
  dsimp only
  rw [has,rootLines,lines]

/-- A text without the markers, and with clean lines. -/
structure Foreign (content : Text) : Prop where
  clean : ∀ line ∈ splitLines content, CleanLine line
  begin_ : ¬ BEGIN <:+: content
  realtime : ¬ REALTIME_SIDEBAND_MARKER <:+: content

omit accepted in
theorem Foreign.unbound (foreign : Foreign content) : withoutNativeBlock content = some content := by
  rw [withoutNativeBlock,breakOn_absent begin_filled foreign.begin_]

theorem rewrite_lines (foreign : Foreign content) :
    rewriteNativeProviderConfig parseUrl content baseUrl =
      some (joinLines ['\n'] (nativeBlock (extractTopLevel REALTIME_SIDEBAND_KEY (splitLines content)).isSome baseUrl ++
        selectLines false true (splitLines content))) :=
  rewrite_of_unbound accepted foreign.clean (isOwn_absent foreign.realtime) foreign.unbound

theorem rewrite_again (unmarked : Unmarked baseUrl) (foreign : Foreign content) (some_ : selectLines false true (splitLines content) ≠ []) :
    rewriteNativeProviderConfig parseUrl
        (joinLines ['\n'] (nativeBlock (extractTopLevel REALTIME_SIDEBAND_KEY (splitLines content)).isSome baseUrl ++
          selectLines false true (splitLines content))) baseUrl =
      some (joinLines ['\n'] (nativeBlock (extractTopLevel REALTIME_SIDEBAND_KEY (splitLines content)).isSome baseUrl ++
        selectLines false true (splitLines content))) := by
  have cleanKept : ∀ line ∈ selectLines false true (splitLines content), CleanLine line :=
    fun line member => foreign.clean line (selectLines_subset member)
  have absentKept : ∀ line ∈ selectLines false true (splitLines content), isOwnRealtimeSidebandLine line = false :=
    fun line member => isOwn_absent foreign.realtime line (selectLines_subset member)
  have lines : splitLines (joinLines ['\n'] (selectLines false true (splitLines content))) = selectLines false true (splitLines content) :=
    splitLines_joinLines (Or.inl rfl) cleanKept some_
  rw [rewrite_of_unbound accepted (by rwa [lines]) (by rwa [lines]) (withoutNativeBlock_bound unmarked _ _),lines,
    selectLines_false,extractTopLevel_selectLines]

theorem rewrite_again_none (unmarked : Unmarked baseUrl) (hasRealtime : Bool) :
    rewriteNativeProviderConfig parseUrl (joinLines ['\n'] (nativeBlock hasRealtime baseUrl)) baseUrl =
      some (joinLines ['\n'] (nativeBlock (extractTopLevel REALTIME_SIDEBAND_KEY [[]]).isSome baseUrl ++ selectLines false true [[]])) := by
  have bound := withoutNativeBlock_bound unmarked hasRealtime []
  rw [append_nil,joinLines_nil] at bound
  have lines : splitLines [] = [[]] := rfl
  have plain : isOwnRealtimeSidebandLine [] = false := by
    unfold isOwnRealtimeSidebandLine assigns ConfigToml.afterKey
    rewrite [realtimeKey_letters]
    rfl
  have clean : ∀ line ∈ splitLines [], CleanLine line := by
    rw [lines]
    intro line member
    rw [mem_singleton.mp member]
    exact ⟨not_mem_nil,by decide⟩
  have absent : ∀ line ∈ splitLines [], isOwnRealtimeSidebandLine line = false := by
    rw [lines]
    intro line member
    rw [mem_singleton.mp member]
    exact plain
  have same := rewrite_of_unbound accepted clean absent bound
  rwa [lines] at same

end

end CodexMultiAuth.NativeProvider
