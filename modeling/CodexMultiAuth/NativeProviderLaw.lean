import CodexMultiAuth.NativeProviderRows

/-!
The native provider binding in TOML. The lines that a bind takes out of the root are
settings of the two keys, if no statement of more lines is broken (`Unbroken`). What is
left is read under the block as it was read before, just where it has no part in the
keys of the block.
-/
namespace CodexMultiAuth.NativeProvider
open List ConfigToml
open ConfigToml (Line Text splitLines joinLines tomlStringLiteral createRealtimeSidebandConfigLine extractTopLevel
  MODEL_PROVIDER REALTIME_SIDEBAND_KEY REALTIME_SIDEBAND_MARKER CleanLine)
open Toml (Scan Key Path Value Statement Rows Row Document Silent acts apply currentAfter readStatements nothing scanLine isOver isTextChar
  readStatement statementText skipBlanks readDocument)

/-- Whether the lines after these are taken for lines of the root. -/
def rootAfter (root : Bool) (lines : List Line) : Bool := root && lines.all fun line => !opensTable line

theorem selectLines_append (select root : Bool) (first second : List Line) :
    selectLines select root (first ++ second) = selectLines select root first ++ selectLines select (rootAfter root first) second := by
  induction first generalizing root with
  | nil => simp [selectLines,rootAfter]
  | cons line rest ih =>
    have after : rootAfter (root && !opensTable line) rest = rootAfter root (line :: rest) := by
      simp [rootAfter,Bool.and_assoc]
    rw [cons_append,selectLines,selectLines,ih,after]
    split <;> rfl

theorem selectLines_length (root : Bool) (lines : List Line) :
    (selectLines false root lines).length + (selectLines true root lines).length = lines.length := by
  induction lines generalizing root with
  | nil => rfl
  | cons line rest ih =>
    have here := ih (root && !opensTable line)
    rw [selectLines,selectLines]
    cases (root && !opensTable line) && setsRootKey line with
    | true =>
      rw [if_neg (by decide),if_pos rfl,length_cons,length_cons]
      omega
    | false =>
      rw [if_pos rfl,if_neg (by decide),length_cons,length_cons]
      omega

theorem selectLines_true_nil {root : Bool} {lines : List Line} (kept : selectLines false root lines = lines) : selectLines true root lines = [] := by
  have lengths := selectLines_length root lines
  rw [kept] at lengths
  exact length_eq_zero_iff.mp (by omega)

theorem selectLines_outside (lines : List Line) : selectLines false false lines = lines := by
  induction lines with
  | nil => rfl
  | cons line rest ih =>
    rw [selectLines]
    rw [Bool.false_and,Bool.false_and,if_pos rfl,ih]

theorem selectLines_single {root : Bool} {line : Line} (goes : selectLines false root [line] ≠ [line]) :
    root = true ∧ opensTable line = false ∧ setsRootKey line = true ∧ selectLines false root [line] = [] ∧ selectLines true root [line] = [line] := by
  rw [selectLines] at goes ⊢
  rw [selectLines]
  cases root with
  | false => exact absurd (if_pos rfl) goes
  | true =>
    cases opens : opensTable line with
    | true =>
      rw [opens] at goes
      exact absurd (if_pos rfl) goes
    | false =>
      cases sets : setsRootKey line with
      | false =>
        rw [opens,sets] at goes
        exact absurd (if_pos rfl) goes
      | true =>
        refine ⟨rfl,rfl,rfl,rfl,?_⟩
        rw [selectLines,opens,sets]
        rfl

/-- No statement of more lines loses any of them. -/
def Unbroken : Bool → List (List Line) → Prop
  | _,[] => True
  | root,lines :: rest => (lines.length = 1 ∨ selectLines false root lines = lines) ∧ Unbroken (rootAfter root lines) rest

def keptRows : Bool → List Row → List Row
  | _,[] => []
  | root,row :: rest =>
    if selectLines false root row.1 = row.1 then row :: keptRows (rootAfter root row.1) rest else keptRows (rootAfter root row.1) rest

def removedRows : Bool → List Row → List Row
  | _,[] => []
  | root,row :: rest =>
    if selectLines false root row.1 = row.1 then removedRows (rootAfter root row.1) rest else row :: removedRows (rootAfter root row.1) rest

variable {rows : List Row}

theorem mem_of_keptRows {row : Row} : ∀ {root : Bool}, row ∈ keptRows root rows → row ∈ rows := by
  induction rows with
  | nil => intro root member; nomatch member
  | cons first rest ih =>
    intro root member
    rw [keptRows] at member
    split at member
    case isTrue => exact (mem_cons.mp member).elim (fun same => same ▸ mem_cons_self) fun later => mem_cons_of_mem first (ih later)
    case isFalse => exact mem_cons_of_mem first (ih member)

theorem mem_of_removedRows {row : Row} : ∀ {root : Bool}, row ∈ removedRows root rows → row ∈ rows := by
  induction rows with
  | nil => intro root member; nomatch member
  | cons first rest ih =>
    intro root member
    rw [removedRows] at member
    split at member
    case isTrue => exact mem_cons_of_mem first (ih member)
    case isFalse => exact (mem_cons.mp member).elim (fun same => same ▸ mem_cons_self) fun later => mem_cons_of_mem first (ih later)

theorem removedRows_outside (rows : List Row) : removedRows false rows = [] := by
  induction rows with
  | nil => rfl
  | cons row rest ih =>
    have after : rootAfter false row.1 = false := rfl
    rw [removedRows,if_pos (selectLines_outside row.1),after,ih]

theorem select_rows : ∀ {root : Bool}, Unbroken root (rows.map Prod.fst) →
    selectLines false root (rows.map Prod.fst).flatten = ((keptRows root rows).map Prod.fst).flatten ∧
      selectLines true root (rows.map Prod.fst).flatten = ((removedRows root rows).map Prod.fst).flatten := by
  induction rows with
  | nil => intro root _; exact ⟨rfl,rfl⟩
  | cons row rest ih =>
    intro root whole
    obtain ⟨kept,removed⟩ := ih whole.2
    rw [map_cons,flatten_cons,selectLines_append,selectLines_append,keptRows,removedRows,kept,removed]
    by_cases stays : selectLines false root row.1 = row.1
    · rw [if_pos stays,if_pos stays,stays,selectLines_true_nil stays]
      exact ⟨rfl,rfl⟩
    · obtain ⟨line,single⟩ := length_eq_one_iff.mp (whole.1.resolve_right stays)
      rw [single] at stays
      obtain ⟨-,-,-,gone,back⟩ := selectLines_single stays
      rw [single,if_neg stays,if_neg stays,gone,back,map_cons,flatten_cons,single]
      exact ⟨rfl,rfl⟩

section
variable {lines : List Line} {rows : List Row} (made : Rows lines rows) (whole : Unbroken true (rows.map Prod.fst))
include made whole

theorem rows_kept : Rows (selectLines false true lines) (keptRows true rows) where
  lines := by rw [made.lines]; exact (select_rows whole).1
  complete row member := made.complete row (mem_of_keptRows member)
  read row member := made.read row (mem_of_keptRows member)

theorem rows_removed : Rows (selectLines true true lines) (removedRows true rows) where
  lines := by rw [made.lines]; exact (select_rows whole).2
  complete row member := made.complete row (mem_of_removedRows member)
  read row member := made.read row (mem_of_removedRows member)

end

def rootKeys : List Key := [ MODEL_PROVIDER,OPENAI_BASE_URL]

theorem bare_modelProvider : Bare MODEL_PROVIDER := by
  rewrite [modelProvider_letters]
  exact ⟨by decide,by decide⟩

theorem bare_openaiBaseUrl : Bare OPENAI_BASE_URL := by
  rewrite [openaiBaseUrl_letters]
  exact ⟨by decide,by decide⟩

theorem bare_realtime : Bare REALTIME_SIDEBAND_KEY := by
  rewrite [realtimeKey_letters]
  exact ⟨by decide,by decide⟩

theorem statement_removed {line : Line} {statement : Statement} (sets : setsRootKey line = true) (read : readStatement line = some statement) :
    ∃ key ∈ rootKeys, ∃ value, statement = .assign [key] value := by
  rw [setsRootKey,Bool.or_eq_true] at sets
  rcases sets with provider | url
  · exact ⟨MODEL_PROVIDER,mem_cons_self,statement_of_assigns bare_modelProvider provider read⟩
  · exact ⟨OPENAI_BASE_URL,mem_cons_of_mem _ mem_cons_self,statement_of_assigns bare_openaiBaseUrl url read⟩

theorem opensTable_of_header {line : Line} {more : List Line} (opens : (skipBlanks (statementText (line :: more))).head? = some '[') :
    opensTable line = true := by
  have here : (skipBlanks line).head? = some '[' := by
    cases more with
    | nil => rwa [Toml.statementText_singleton] at opens
    | cons next rest =>
      have text : statementText (line :: next :: rest) = line ++ '\n' :: statementText (next :: rest) := by
        simp [statementText,List.intercalate]
      rw [text,skipBlanks_line] at opens
      split at opens
      case isTrue => cases opens
      case isFalse filled =>
        obtain ⟨c,others,same⟩ := exists_cons_of_ne_nil filled
        rwa [same] at opens ⊢
  rcases skipBlanks_or line with same | ⟨c,rest,same,space⟩
  · rw [same] at here
    exact decide_eq_true here
  · rw [same] at here
    rw [Option.some.inj here] at space
    exact absurd space (by decide)

theorem currentAfter_root {row : Row} (filled : row.1 ≠ []) (read : readStatement (statementText row.1) = some row.2) {root : Bool}
    (stays : rootAfter root row.1 = true) (current : Path) : currentAfter current row.2 = current := by
  obtain ⟨line,more,same⟩ := exists_cons_of_ne_nil filled
  refine currentAfter_of_read read (fun opens => ?_) current
  rw [same] at opens stays
  rw [rootAfter,all_cons,opensTable_of_header opens,Bool.not_true,Bool.false_and,Bool.and_false] at stays
  exact Bool.false_ne_true stays

/-! ### The order of statements -/

theorem readStatements_past {keys : List Key} {moved more : List Statement} {statement : Statement} (stays : currentAfter [] statement = [])
    (silent : ∀ key ∈ keys, ¬ acts key [] statement) (settings : ∀ other ∈ moved, ∃ key ∈ keys, ∃ value, other = .assign [key] value) :
    ∀ document, readStatements [] document (moved ++ statement :: more) =
      (apply [] statement document).bind fun document => readStatements [] document (moved ++ more) := by
  induction moved with
  | nil =>
    intro document
    rw [nil_append,readStatements,stays]
    rfl
  | cons first rest ih =>
    intro document
    obtain ⟨here,later⟩ := forall_mem_cons.mp settings
    obtain ⟨key,among,value,rfl⟩ := here
    have after : currentAfter [] (.assign [key] value) = [] := rfl
    calc readStatements [] document (.assign [key] value :: rest ++ statement :: more)
      _ = (apply [] (.assign [key] value) document).bind fun document =>
            (apply [] statement document).bind fun document => readStatements [] document (rest ++ more) := by
          rw [cons_append,readStatements,after]
          exact congrArg _ (funext fun document => ih later document)
      _ = (apply [] statement document).bind fun document =>
            (apply [] (.assign [key] value) document).bind fun document => readStatements [] document (rest ++ more) := by
          rw [← Option.bind_assoc,Toml.apply_assign_comm (silent key among) document,Option.bind_assoc]
      _ = _ := by
          refine congrArg _ (funext fun document => ?_)
          rw [cons_append,readStatements,after]

/-- The rows of a text are read. -/
def Read (rows : List Row) : Prop := ∀ row ∈ rows, row.1 ≠ [] ∧ readStatement (statementText row.1) = some row.2

theorem settings_removed : ∀ {root : Bool}, Read rows → Unbroken root (rows.map Prod.fst) →
    ∀ statement ∈ (removedRows root rows).map Prod.snd, ∃ key ∈ rootKeys, ∃ value, statement = .assign [key] value := by
  induction rows with
  | nil => intro root _ _ statement member; nomatch member
  | cons first rest ih =>
    intro root read whole statement member
    obtain ⟨⟨-,here⟩,later⟩ := forall_mem_cons.mp read
    rw [removedRows] at member
    split at member
    case isTrue => exact ih later whole.2 statement member
    case isFalse goes =>
      rcases mem_cons.mp member with rfl | member
      · obtain ⟨line,single⟩ := length_eq_one_iff.mp (whole.1.resolve_right goes)
        rw [single] at goes here
        rw [Toml.statementText_singleton] at here
        exact statement_removed (selectLines_single goes).2.2.1 here
      · exact ih later whole.2 statement member

theorem settings_silent {keys : List Key} {moved : List Statement} (settings : ∀ other ∈ moved, ∃ key ∈ keys, ∃ value, other = .assign [key] value) :
    moved.foldl currentAfter [] = [] ∧ ∀ key, key ∉ keys → Silent key [] moved := by
  induction moved with
  | nil => exact ⟨rfl,fun _ _ => trivial⟩
  | cons first rest ih =>
    obtain ⟨here,later⟩ := forall_mem_cons.mp settings
    obtain ⟨key,among,value,rfl⟩ := here
    obtain ⟨current,silent⟩ := ih later
    refine ⟨current,fun other outside => ⟨?_,silent other outside⟩⟩
    rintro ⟨edit,targeted⟩
    obtain ⟨rfl,-⟩ := Prod.mk.inj (Option.some.inj targeted)
    exact outside among

theorem readStatements_removed_first : ∀ {root : Bool} {current : Path}, Read rows → Unbroken root (rows.map Prod.fst) →
    (root = true → current = []) → (∀ key ∈ rootKeys, Silent key current ((keptRows root rows).map Prod.snd)) → ∀ document,
      readStatements current document ((removedRows root rows ++ keptRows root rows).map Prod.snd) =
        readStatements current document (rows.map Prod.snd) := by
  induction rows with
  | nil => intro root current _ _ _ _ document; rfl
  | cons row rest ih =>
    intro root current read whole inRoot silent document
    obtain ⟨⟨filled,here⟩,later⟩ := forall_mem_cons.mp read
    rw [keptRows] at silent
    rw [removedRows,keptRows]
    have follows := @ih (rootAfter root row.1) (currentAfter current row.2) later whole.2
    by_cases stays : selectLines false root row.1 = row.1
    · rw [if_pos stays] at silent
      rw [if_pos stays,if_pos stays]
      have quiet : ∀ key ∈ rootKeys, Silent key (currentAfter current row.2) ((keptRows (rootAfter root row.1) rest).map Prod.snd) :=
        fun key among => (silent key among).2
      cases opened : rootAfter root row.1 with
      | false =>
        -- Nothing goes any more.
        rw [opened] at follows quiet
        rw [removedRows_outside] at follows ⊢
        rw [nil_append,map_cons,map_cons,readStatements,readStatements]
        exact congrArg _ (funext fun document => follows (fun root => absurd root Bool.false_ne_true) quiet document)
      | true =>
        have inside : root = true := by
          rw [rootAfter,Bool.and_eq_true] at opened
          exact opened.1
        obtain rfl := inRoot inside
        have next : currentAfter [] row.2 = [] := currentAfter_root filled here opened []
        have unbroken : Unbroken true (rest.map Prod.fst) := opened ▸ whole.2
        have settings := settings_removed later unbroken
        rw [opened,next] at follows quiet
        rw [map_append,map_cons,readStatements_past next (fun key among => (silent key among).1) settings,map_cons,readStatements,next]
        refine congrArg _ (funext fun document => ?_)
        rw [← map_append]
        exact follows (fun _ => rfl) quiet document
    · rw [if_neg stays] at silent
      rw [if_neg stays,if_neg stays]
      obtain ⟨line,single⟩ := length_eq_one_iff.mp (whole.1.resolve_right stays)
      have goes := selectLines_single (single ▸ stays)
      obtain rfl := inRoot goes.1
      obtain ⟨key,-,value,same⟩ := statement_removed goes.2.2.1 (by rw [← Toml.statementText_singleton line,← single]; exact here)
      have next : currentAfter [] row.2 = [] := by rw [same]; rfl
      rw [next] at follows
      rw [cons_append,map_cons,map_cons,readStatements,readStatements,next]
      exact congrArg _ (funext fun document => follows (fun _ => rfl) silent document)

def hasRealtimeLine (lines : List Line) : Bool := (extractTopLevel REALTIME_SIDEBAND_KEY lines).isSome

def blockKeys (hasRealtime : Bool) : List Key := rootKeys ++ if hasRealtime then [] else [REALTIME_SIDEBAND_KEY]

def blockDocument (hasRealtime : Bool) (baseUrl : Text) : Document :=
  let bound := Function.update (Function.update nothing MODEL_PROVIDER (some (.value (.string "openai".toList))))
    OPENAI_BASE_URL (some (.value (.string baseUrl)))
  if hasRealtime then bound else Function.update bound REALTIME_SIDEBAND_KEY (some (.value (.string baseUrl)))

def blockRows (hasRealtime : Bool) (baseUrl : Text) : List Row :=
  [([BEGIN],.blank),([providerLine],.assign [ MODEL_PROVIDER] (.string "openai".toList)),
    ([baseUrlLine baseUrl],.assign [OPENAI_BASE_URL] (.string baseUrl))] ++
    (if hasRealtime then [] else [([createRealtimeSidebandConfigLine baseUrl],.assign [REALTIME_SIDEBAND_KEY] (.string baseUrl))]) ++
    [([END],.blank)]

theorem rows_begin : Rows [BEGIN] [([BEGIN],.blank)] := by
  refine Rows.single ?_ ?_
  · rewrite [begin_letters]
    decide
  · rewrite [begin_letters]
    rfl

theorem rows_end : Rows [END] [([END],.blank)] := by
  refine Rows.single ?_ ?_
  · rewrite [end_letters]
    decide
  · rewrite [end_letters]
    rfl

theorem rows_setting {key : Text} (bare : Bare key) (value : Text) {tail : Text} (apart : tail.head? ≠ some '"') (text : tail.all isTextChar = true)
    (closed : Toml.atLineEnd (Toml.scanChars (.code 0) tail) = some (.code 0)) (over_ : isOver tail = true) :
    Rows [key ++ " = ".toList ++ tomlStringLiteral value ++ tail]
      [([key ++ " = ".toList ++ tomlStringLiteral value ++ tail],.assign [key] (.string value))] :=
  Rows.single (scan_setting bare value apart text closed) (read_setting bare value apart over_)

theorem rows_provider : Rows [providerLine] [([providerLine],.assign [ MODEL_PROVIDER] (.string "openai".toList))] := by
  have line : providerLine = MODEL_PROVIDER ++ " = ".toList ++ tomlStringLiteral "openai".toList ++ [] := rfl
  rw [line]
  exact rows_setting bare_modelProvider _ (by decide) rfl rfl rfl

theorem rows_baseUrl (baseUrl : Text) : Rows [baseUrlLine baseUrl] [([baseUrlLine baseUrl],.assign [OPENAI_BASE_URL] (.string baseUrl))] := by
  have line : baseUrlLine baseUrl = OPENAI_BASE_URL ++ " = ".toList ++ tomlStringLiteral baseUrl ++ [] := (List.append_nil _).symm
  rw [line]
  exact rows_setting bare_openaiBaseUrl _ (by decide) rfl rfl rfl

theorem rows_realtime (baseUrl : Text) :
    Rows [createRealtimeSidebandConfigLine baseUrl] [([createRealtimeSidebandConfigLine baseUrl],.assign [REALTIME_SIDEBAND_KEY] (.string baseUrl))] := by
  have line : createRealtimeSidebandConfigLine baseUrl =
      REALTIME_SIDEBAND_KEY ++ " = ".toList ++ tomlStringLiteral baseUrl ++ ([' '] ++ REALTIME_SIDEBAND_MARKER) := List.append_assoc _ _ _
  rw [line]
  refine rows_setting bare_realtime _ (by simp) ?_ ?_ ?_
  · rewrite [realtimeMarker_letters]
    decide
  · rewrite [realtimeMarker_letters]
    decide
  · rewrite [realtimeMarker_letters]
    decide

theorem rows_block (hasRealtime : Bool) (baseUrl : Text) : Rows (nativeBlock hasRealtime baseUrl) (blockRows hasRealtime baseUrl) := by
  cases hasRealtime with
  | true => exact ((rows_begin.append rows_provider).append (rows_baseUrl baseUrl)).append rows_end
  | false => exact (((rows_begin.append rows_provider).append (rows_baseUrl baseUrl)).append (rows_realtime baseUrl)).append rows_end

theorem rootKeys_differ : OPENAI_BASE_URL ≠ MODEL_PROVIDER ∧ REALTIME_SIDEBAND_KEY ∉ rootKeys := by
  unfold rootKeys
  rewrite [openaiBaseUrl_letters,ConfigToml.modelProvider_letters,realtimeKey_letters]
  decide

theorem readStatements_block (hasRealtime : Bool) (baseUrl : Text) (more : List Statement) :
    readStatements [] nothing ((blockRows hasRealtime baseUrl).map Prod.snd ++ more) = readStatements [] (blockDocument hasRealtime baseUrl) more := by
  obtain ⟨url,realtime⟩ := rootKeys_differ
  have provider : REALTIME_SIDEBAND_KEY ≠ MODEL_PROVIDER := fun same => realtime (by rw [same]; exact List.mem_cons_self)
  have other : REALTIME_SIDEBAND_KEY ≠ OPENAI_BASE_URL := fun same => realtime (by rw [same]; exact List.mem_cons_of_mem _ List.mem_cons_self)
  have free : Function.update nothing MODEL_PROVIDER (some (Toml.Node.value (.string "openai".toList))) OPENAI_BASE_URL = none := Function.update_of_ne url _ _
  cases hasRealtime with
  | true =>
    show readStatements [] nothing (.blank :: .assign [ MODEL_PROVIDER] _ :: .assign [OPENAI_BASE_URL] _ :: .blank :: more) = _
    rw [Toml.readStatements_blank,Toml.readStatements_assign rfl,Toml.readStatements_assign free,Toml.readStatements_blank]
    rfl
  | false =>
    show readStatements [] nothing
      (.blank :: .assign [ MODEL_PROVIDER] _ :: .assign [OPENAI_BASE_URL] _ :: .assign [REALTIME_SIDEBAND_KEY] _ :: .blank :: more) = _
    rw [Toml.readStatements_blank,Toml.readStatements_assign rfl,Toml.readStatements_assign free,
      Toml.readStatements_assign (by rw [Function.update_of_ne other,Function.update_of_ne provider]; rfl),Toml.readStatements_blank]
    rfl

/-- Just these keys are bound, and to values. -/
def Binds (document : Document) (keys : List Key) : Prop :=
  ∀ key, (key ∈ keys → ∃ value, document key = some (.value value)) ∧ (key ∉ keys → document key = none)

theorem Binds.update {document : Document} {keys : List Key} (binds : Binds document keys) (key : Key) (value : Value) :
    Binds (Function.update document key (some (.value value))) (keys ++ [key]) := by
  intro other
  by_cases same : other = key
  · subst same
    rw [Function.update_self]
    exact ⟨fun _ => ⟨value,rfl⟩,fun outside => absurd (List.mem_append_right keys List.mem_cons_self) outside⟩
  · rw [Function.update_of_ne same]
    refine ⟨fun member => (binds other).1 ?_,fun outside => (binds other).2 fun member => outside (List.mem_append_left _ member)⟩
    exact (List.mem_append.mp member).elim id fun last => absurd (List.mem_singleton.mp last) same

theorem blockDocument_binds (hasRealtime : Bool) (baseUrl : Text) : Binds (blockDocument hasRealtime baseUrl) (blockKeys hasRealtime) := by
  have empty : Binds nothing [] := fun key => ⟨fun member => (List.not_mem_nil member).elim,fun _ => rfl⟩
  have bound := (empty.update MODEL_PROVIDER (.string "openai".toList)).update OPENAI_BASE_URL (.string baseUrl)
  cases hasRealtime with
  | true => exact bound
  | false => exact bound.update REALTIME_SIDEBAND_KEY (.string baseUrl)

/-! ### Binding and unbinding -/

/-- No statement that stays acts on a root key that the block sets. -/
def Unshared (hasRealtime : Bool) (rows : List Row) : Prop :=
  ∀ key ∈ blockKeys hasRealtime, Silent key [] ((keptRows true rows).map Prod.snd)

section
variable {lines : List Line} {rows : List Row} {document : Document} (made : Rows lines rows)
include made

theorem rows_read : Read rows := fun row member => ⟨(made.complete row member).ne_nil,made.read row member⟩

variable (whole : Unbroken true (rows.map Prod.fst)) (read : readStatements [] nothing (rows.map Prod.snd) = some document)
include whole

theorem readDocument_bound (hasRealtime : Bool) (baseUrl : Text) :
    readDocument (nativeBlock hasRealtime baseUrl ++ selectLines false true lines) =
      readStatements [] (blockDocument hasRealtime baseUrl) ((keptRows true rows).map Prod.snd) := by
  rw [((rows_block hasRealtime baseUrl).append (rows_kept made whole)).readDocument,List.map_append,readStatements_block]

variable {hasRealtime : Bool}

theorem unshared_of_valid {baseUrl : Text} {after : Document}
    (valid : readDocument (nativeBlock hasRealtime baseUrl ++ selectLines false true lines) = some after) : Unshared hasRealtime rows := by
  intro key among
  rw [readDocument_bound made whole] at valid
  obtain ⟨value,bound⟩ := (blockDocument_binds hasRealtime baseUrl key).1 among
  exact Toml.silent_of_read bound valid

include read

theorem readDocument_restored (unshared : Unshared hasRealtime rows) :
    readDocument (selectLines true true lines ++ selectLines false true lines) = some document := by
  have silent : ∀ key ∈ rootKeys, Silent key [] ((keptRows true rows).map Prod.snd) :=
    fun key among => unshared key (List.mem_append_left _ among)
  rw [((rows_removed made whole).append (rows_kept made whole)).readDocument,
    readStatements_removed_first (rows_read made) whole (fun _ => rfl) silent nothing,read]

theorem valid_of_unshared (unshared : Unshared hasRealtime rows) (baseUrl : Text) :
    ∃ after, readDocument (nativeBlock hasRealtime baseUrl ++ selectLines false true lines) = some after ∧
      ∀ key, key ∉ blockKeys hasRealtime → after key = document key := by
  have restored := readDocument_restored made whole read unshared
  rw [((rows_removed made whole).append (rows_kept made whole)).readDocument,List.map_append,Toml.readStatements_append] at restored
  obtain ⟨first,removed,later⟩ := Option.bind_eq_some_iff.mp restored
  obtain ⟨current,silent⟩ := settings_silent (settings_removed (rows_read made) whole)
  rw [current] at later
  have agree : ∀ key, key ∉ blockKeys hasRealtime → blockDocument hasRealtime baseUrl key = first key := by
    intro key outside
    have free := Toml.readStatements_kept (silent key fun among => outside (List.mem_append_left _ among)) removed
    rw [free,(blockDocument_binds hasRealtime baseUrl key).2 outside]
    rfl
  obtain ⟨after,bound,-,elsewhere⟩ := Toml.readStatements_elsewhere unshared agree later
  exact ⟨after,(readDocument_bound made whole hasRealtime baseUrl).trans bound,elsewhere⟩

end

theorem cleanLine_of_text {line : Line} (text : line.all isTextChar = true) : CleanLine line := by
  have not_ : ∀ {c : Char}, isTextChar c = false → c ∉ line := by
    intro c control member
    rw [List.all_eq_true.mp text c member] at control
    exact absurd control (by decide)
  exact ⟨not_ (by decide),fun last => not_ (by decide) (List.mem_of_getLast? last)⟩

theorem trimText_begin : ConfigToml.trimText BEGIN = BEGIN := by
  rewrite [begin_letters]
  decide

theorem extractTopLevel_empty : (extractTopLevel REALTIME_SIDEBAND_KEY [[]]).isSome = false := by
  unfold extractTopLevel ConfigToml.assigns ConfigToml.afterKey
  rewrite [realtimeKey_letters]
  rfl

theorem selectLines_empty : selectLines false true [[]] = [[]] := by
  have sets : setsRootKey [] = false := by
    unfold setsRootKey ConfigToml.assigns ConfigToml.afterKey
    rewrite [ConfigToml.modelProvider_letters,openaiBaseUrl_letters]
    rfl
  rw [selectLines,sets]
  rfl

/-- Binding a text edits the root keys of the block only, is done once, and undoes itself. -/
def BindsOnlyRoot (parseUrl : Text → Option Url) (raw baseUrl : Text) (document : Document) : Prop :=
  ∃ bound, rewriteNativeProviderConfig parseUrl raw baseUrl = some bound ∧
    (∃ after, readDocument (splitLines bound) = some after ∧
      ∀ key, key ∉ rootKeys → (key = REALTIME_SIDEBAND_KEY → createRealtimeSidebandConfigLine baseUrl ∉ splitLines bound) →
        after key = document key) ∧
    rewriteNativeProviderConfig parseUrl bound baseUrl = some bound ∧
    ∃ restored, restoreNativeProviderConfig bound raw = some restored ∧ readDocument (splitLines restored) = some document

section
variable {parseUrl : Text → Option Url} {raw baseUrl : Text} {rows : List Row} {document : Document}
  (accepted : (parseUrl baseUrl).any Url.isProxyOrigin = true) (unmarked : Unmarked baseUrl)
  (begin_ : ¬ BEGIN <:+: raw) (marker : ¬ REALTIME_SIDEBAND_MARKER <:+: raw) (made : Rows (splitLines raw) rows)

include begin_ marker made in
theorem foreign_of_rows : Foreign raw where
  clean line member := cleanLine_of_text (made.text line member)
  begin_ := begin_
  realtime := marker

include made in
theorem splitLines_selected {front : List Line} (text : ∀ line ∈ front, line.all isTextChar = true) {select : Bool}
    (some_ : front ++ selectLines select true (splitLines raw) ≠ []) :
    splitLines (joinLines ['\n'] (front ++ selectLines select true (splitLines raw))) = front ++ selectLines select true (splitLines raw) := by
  refine ConfigToml.splitLines_joinLines (Or.inl rfl) (fun line member => cleanLine_of_text ?_) some_
  exact (List.mem_append.mp member).elim (text line) fun kept => made.text line (selectLines_subset kept)

include accepted unmarked begin_ marker made in
theorem binds_of_unshared (whole : Unbroken true (rows.map Prod.fst)) (read : readStatements [] nothing (rows.map Prod.snd) = some document)
    (unshared : Unshared (hasRealtimeLine (splitLines raw)) rows) (left_ : selectLines false true (splitLines raw) ≠ []) :
    BindsOnlyRoot parseUrl raw baseUrl document := by
  have foreign := foreign_of_rows begin_ marker made
  have block : ∀ line ∈ nativeBlock (hasRealtimeLine (splitLines raw)) baseUrl, line.all isTextChar = true := (rows_block _ _).text
  have lines := @splitLines_selected raw rows made _ block false (by simp [nativeBlock])
  have kept := @splitLines_selected raw rows made [] (List.forall_mem_nil _) false left_
  have removed : ∀ line ∈ selectLines true true (splitLines raw), line.all isTextChar = true :=
    fun line member => made.text line (selectLines_subset member)
  have back := @splitLines_selected raw rows made _ removed false (fun none_ => left_ (List.append_eq_nil_iff.mp none_).2)
  refine ⟨_,rewrite_lines accepted foreign,?_,rewrite_again accepted unmarked foreign left_,
    joinLines ['\n'] (selectLines true true (splitLines raw) ++ selectLines false true (splitLines raw)),?_,?_⟩
  · obtain ⟨after,valid,same⟩ := valid_of_unshared made whole read unshared baseUrl
    refine ⟨after,(congrArg readDocument lines).trans valid,fun key outside own => same key fun among => ?_⟩
    rcases List.mem_append.mp among with among | realtime
    · exact outside among
    · cases has : hasRealtimeLine (splitLines raw) with
      | true =>
        rw [has] at realtime
        cases realtime
      | false =>
        rw [has] at realtime
        have written : createRealtimeSidebandConfigLine baseUrl ∈ nativeBlock (hasRealtimeLine (splitLines raw)) baseUrl := by
          rw [has]
          simp [nativeBlock]
        refine own (List.mem_singleton.mp realtime) ?_
        rw [← hasRealtimeLine,lines]
        exact List.mem_append_left _ written
  · have has : hasNativeProviderConfig (joinLines ['\n'] (nativeBlock (hasRealtimeLine (splitLines raw)) baseUrl ++
        selectLines false true (splitLines raw))) = true := by
      rw [hasNativeProviderConfig,lines]
      exact List.any_eq_true.mpr ⟨BEGIN,List.mem_cons_self,decide_eq_true trimText_begin⟩
    rw [restoreNativeProviderConfig]
    rw [hasRealtimeLine] at has
    rw [if_pos has,withoutNativeBlock_bound unmarked,Option.map_some,rootLines,rootLines]
    rw [List.nil_append] at kept
    rw [kept,selectLines_false]
  · rw [back]
    exact readDocument_restored made whole read unshared

include accepted unmarked begin_ marker made in
theorem left_of_binds (binds : BindsOnlyRoot parseUrl raw baseUrl document) : selectLines false true (splitLines raw) ≠ [] := by
  obtain ⟨bound,rewritten,-,again,-⟩ := binds
  rw [rewrite_lines accepted (foreign_of_rows begin_ marker made)] at rewritten
  obtain rfl := Option.some.inj rewritten
  intro none_
  -- With no line left, the next bind puts a line end after the block.
  have without : (extractTopLevel REALTIME_SIDEBAND_KEY (splitLines raw)).isSome = false := by
    rw [← extractTopLevel_selectLines,none_]
    rfl
  rw [none_,List.append_nil,without,rewrite_again_none accepted unmarked] at again
  have block : ∀ line ∈ nativeBlock false baseUrl, CleanLine line := fun line member => cleanLine_of_text ((rows_block _ _).text line member)
  have more : ∀ line ∈ nativeBlock false baseUrl ++ [[]], CleanLine line := by
    intro line member
    refine (List.mem_append.mp member).elim (block line) fun last => ?_
    rw [List.mem_singleton.mp last]
    exact cleanLine_of_text rfl
  rw [extractTopLevel_empty,selectLines_empty] at again
  have same := congrArg splitLines (Option.some.inj again)
  rw [ConfigToml.splitLines_joinLines (Or.inl rfl) more (by simp),
    ConfigToml.splitLines_joinLines (Or.inl rfl) block (by simp [nativeBlock])] at same
  have lengths := congrArg List.length same
  rw [List.length_append,List.length_singleton] at lengths
  omega

include accepted begin_ marker made in
theorem unshared_of_binds (whole : Unbroken true (rows.map Prod.fst)) (binds : BindsOnlyRoot parseUrl raw baseUrl document) :
    Unshared (hasRealtimeLine (splitLines raw)) rows := by
  obtain ⟨bound,rewritten,⟨after,valid,-⟩,-⟩ := binds
  rw [rewrite_lines accepted (foreign_of_rows begin_ marker made)] at rewritten
  obtain rfl := Option.some.inj rewritten
  have lines := @splitLines_selected raw rows made _ (rows_block (hasRealtimeLine (splitLines raw)) baseUrl).text false (by simp [nativeBlock])
  exact unshared_of_valid made whole ((congrArg readDocument lines).symm.trans valid)

end

/-- No statement of more lines loses any of them. -/
def Whole (raw : Text) : Prop := ∀ rows, Rows (splitLines raw) rows → Unbroken true (rows.map Prod.fst)

/-- No statement that stays acts on a root key that the block sets. -/
def Free (raw : Text) : Prop := ∀ rows, Rows (splitLines raw) rows → Unshared (hasRealtimeLine (splitLines raw)) rows

/-- Where no statement of more lines is broken, a bind edits the root only if what stays
    leaves the keys of the block to it, and any line stays. -/
theorem binds_only_root {parseUrl : Text → Option Url} (fragments : Fragments parseUrl) {raw baseUrl : Text} {document : Document}
    (accepted : (parseUrl baseUrl).any Url.isProxyOrigin = true) (begin_ : ¬ BEGIN <:+: raw) (marker : ¬ REALTIME_SIDEBAND_MARKER <:+: raw)
    (valid : readDocument (splitLines raw) = some document) (whole : Whole raw) :
    BindsOnlyRoot parseUrl raw baseUrl document ↔ Free raw ∧ selectLines false true (splitLines raw) ≠ [] := by
  have unmarked := unmarked_of_accepted fragments accepted
  constructor
  · intro binds
    obtain ⟨rows,made,-⟩ := Toml.rows_of_readDocument valid
    exact ⟨fun rows made => unshared_of_binds accepted begin_ marker made (whole rows made) binds,
      left_of_binds accepted unmarked begin_ marker made binds⟩
  · rintro ⟨free,left_⟩
    obtain ⟨rows,made,read⟩ := Toml.rows_of_readDocument valid
    exact binds_of_unshared accepted unmarked begin_ marker made (whole rows made) read (free rows made) left_

def localOrigin : Text := ['h','t','t','p',':','/','/','1','2','7','.','0','.','0','.','1',':','8','0','8','0']

def localUrl : Url where
  protocol := "http:".toList
  hostname := "127.0.0.1".toList
  port := "8080".toList
  username := []
  password := []
  search := []
  hash := []
  pathname := ['/']

def parseLocal (text : Text) : Option Url := if text = localOrigin then some localUrl else none

theorem parseLocal_fragments : Fragments parseLocal := by
  intro text url parsed _ front after whole
  unfold parseLocal at parsed
  split at parsed
  case isTrue same =>
    have hash : '#' ∈ localOrigin := by
      rw [← same,whole]
      exact List.mem_append_right _ List.mem_cons_self
    exact absurd hash (by decide)
  case isFalse => nomatch parsed

theorem parseLocal_accepted : (parseLocal localOrigin).any Url.isProxyOrigin = true := rfl

/-- `model_provider = "x"` -/
def otherProvider : Line := ['m','o','d','e','l','_','p','r','o','v','i','d','e','r',' ','=',' ','"','x','"']

/-- Another provider, a key `x` and a table with a key. -/
def plainLines : List Line := [otherProvider,['x',' ','=',' ','1'],['[','t',']'],['k',' ','=',' ','2']]

def plainText : Text := joinLines ['\n'] plainLines

def plainRows : List Row :=
  [([otherProvider],.assign [ MODEL_PROVIDER] (.string ['x'])),([['x',' ','=',' ','1']],.assign [['x']] (.scalar ['1'])),
    ([['[','t',']']],.table [['t']]),([['k',' ','=',' ','2']],.assign [['k']] (.scalar ['2']))]

theorem plainRows_made : Rows plainLines plainRows :=
  have tail : Rows ([['x',' ','=',' ','1']] ++ ([['[','t',']']] ++ [['k',' ','=',' ','2']])) plainRows.tail :=
    (Rows.single (by decide) rfl).append ((Rows.single (by decide) rfl).append (Rows.single (by decide) rfl))
  (show Rows [otherProvider] _ from Rows.single (by decide) rfl).append tail

theorem plainLines_kept : selectLines false true plainLines = plainLines.tail ∧ keptRows true plainRows = plainRows.tail := by
  have sets : setsRootKey otherProvider = true := by
    unfold setsRootKey assigns afterKey
    rewrite [modelProvider_letters]
    decide
  have spares : setsRootKey ['x',' ','=',' ','1'] = false := by
    unfold setsRootKey assigns afterKey
    rewrite [modelProvider_letters,openaiBaseUrl_letters]
    decide
  constructor
  · rw [plainLines,selectLines,sets,selectLines,spares]
    rfl
  · rw [plainRows,keptRows,keptRows]
    simp only [selectLines,sets,spares]
    rfl

theorem plain_binds_iff : ∃ document, readDocument (splitLines plainText) = some document ∧ BindsOnlyRoot parseLocal plainText localOrigin document := by
  have lines : splitLines plainText = plainLines :=
    splitLines_joinLines (Or.inl rfl) (fun line member => cleanLine_of_text (plainRows_made.text line member)) (cons_ne_nil _ _)
  have made : Rows (splitLines plainText) plainRows := by
    rw [lines]
    exact plainRows_made
  have begin_ : ¬ BEGIN <:+: plainText := by rewrite [begin_letters]; decide
  have marker : ¬ REALTIME_SIDEBAND_MARKER <:+: plainText := by rewrite [realtimeMarker_letters]; decide
  have apart : ∀ hasRealtime, ∀ key ∈ blockKeys hasRealtime, ['x'] ≠ key ∧ ['t'] ≠ key := by
    unfold blockKeys rootKeys
    rewrite [modelProvider_letters,openaiBaseUrl_letters,realtimeKey_letters]
    decide
  obtain ⟨document,valid⟩ : ∃ document, readDocument (splitLines plainText) = some document := by
    rw [made.readDocument]
    show ∃ document, readStatements [] nothing [.assign [ MODEL_PROVIDER] _,.assign [['x']] _,.table [['t']],.assign [['k']] _] = some document
    obtain ⟨unbound,untabled⟩ := apart true _ (mem_append_left _ mem_cons_self)
    rw [Toml.readStatements_assign rfl,Toml.readStatements_assign (Function.update_of_ne unbound _ _)]
    simp [readStatements,Toml.apply,Toml.target,Toml.openTable,Toml.currentAfter,Toml.within,Toml.alter,Toml.assignAt,Toml.lookup,Function.update_of_ne untabled,nothing]
  refine ⟨document,valid,(binds_only_root parseLocal_fragments parseLocal_accepted begin_ marker valid fun rows other => ?_).mpr
    ⟨fun rows other key among => ?_,?_⟩⟩
  · rw [other.unique made]
    exact ⟨Or.inl rfl,Or.inl rfl,Or.inl rfl,Or.inl rfl,trivial⟩
  · rw [other.unique made,plainLines_kept.2]
    obtain ⟨unbound,untabled⟩ := apart _ key among
    refine ⟨?_,?_,?_,trivial⟩
    · rintro ⟨edit,targeted⟩
      exact unbound (Prod.mk.inj (Option.some.inj targeted)).1
    · rintro ⟨edit,targeted⟩
      exact untabled (Prod.mk.inj (Option.some.inj targeted)).1
    · rintro ⟨edit,targeted⟩
      exact untabled (Prod.mk.inj (Option.some.inj targeted)).1
  · rw [lines,plainLines_kept.1]
    exact cons_ne_nil _ _

/-- An array with a row in brackets, and the provider after it. -/
def arrayLines : List Line :=
  [['x','s',' ','=',' ','['],[' ','[','1',']',','],[']'],otherProvider,[]]

def arrayText : Text := joinLines ['\n'] arrayLines

def arrayRows : List Row :=
  [(arrayLines.take 3,.assign [['x','s']] (.array [.array [.scalar ['1']]])),
    ([otherProvider],.assign [ MODEL_PROVIDER] (.string ['x'])),
    ([[]],.blank)]

theorem arrayRows_made : Rows arrayLines arrayRows where
  lines := rfl
  complete := by
    rintro row (_ | ⟨_,_ | ⟨_,_ | ⟨_,member⟩⟩⟩)
    · decide
    · decide
    · decide
    · nomatch member
  read := by
    rintro row (_ | ⟨_,_ | ⟨_,_ | ⟨_,member⟩⟩⟩)
    · rfl
    · rfl
    · rfl
    · nomatch member

theorem keptRows_outside (rows : List Row) : keptRows false rows = rows := by
  induction rows with
  | nil => rfl
  | cons row rest ih =>
    have after : rootAfter false row.1 = false := rfl
    rw [keptRows,if_pos (selectLines_outside row.1),after,ih]

theorem array_kept : selectLines false true (arrayLines.take 3) = arrayLines.take 3 := by
  have sets : setsRootKey ['x','s',' ','=',' ','['] = false := by
    unfold setsRootKey assigns afterKey
    rewrite [modelProvider_letters,openaiBaseUrl_letters]
    decide
  show selectLines false true [['x','s',' ','=',' ','['],[' ','[','1',']',','],[']']] = _
  rw [selectLines,sets]
  rfl

/-- A row in brackets ends the root for a bind, which then sets the provider twice. -/
theorem provider_after_array_set_twice : ¬ ∀ (parseUrl : Text → Option Url) (raw baseUrl : Text) (document : Document), Fragments parseUrl →
    (parseUrl baseUrl).any Url.isProxyOrigin = true → ¬ BEGIN <:+: raw → ¬ END <:+: raw → ¬ REALTIME_SIDEBAND_MARKER <:+: raw →
    readDocument (splitLines raw) = some document → BindsOnlyRoot parseUrl raw baseUrl document := by
  intro claim
  have lines : splitLines arrayText = arrayLines :=
    splitLines_joinLines (Or.inl rfl) (fun line member => cleanLine_of_text (arrayRows_made.text line member)) (cons_ne_nil _ _)
  have made : Rows (splitLines arrayText) arrayRows := by
    rw [lines]
    exact arrayRows_made
  have begin_ : ¬ BEGIN <:+: arrayText := by rewrite [begin_letters]; decide
  have end_ : ¬ END <:+: arrayText := by rewrite [end_letters]; decide
  have marker : ¬ REALTIME_SIDEBAND_MARKER <:+: arrayText := by rewrite [realtimeMarker_letters]; decide
  have differ : MODEL_PROVIDER ≠ ['x','s'] := by
    rewrite [modelProvider_letters]
    decide
  have valid : readDocument (splitLines arrayText) =
      some (Function.update (Function.update nothing ['x','s'] (some (.value (.array [.array [.scalar ['1']]])))) MODEL_PROVIDER
        (some (.value (.string ['x'])))) := by
    rw [made.readDocument]
    show readStatements [] nothing [.assign [['x','s']] _,.assign [ MODEL_PROVIDER] _,.blank] = _
    rw [Toml.readStatements_assign rfl,Toml.readStatements_assign (Function.update_of_ne differ _ _),Toml.readStatements_blank]
    rfl
  have binds := claim parseLocal arrayText localOrigin _ parseLocal_fragments parseLocal_accepted begin_ end_ marker valid
  have whole : Unbroken true (arrayRows.map Prod.fst) := ⟨Or.inr array_kept,Or.inl rfl,Or.inl rfl,trivial⟩
  have silent := unshared_of_binds parseLocal_accepted begin_ marker made whole binds MODEL_PROVIDER (mem_append_left _ mem_cons_self)
  have kept : keptRows true arrayRows = arrayRows := by
    have after : rootAfter true (arrayLines.take 3) = false := by decide
    rw [arrayRows,keptRows,if_pos array_kept,after,keptRows_outside]
  rw [kept] at silent
  exact silent.2.1 ⟨_,rfl⟩

end CodexMultiAuth.NativeProvider
