import CodexMultiAuth.ConfigLines

/-!
What each edit of `config.toml` does to the lines of its root, the lines before the
first table header, and that no edit touches the lines from there on.
-/
namespace CodexMultiAuth.ConfigToml

open List

def IsRoot (lines : List Line) : Prop := ∀ line ∈ lines, isTable line = false

/-- Nothing, or lines from a table header on. -/
def IsTables (lines : List Line) : Prop := ∀ line ∈ lines.head?, isTable line = true

def rootLines (lines : List Line) : List Line := lines.takeWhile (fun line => !isTable line)
def tableLines (lines : List Line) : List Line := lines.dropWhile (fun line => !isTable line)

variable (lines : List Line)

theorem rootLines_append_tableLines : rootLines lines ++ tableLines lines = lines :=
  takeWhile_append_dropWhile

theorem isRoot_rootLines : IsRoot (rootLines lines) := by
  intro line member
  simpa using mem_takeWhile_imp member

theorem isTables_tableLines : IsTables (tableLines lines) := by
  intro line head
  have kept := List.head?_dropWhile_not (fun line => !isTable line) lines
  unfold tableLines at head
  rw [Option.mem_def.mp head] at kept
  simpa using kept

variable {root tables : List Line}

theorem rootLines_append (isRoot : IsRoot root) (isTables : IsTables tables) :
    rootLines (root ++ tables) = root := by
  induction root with
  | nil =>
    cases tables with
    | nil => rfl
    | cons header rest => simp [rootLines,isTables header rfl]
  | cons line rest ih =>
    have tail := ih fun later member => isRoot later (mem_cons_of_mem line member)
    simpa [rootLines,isRoot line mem_cons_self] using tail

theorem IsRoot.append {first second : List Line} (left : IsRoot first) (right : IsRoot second) : IsRoot (first ++ second) := by
  intro line member
  rcases mem_append.mp member with member | member
  · exact left line member
  · exact right line member

variable {line : Line}

theorem head?_of_isTable (table : isTable line = true) : (line.dropWhile isWhiteSpace).head? = some '[' := by
  unfold isTable readTomlTableName at table
  split at table
  · rename_i rest trimmed
    obtain ⟨dropped,shape⟩ := rdropWhile_prefix isWhiteSpace (line.dropWhile isWhiteSpace)
    unfold trimText at trimmed
    rw [trimmed] at shape
    simp [← shape]
  · cases table

theorem head?_of_afterKey {same : Char → Char → Bool} {key : List Char} {line value : List Char} {k : Char}
    (starts : key.head? = some k) (found : afterKey same key line = some value) :
    ∃ c, (line.dropWhile isWhiteSpace).head? = some c ∧ same k c = true := by
  unfold afterKey at found
  simp only at found
  split_ifs at found with refused
  cases key with
  | nil => cases starts
  | cons l key =>
    cases Option.some.inj starts
    simp only [not_or,not_not] at refused
    cases start : line.dropWhile isWhiteSpace with
    | nil => simp [start] at refused
    | cons c rest =>
      simp only [start,zipWith_cons_cons,all_cons,Bool.and_eq_true,id_eq] at refused
      exact ⟨c,rfl,refused.2.1⟩

theorem head?_of_assigns {key : List Char} {k : Char} (starts : key.head? = some k) (assigned : assigns key line = true) :
    (line.dropWhile isWhiteSpace).head? = some k := by
  obtain ⟨value,found⟩ := Option.isSome_iff_exists.mp assigned
  obtain ⟨c,head,same⟩ := head?_of_afterKey starts found
  rwa [of_decide_eq_true same]

theorem head?_of_disablesStorage (disables : disablesStorage line = true) :
    ∃ c, (line.dropWhile isWhiteSpace).head? = some c ∧ sameLetter 'd' c = true := by
  unfold disablesStorage at disables
  cases found : afterKey sameLetter RESPONSE_STORAGE line with
  | none => simp [found] at disables
  | some value => exact head?_of_afterKey rfl found

theorem assigns_other {key other : List Char} {k l : Char} (starts : other.head? = some k) (begins : key.head? = some l)
    (different : l ≠ k) (assigned : assigns key line = true) : assigns other line = false := by
  by_contra both
  have here := head?_of_assigns starts (by simpa using both)
  rw [head?_of_assigns begins assigned] at here
  exact different (Option.some.inj here)

theorem isTable_of_assigns {key : List Char} {l : Char} (begins : key.head? = some l) (letter : l ≠ '[')
    (assigned : assigns key line = true) : isTable line = false := by
  by_contra table
  have here := head?_of_isTable (by simpa using table)
  rw [head?_of_assigns begins assigned] at here
  exact letter (Option.some.inj here)

theorem assigns_of_disablesStorage {key : List Char} {k : Char} (starts : key.head? = some k)
    (disables : disablesStorage line = true) (different : sameLetter 'd' k = false) : assigns key line = false := by
  by_contra assigned
  have here := head?_of_assigns starts (by simpa using assigned)
  obtain ⟨c,there,same⟩ := head?_of_disablesStorage disables
  rw [here] at there
  cases Option.some.inj there
  rw [different] at same
  cases same

/-- Lines around the first one that assigns a key, all of them before it where none does. -/
structure KeySplit (key : List Char) (lines before : List Line) (first : Option Line) (after : List Line) : Prop where
  shape : lines = before ++ first.toList ++ after
  unassigned : ∀ line ∈ before, assigns key line = false
  assigned : ∀ line ∈ first, assigns key line = true
  ends : first = none → after = []

theorem keySplit_exists (key : List Char) (lines : List Line) :
    ∃ before after, KeySplit key lines before (lines.find? (assigns key)) after := by
  cases found : lines.find? (assigns key) with
  | none => exact ⟨lines,[],by simp,by simpa using List.find?_eq_none.mp found,by simp,fun _ => rfl⟩
  | some line =>
    obtain ⟨assigned,before,after,shape,unassigned⟩ := List.find?_eq_some_iff_append.mp found
    exact ⟨before,after,by simp [shape],by simpa using unassigned,by simpa using assigned,by simp⟩

variable {before : List Line}

theorem rewriteProviderLines_skip (root : IsRoot before) (unassigned : ∀ line ∈ before, assigns MODEL_PROVIDER line = false)
    (rest : List Line) : rewriteProviderLines (before ++ rest) = before ++ rewriteProviderLines rest := by
  induction before with
  | nil => rfl
  | cons line before ih =>
    have tail := ih (fun later member => root later (mem_cons_of_mem line member))
      (fun later member => unassigned later (mem_cons_of_mem line member))
    simp [rewriteProviderLines,root line mem_cons_self,unassigned line mem_cons_self,tail]

theorem rewriteProviderLines_tables (isTables : IsTables tables) :
    rewriteProviderLines tables = rewrittenLine :: tables := by
  cases tables with
  | nil => rfl
  | cons header rest => simp [rewriteProviderLines,isTables header rfl]

theorem rewriteProviderLines_root {root before after tables : List Line} {first : Option Line} (isRoot : IsRoot root)
    (isTables : IsTables tables) (split : KeySplit MODEL_PROVIDER root before first after) :
    rewriteProviderLines (root ++ tables) = before ++ rewrittenLine :: after ++ tables := by
  have rooted : IsRoot before := fun line member => isRoot line (by simp [split.shape,member])
  rw [split.shape,append_assoc,append_assoc,rewriteProviderLines_skip rooted split.unassigned]
  cases first with
  | none => simp [split.ends rfl,rewriteProviderLines_tables isTables]
  | some line =>
    have assigned := split.assigned line rfl
    have table := isTable_of_assigns (l := 'm') rfl (by decide) assigned
    simp [rewriteProviderLines,assigned,table]

def enabledLine (line : Line) : Line := if disablesStorage line then storageLine else line

theorem enableStorageLines_tables : enableStorageLines false lines = lines := by
  induction lines with
  | nil => rfl
  | cons line rest ih => simp [enableStorageLines,ih]

theorem enableStorageLines_root (isRoot : IsRoot root) (isTables : IsTables tables) :
    enableStorageLines true (root ++ tables) = root.map enabledLine ++ tables := by
  induction root with
  | nil =>
    cases tables with
    | nil => rfl
    | cons header rest => simp [enableStorageLines,isTables header rfl,enableStorageLines_tables]
  | cons line rest ih =>
    have tail := ih fun later member => isRoot later (mem_cons_of_mem line member)
    by_cases disables : disablesStorage line = true
    · simp [enableStorageLines,isRoot line mem_cons_self,enabledLine,disables,tail]
    · simp [enableStorageLines,isRoot line mem_cons_self,enabledLine,disables,tail]

theorem extractTopLevel_root (key : List Char) (isRoot : IsRoot root) (isTables : IsTables tables) :
    extractTopLevel key (root ++ tables) = root.find? (assigns key) := by
  induction root with
  | nil =>
    cases tables with
    | nil => rfl
    | cons header rest => simp [extractTopLevel,isTables header rfl]
  | cons line rest ih =>
    have tail := ih fun later member => isRoot later (mem_cons_of_mem line member)
    by_cases assigned : assigns key line = true
    · simp [extractTopLevel,isRoot line mem_cons_self,assigned]
    · simp [extractTopLevel,isRoot line mem_cons_self,assigned,tail]

theorem removeSidebandLines_tables : removeSidebandLines false lines = lines := by
  induction lines with
  | nil => rfl
  | cons line rest ih => simp [removeSidebandLines,ih]

theorem removeSidebandLines_root (isRoot : IsRoot root) (isTables : IsTables tables) :
    removeSidebandLines true (root ++ tables) = root.filter (fun line => !isOwnRealtimeSidebandLine line) ++ tables := by
  induction root with
  | nil =>
    cases tables with
    | nil => rfl
    | cons header rest => simp [removeSidebandLines,isTables header rfl,removeSidebandLines_tables]
  | cons line rest ih =>
    have tail := ih fun later member => isRoot later (mem_cons_of_mem line member)
    by_cases own : isOwnRealtimeSidebandLine line = true
    · simp [removeSidebandLines,isRoot line mem_cons_self,own,tail]
    · simp [removeSidebandLines,isRoot line mem_cons_self,own,tail]

theorem spliceRoot_root (line : Line) (isRoot : IsRoot root) (isTables : IsTables tables) :
    spliceRoot line (root ++ tables) = root ++ line :: tables := by
  have skipped : (root.findIdx? isTable) = none := by simpa [IsRoot] using isRoot
  unfold spliceRoot
  cases tables with
  | nil => simp [skipped]
  | cons header rest =>
    rw [List.findIdx?_append,skipped]
    simp [List.findIdx?_cons,isTables header rfl]

theorem removeBlockLines_plain {lines : List Line} (foreign : ∀ line ∈ lines, readTomlTableName line ≠ some providerTable)
    (rest : List Line) : removeBlockLines false (lines ++ rest) = lines ++ removeBlockLines false rest := by
  induction lines with
  | nil => rfl
  | cons line lines ih =>
    have tail := ih fun later member => foreign later (mem_cons_of_mem line member)
    have here := foreign line mem_cons_self
    rw [cons_append,removeBlockLines,if_neg here,tail]
    split <;> simp

theorem removeBlockLines_skipping {lines : List Line} (rows : ∀ line ∈ lines, readTomlTableName line = none) :
    removeBlockLines true lines = [] := by
  induction lines with
  | nil => rfl
  | cons line lines ih =>
    have tail := ih fun later member => rows later (mem_cons_of_mem line member)
    simp [removeBlockLines,rows line mem_cons_self,tail]

theorem removeBlockLines_block {lines rows : List Line} {header : Line} (foreign : ∀ line ∈ lines, readTomlTableName line ≠ some providerTable)
    (named : readTomlTableName header = some providerTable) (plain : ∀ line ∈ rows, readTomlTableName line = none) :
    removeBlockLines false (lines ++ header :: rows) = lines := by
  rw [removeBlockLines_plain foreign,removeBlockLines,if_pos named,removeBlockLines_skipping plain,append_nil]

variable (originalLine : Option Line)

theorem restoreProviderLines_found
    (others : ∀ earlier ∈ before, isRuntimeProviderLine earlier = false) (found : isRuntimeProviderLine line = true) (after : List Line) :
    restoreProviderLines originalLine (before ++ line :: after) = (before ++ originalLine.toList ++ after,true) := by
  induction before with
  | nil => simp [restoreProviderLines,found]
  | cons earlier before ih =>
    have tail := ih fun later member => others later (mem_cons_of_mem earlier member)
    simp [restoreProviderLines,others earlier mem_cons_self,tail]

theorem restoreStorageLines_found (root : IsRoot before)
    (others : ∀ earlier ∈ before, assigns RESPONSE_STORAGE earlier = false) (found : assigns RESPONSE_STORAGE line = true)
    (after : List Line) :
    restoreStorageLines originalLine (before ++ line :: after) = (before ++ originalLine.toList ++ after,true) := by
  induction before with
  | nil => simp [restoreStorageLines,found,isTable_of_assigns (l := 'd') rfl (by decide) found]
  | cons earlier before ih =>
    have tail := ih (fun later member => root later (mem_cons_of_mem earlier member))
      (fun later member => others later (mem_cons_of_mem earlier member))
    simp [restoreStorageLines,root earlier mem_cons_self,others earlier mem_cons_self,tail]

theorem restoreStorageLines_none (isRoot : IsRoot root) (isTables : IsTables tables)
    (others : ∀ line ∈ root, assigns RESPONSE_STORAGE line = false) :
    restoreStorageLines originalLine (root ++ tables) = (root ++ tables,false) := by
  induction root with
  | nil =>
    cases tables with
    | nil => rfl
    | cons header rest => simp [restoreStorageLines,isTables header rfl]
  | cons line rest ih =>
    have tail := ih (fun later member => isRoot later (mem_cons_of_mem line member))
      (fun later member => others later (mem_cons_of_mem line member))
    simp [restoreStorageLines,isRoot line mem_cons_self,others line mem_cons_self,tail]

end CodexMultiAuth.ConfigToml
