import CodexMultiAuth.TomlStatement

/-!
The bindings of a TOML text. A statement under the key `k` of the root acts on what is bound to
`k` and on nothing else, so a root key can be bound, or the statements that bind it left
out, without a change to the bindings of the others (`readDocument_update`).
-/
namespace CodexMultiAuth.Toml

open List Option Function

/-- What has created a table. -/
inductive Origin where
  /-- The header of a table in it. -/
  | implicit
  | header
  | dotted
  deriving DecidableEq

inductive Node where
  | value (value : Value)
  | table (origin : Origin) (entries : List (Key × Node))
  /-- The elements of an array of tables. -/
  | tables (elements : List (List (Key × Node)))

abbrev Entries := List (Key × Node)

/-- What a statement makes of what is bound to a key; nothing where it is not allowed. -/
abbrev Edit := Option Node → Option Node

def lookup (key : Key) (entries : Entries) : Option Node := (entries.find? fun entry => decide (entry.1 = key)).map Prod.snd

def put (key : Key) (node : Node) (entries : Entries) : Entries :=
  if entries.any (fun entry => decide (entry.1 = key)) then
    entries.map fun entry => if entry.1 = key then (key,node) else entry
  else entries ++ [(key,node)]

def alter (key : Key) (edit : Edit) (entries : Entries) : Option Entries :=
  (edit (lookup key entries)).map fun node => put key node entries

/-- A dotted key goes through tables that dotted keys have created. -/
def assignAt : Path → Value → Edit
  | [],value,none => some (.value value)
  | [],_,some _ => none
  | key :: rest,value,none => (alter key (assignAt rest value) []).map (.table .dotted)
  | key :: rest,value,some (.table .dotted entries) => (alter key (assignAt rest value) entries).map (.table .dotted)
  | _ :: _,_,some _ => none

/-- An edit of the table of a header; an array of tables stands for its last element. -/
def within : Path → (Entries → Option Entries) → Edit
  | [],edit,some (.table origin entries) => (edit entries).map (.table origin)
  | key :: rest,edit,some (.table origin entries) => (alter key (within rest edit) entries).map (.table origin)
  | path,edit,some (.tables elements) =>
    elements.getLast?.bind fun last =>
      (match path with
        | [] => edit last
        | key :: rest => alter key (within rest edit) last).map fun last => .tables (elements.dropLast ++ [last])
  | _,_,_ => none

/-- The header of a table that no header has defined before. -/
def openTable : Path → Edit
  | [],none => some (.table .header [])
  | [],some (.table .implicit entries) => some (.table .header entries)
  | [],some _ => none
  | key :: rest,none => (alter key (openTable rest) []).map (.table .implicit)
  | key :: rest,some (.table origin entries) => (alter key (openTable rest) entries).map (.table origin)
  | key :: rest,some (.tables elements) =>
    elements.getLast?.bind fun last => (alter key (openTable rest) last).map fun last => .tables (elements.dropLast ++ [last])
  | _ :: _,some (.value _) => none

/-- One more element of an array of tables. -/
def openElement : Path → Edit
  | [],none => some (.tables [[]])
  | [],some (.tables elements) => some (.tables (elements ++ [[]]))
  | [],some _ => none
  | key :: rest,none => (alter key (openElement rest) []).map (.table .implicit)
  | key :: rest,some (.table origin entries) => (alter key (openElement rest) entries).map (.table origin)
  | key :: rest,some (.tables elements) =>
    elements.getLast?.bind fun last => (alter key (openElement rest) last).map fun last => .tables (elements.dropLast ++ [last])
  | _ :: _,some (.value _) => none

theorem assignAt_value (path : Path) (value bound : Value) : assignAt path value (some (.value bound)) = none := by
  cases path <;> rfl

theorem within_value (path : Path) (edit : Entries → Option Entries) (bound : Value) : within path edit (some (.value bound)) = none := by
  cases path <;> rfl

theorem openTable_value (path : Path) (bound : Value) : openTable path (some (.value bound)) = none := by
  cases path <;> rfl

theorem openElement_value (path : Path) (bound : Value) : openElement path (some (.value bound)) = none := by
  cases path <;> rfl

abbrev Document := Key → Option Node

/-- The root key that a statement acts on under the table of the last header, and how. -/
def target (current : Path) : Statement → Option (Key × Edit)
  | .blank => none
  | .assign [] _ => none
  | .assign (key :: rest) value =>
    match current with
    | [] => some (key,assignAt rest value)
    | first :: more => some (first,within more (alter key (assignAt rest value)))
  | .table [] => none
  | .table (key :: rest) => some (key,openTable rest)
  | .arrayTable [] => none
  | .arrayTable (key :: rest) => some (key,openElement rest)

/-- The table that the next assignments go to. -/
def currentAfter (current : Path) : Statement → Path
  | .blank => current
  | .assign _ _ => current
  | .table path => path
  | .arrayTable path => path

def apply (current : Path) (statement : Statement) (document : Document) : Option Document :=
  match target current statement with
  | none => some document
  | some (key,edit) => (edit (document key)).map fun node => Function.update document key (some node)

def readStatements : Path → Document → List Statement → Option Document
  | _,document,[] => some document
  | current,document,statement :: rest =>
    (apply current statement document).bind fun document => readStatements (currentAfter current statement) document rest

def nothing : Document := fun _ => none

/-- The lines of a statement as one text. -/
def statementText (lines : List (List Char)) : List Char := List.intercalate ['\n'] lines

/-- The bindings that the lines of a text make, if they are valid. -/
def readDocument (lines : List (List Char)) : Option Document :=
  (statements .start [] lines).bind fun segments =>
    (segments.mapM fun lines => readStatement (statementText lines)).bind fun statements => readStatements [] nothing statements

/-! ### One root key beside the others -/

def acts (key : Key) : Path → Statement → Prop
  | current,statement => ∃ edit, target current statement = some (key,edit)

/-- None of the statements acts on the key. -/
def Silent (key : Key) : Path → List Statement → Prop
  | _,[] => True
  | current,statement :: rest => ¬ acts key current statement ∧ Silent key (currentAfter current statement) rest

variable {key : Key} {statement : Statement}

theorem apply_update {current : Path} (silent : ¬ acts key current statement) (document : Document)
    (node : Option Node) :
    apply current statement (Function.update document key node) =
      (apply current statement document).map fun document => Function.update document key node := by
  unfold apply
  cases targeted : target current statement with
  | none => rfl
  | some pair =>
    obtain ⟨other,edit⟩ := pair
    have differs : other ≠ key := fun same => silent ⟨edit,by rw [targeted,same]⟩
    dsimp only
    rw [update_of_ne differs]
    cases edit (document other) with
    | none => rfl
    | some bound =>
      dsimp only [map_some]
      rw [update_comm differs.symm]

variable {list : List Statement}

/-- Statements that do not act on a key bind the others in the same way, whatever is bound to
    the key. -/
theorem readStatements_update :
    ∀ {current : Path}, Silent key current list → ∀ (document : Document) (node : Option Node),
      readStatements current (Function.update document key node) list =
        (readStatements current document list).map fun document => Function.update document key node := by
  induction list with
  | nil => intro current _ document node; rfl
  | cons statement rest ih =>
    intro current silent document node
    rw [readStatements,readStatements,apply_update silent.1]
    cases apply current statement document with
    | none => rfl
    | some after =>
      dsimp only [map_some,bind_some]
      exact ih silent.2 after node

theorem apply_kept {current : Path} (silent : ¬ acts key current statement) {document after : Document}
    (applied : apply current statement document = some after) : after key = document key := by
  unfold apply at applied
  cases targeted : target current statement with
  | none =>
    rw [targeted] at applied
    rw [Option.some.inj applied]
  | some pair =>
    obtain ⟨other,edit⟩ := pair
    rw [targeted] at applied
    have differs : key ≠ other := fun same => silent ⟨edit,by rw [targeted,same]⟩
    obtain ⟨node,-,rfl⟩ := map_eq_some_iff.mp applied
    exact update_of_ne differs _ _

theorem readStatements_kept :
    ∀ {current : Path} {document after : Document}, Silent key current list → readStatements current document list = some after →
      after key = document key := by
  induction list with
  | nil =>
    intro current document after _ read
    rw [← Option.some.inj read]
  | cons statement rest ih =>
    intro current document after silent read
    rw [readStatements] at read
    obtain ⟨next,applied,later⟩ := bind_eq_some_iff.mp read
    rw [ih silent.2 later,apply_kept silent.1 applied]

theorem silent_of_read :
    ∀ {current : Path} {document after : Document} {bound : Value}, document key = some (.value bound) →
      readStatements current document list = some after → Silent key current list := by
  induction list with
  | nil => intro current document after bound _ _; trivial
  | cons statement rest ih =>
    intro current document after bound taken read
    rw [readStatements] at read
    obtain ⟨next,applied,later⟩ := bind_eq_some_iff.mp read
    have here : ¬ acts key current statement := by
      rintro ⟨edit,targeted⟩
      unfold apply at applied
      rw [targeted] at applied
      dsimp only at applied
      rw [taken] at applied
      cases statement with
      | blank => nomatch targeted
      | assign path value =>
        cases path with
        | nil => nomatch targeted
        | cons first more =>
          cases current with
          | nil =>
            obtain ⟨-,rfl⟩ := Prod.mk.inj (Option.some.inj targeted)
            rw [assignAt_value] at applied
            nomatch applied
          | cons outer inner =>
            obtain ⟨-,rfl⟩ := Prod.mk.inj (Option.some.inj targeted)
            rw [within_value] at applied
            nomatch applied
      | table path =>
        cases path with
        | nil => nomatch targeted
        | cons first more =>
          obtain ⟨-,rfl⟩ := Prod.mk.inj (Option.some.inj targeted)
          rw [openTable_value] at applied
          nomatch applied
      | arrayTable path =>
        cases path with
        | nil => nomatch targeted
        | cons first more =>
          obtain ⟨-,rfl⟩ := Prod.mk.inj (Option.some.inj targeted)
          rw [openElement_value] at applied
          nomatch applied
    have same : next key = some (.value bound) := by rw [apply_kept here applied,taken]
    exact ⟨here,ih same later⟩

theorem readStatements_blank (current : Path) (document : Document) (more : List Statement) :
    readStatements current document (.blank :: more) = readStatements current document more := rfl

theorem readStatements_assign {document : Document} (free : document key = none) (value : Value) (more : List Statement) :
    readStatements [] document (.assign [key] value :: more) = readStatements [] (Function.update document key (some (.value value))) more := by
  show ((assignAt [] value (document key)).map fun node => Function.update document key (some node)).bind _ = _
  rw [free]
  rfl

theorem readStatements_append {first second : List Statement} : ∀ {current : Path} {document : Document},
    readStatements current document (first ++ second) =
      (readStatements current document first).bind fun document => readStatements (first.foldl currentAfter current) document second := by
  induction first with
  | nil => intro current document; rfl
  | cons statement rest ih =>
    intro current document
    rw [cons_append,readStatements,readStatements]
    cases apply current statement document with
    | none => rfl
    | some after => exact ih

theorem readStatements_elsewhere {current : Path} {keys : List Key} :
    ∀ {document other after : Document}, (∀ key ∈ keys, Silent key current list) → (∀ key, key ∉ keys → other key = document key) →
      readStatements current document list = some after →
      ∃ changed, readStatements current other list = some changed ∧ (∀ key ∈ keys, changed key = other key) ∧
        ∀ key, key ∉ keys → changed key = after key := by
  induction keys with
  | nil =>
    intro document other after _ agree read
    obtain rfl : other = document := funext fun key => agree key not_mem_nil
    exact ⟨after,read,fun _ member => (not_mem_nil member).elim,fun _ _ => rfl⟩
  | cons first rest ih =>
    intro document other after silent agree read
    obtain ⟨here,later⟩ := forall_mem_cons.mp silent
    have moved : readStatements current (Function.update document first (other first)) list = some (Function.update after first (other first)) := by
      rw [readStatements_update here,read]
      rfl
    have agrees : ∀ key, key ∉ rest → other key = Function.update document first (other first) key := by
      intro key outside
      by_cases same : key = first
      · rw [same,update_self]
      · rw [update_of_ne same]
        exact agree key fun member => (mem_cons.mp member).elim same outside
    obtain ⟨changed,made,inside,elsewhere⟩ := ih later agrees moved
    refine ⟨changed,made,forall_mem_cons.mpr ⟨?_,inside⟩,fun key outside => ?_⟩
    · by_cases among : first ∈ rest
      · exact inside first among
      · rw [elsewhere first among,update_self]
    · rw [elsewhere key fun member => outside (mem_cons_of_mem first member)]
      exact update_of_ne (fun same => outside (by rw [same]; exact mem_cons_self)) _ _

theorem apply_assign_comm {value : Value} (silent : ¬ acts key [] statement) (document : Document) :
    ((apply [] (.assign [key] value) document).bind fun document => apply [] statement document) =
      (apply [] statement document).bind fun document => apply [] (.assign [key] value) document := by
  have assigned : ∀ document : Document, apply [] (.assign [key] value) document =
      (assignAt [] value (document key)).map fun node => Function.update document key (some node) := fun _ => rfl
  rw [assigned]
  cases bound : document key with
  | none =>
    show apply [] statement (Function.update document key (some (.value value))) = _
    rw [apply_update silent]
    cases applied : apply [] statement document with
    | none => rfl
    | some after =>
      have kept := apply_kept silent applied
      rw [map_some,bind_some,assigned,kept,bound]
      rfl
  | some node =>
    have refused : assignAt [] value (some node) = none := rfl
    rw [refused]
    cases applied : apply [] statement document with
    | none => rfl
    | some after =>
      have kept := apply_kept silent applied
      rw [bind_some,assigned,kept,bound]
      rfl

/-! ### Texts as rows -/

theorem statementText_singleton (line : List Char) : statementText [line] = line := by simp [statementText,List.intercalate]

/-- The lines of a statement, and what it says. -/
abbrev Row := List (List Char) × Statement

/-- The rows that a text is made of. -/
structure Rows (lines : List (List Char)) (rows : List Row) : Prop where
  lines : lines = (rows.map Prod.fst).flatten
  complete : ∀ row ∈ rows, Complete row.1
  read : ∀ row ∈ rows, readStatement (statementText row.1) = some row.2

theorem Rows.append {first second : List (List Char)} {front back : List Row} (left_ : Rows first front) (right_ : Rows second back) :
    Rows (first ++ second) (front ++ back) where
  lines := by rw [left_.lines,right_.lines,map_append,flatten_append]
  complete row member := (mem_append.mp member).elim (left_.complete row) (right_.complete row)
  read row member := (mem_append.mp member).elim (left_.read row) (right_.read row)

theorem Rows.single {line : List Char} (complete : scanLine .start line = some .start)
    (read : readStatement line = some statement) : Rows [line] [([line],statement)] where
  lines := rfl
  complete row member := by
    rw [mem_singleton.mp member]
    exact complete_singleton.mpr complete
  read row member := by
    rw [mem_singleton.mp member]
    exact (congrArg readStatement (statementText_singleton line)).trans read

theorem mapM_rows {rows : List Row} (read : ∀ row ∈ rows, readStatement (statementText row.1) = some row.2) :
    (rows.map Prod.fst).mapM (fun lines => readStatement (statementText lines)) = some (rows.map Prod.snd) := by
  induction rows with
  | nil => rfl
  | cons row rest ih =>
    obtain ⟨here,later⟩ := forall_mem_cons.mp read
    rw [map_cons,mapM_cons,here,ih later]
    rfl

variable {lines : List (List Char)}

theorem Rows.readDocument {rows : List Row} (made : Rows lines rows) :
    readDocument lines = readStatements [] nothing (rows.map Prod.snd) := by
  have complete : ∀ lines ∈ rows.map Prod.fst, Complete lines := by
    intro lines member
    obtain ⟨row,inside,rfl⟩ := mem_map.mp member
    exact made.complete row inside
  rw [Toml.readDocument,made.lines,statements_flatten complete,bind_some,mapM_rows made.read,bind_some]

theorem rows_of_mapM {segments : List (List (List Char))} : ∀ {statements : List Statement},
    segments.mapM (fun lines => readStatement (statementText lines)) = some statements →
      ∃ rows : List Row, rows.map Prod.fst = segments ∧ rows.map Prod.snd = statements ∧
        ∀ row ∈ rows, readStatement (statementText row.1) = some row.2 := by
  induction segments with
  | nil =>
    intro statements read
    obtain rfl := Option.some.inj read
    exact ⟨[],rfl,rfl,fun row member => nomatch member⟩
  | cons lines more ih =>
    intro statements read
    rw [mapM_cons] at read
    obtain ⟨statement,here,later⟩ := bind_eq_some_iff.mp read
    obtain ⟨others,rest,made⟩ := bind_eq_some_iff.mp later
    obtain rfl := Option.some.inj made
    obtain ⟨rows,rfl,rfl,all⟩ := ih rest
    exact ⟨(lines,statement) :: rows,rfl,rfl,forall_mem_cons.mpr ⟨here,all⟩⟩

theorem Rows.unique {rows others : List Row} (made : Rows lines rows) (also_ : Rows lines others) : rows = others := by
  have segments : rows.map Prod.fst = others.map Prod.fst := by
    have split := fun (rows : List Row) (made : Rows lines rows) => @statements_flatten (rows.map Prod.fst) fun lines member => by
      obtain ⟨row,inside,rfl⟩ := mem_map.mp member
      exact made.complete row inside
    have first := split rows made
    have second := split others also_
    rw [← made.lines] at first
    rw [← also_.lines,first] at second
    exact Option.some.inj second
  have statements : rows.map Prod.snd = others.map Prod.snd := by
    have first := mapM_rows made.read
    rw [segments,mapM_rows also_.read] at first
    exact (Option.some.inj first).symm
  exact (zip_of_prod segments statements).trans (zip_of_prod rfl rfl).symm

theorem rows_of_readDocument {document : Document} (valid : readDocument lines = some document) :
    ∃ rows, Rows lines rows ∧ readStatements [] nothing (rows.map Prod.snd) = some document := by
  obtain ⟨segments,split,read⟩ := bind_eq_some_iff.mp valid
  obtain ⟨statements,mapped,made⟩ := bind_eq_some_iff.mp read
  obtain ⟨flat,complete⟩ := statements_complete split
  obtain ⟨rows,rfl,rfl,all⟩ := rows_of_mapM mapped
  exact ⟨rows,⟨flat,fun row member => complete _ (mem_map_of_mem member),all⟩,made⟩

theorem Rows.text {rows : List Row} (made : Rows lines rows) : ∀ line ∈ lines, line.all isTextChar = true := by
  intro line member
  rw [made.lines] at member
  obtain ⟨segment,inside,within⟩ := mem_flatten.mp member
  obtain ⟨row,among,rfl⟩ := mem_map.mp inside
  exact (made.complete row among).all_text line within

end CodexMultiAuth.Toml
