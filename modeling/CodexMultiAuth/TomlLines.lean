import Mathlib.Data.List.Basic

/-!
The statements of a TOML text. A statement takes up whole lines: it goes on to the next line
inside of brackets and of multi-line strings, and ends with the first line that leaves
nothing open. A text whose lines are those of complete statements is split into just these
(`statements_flatten`).
-/
namespace CodexMultiAuth.Toml

/-- A character that may stand in a text: a tab, or none of the control characters. -/
def isTextChar (c : Char) : Bool := decide (c = '\t') || (decide (32 ≤ c.toNat) && decide (c.toNat ≠ 127))

/-- What is open at a character, inside of so many brackets. -/
inductive Scan where
  | code (depth : ℕ)
  | comment (depth : ℕ)
  /-- After one quote, and after two. -/
  | quote (depth : ℕ)
  | quotes (depth : ℕ)
  | basic (depth : ℕ)
  | basicEscape (depth : ℕ)
  /-- After so many quotes in a row. -/
  | multiBasic (depth closing : ℕ)
  | multiBasicEscape (depth : ℕ)
  | tick (depth : ℕ)
  | ticks (depth : ℕ)
  | literal (depth : ℕ)
  | multiLiteral (depth closing : ℕ)
  deriving DecidableEq

def codeStep (depth : ℕ) (c : Char) : Scan :=
  if c = '"' then .quote depth
  else if c = '\'' then .tick depth
  else if c = '#' then .comment depth
  else if c = '[' ∨ c = '\x7b' then .code (depth + 1)
  else if c = ']' ∨ c = '\x7d' then .code (depth - 1)
  else .code depth

/-- Up to two quotes can stand before those that close a multi-line string. -/
def scanChar : Scan → Char → Scan
  | .code depth,c => codeStep depth c
  | .comment depth,_ => .comment depth
  | .quote depth,c => if c = '"' then .quotes depth else if c = '\\' then .basicEscape depth else .basic depth
  | .quotes depth,c => if c = '"' then .multiBasic depth 0 else codeStep depth c
  | .basic depth,c => if c = '"' then .code depth else if c = '\\' then .basicEscape depth else .basic depth
  | .basicEscape depth,_ => .basic depth
  | .multiBasic depth closing,c =>
    if c = '"' then if closing = 5 then .quote depth else .multiBasic depth (closing + 1)
    else if 3 ≤ closing then codeStep depth c
    else if c = '\\' then .multiBasicEscape depth
    else .multiBasic depth 0
  | .multiBasicEscape depth,_ => .multiBasic depth 0
  | .tick depth,c => if c = '\'' then .ticks depth else .literal depth
  | .ticks depth,c => if c = '\'' then .multiLiteral depth 0 else codeStep depth c
  | .literal depth,c => if c = '\'' then .code depth else .literal depth
  | .multiLiteral depth closing,c =>
    if c = '\'' then if closing = 5 then .tick depth else .multiLiteral depth (closing + 1)
    else if 3 ≤ closing then codeStep depth c
    else .multiLiteral depth 0

/-- What is open on the next line; a single-line string must be closed. -/
def atLineEnd : Scan → Option Scan
  | .code depth => some (.code depth)
  | .comment depth => some (.code depth)
  | .quote _ => none
  | .quotes depth => some (.code depth)
  | .basic _ => none
  | .basicEscape _ => none
  | .multiBasic depth closing => some (if 3 ≤ closing then .code depth else .multiBasic depth 0)
  | .multiBasicEscape depth => some (.multiBasic depth 0)
  | .tick _ => none
  | .ticks depth => some (.code depth)
  | .literal _ => none
  | .multiLiteral depth closing => some (if 3 ≤ closing then .code depth else .multiLiteral depth 0)

def scanChars (s : Scan) (line : List Char) : Scan := line.foldl scanChar s

def scanLine (s : Scan) (line : List Char) : Option Scan :=
  if line.all isTextChar then atLineEnd (scanChars s line) else none

theorem scanChars_append (s : Scan) (first second : List Char) : scanChars s (first ++ second) = scanChars (scanChars s first) second :=
  List.foldl_append

theorem all_of_scanLine {s next : Scan} {line : List Char} (scanned : scanLine s line = some next) : line.all isTextChar = true := by
  unfold scanLine at scanned
  split at scanned
  case isTrue plain => exact plain
  case isFalse => nomatch scanned

def Scan.start : Scan := .code 0

/-- The lines of each statement; the last statement must be complete. -/
def statements : Scan → List (List Char) → List (List Char) → Option (List (List (List Char)))
  | _,current,[] => if current = [] then some [] else none
  | s,current,line :: rest =>
    match scanLine s line with
    | none => none
    | some next =>
      if next = .start then (statements next [] rest).map fun more => (current ++ [line]) :: more
      else statements next (current ++ [line]) rest

/-- With the last of the lines, and not before, nothing is open. -/
def Ends : Scan → List (List Char) → Prop
  | _,[] => False
  | s,line :: rest =>
    match scanLine s line with
    | none => False
    | some next => if next = .start then rest = [] else Ends next rest

def Complete (lines : List (List Char)) : Prop := Ends .start lines

instance Ends.decidable : (s : Scan) → (lines : List (List Char)) → Decidable (Ends s lines)
  | _,[] => isFalse id
  | s,line :: rest => by
    unfold Ends
    cases scanLine s line with
    | none => exact isFalse id
    | some next =>
      haveI := Ends.decidable next rest
      dsimp only
      infer_instance

instance (lines : List (List Char)) : Decidable (Complete lines) := Ends.decidable .start lines

variable {lines : List (List Char)}

theorem Complete.ne_nil (complete : Complete lines) : lines ≠ [] := by
  rintro rfl
  exact complete

theorem complete_singleton {line : List Char} : Complete [line] ↔ scanLine .start line = some .start := by
  unfold Complete Ends
  cases scanLine .start line with
  | none => simp
  | some next =>
    dsimp only
    by_cases closed : next = .start
    · simp [closed]
    · simp [closed,Ends]

theorem statements_append (rest : List (List Char)) :
    ∀ (s : Scan) (current : List (List Char)), Ends s lines →
      statements s current (lines ++ rest) = (statements .start [] rest).map fun more => (current ++ lines) :: more := by
  induction lines with
  | nil => intro s current ends; exact ends.elim
  | cons line more ih =>
    intro s current ends
    unfold Ends at ends
    rw [List.cons_append,statements]
    cases scanned : scanLine s line with
    | none =>
      rw [scanned] at ends
      exact ends.elim
    | some next =>
      rw [scanned] at ends
      dsimp only at ends ⊢
      by_cases closed : next = .start
      · rw [if_pos closed] at ends ⊢
        subst ends
        rw [closed]
        rfl
      · rw [if_neg closed] at ends ⊢
        rw [ih next (current ++ [line]) ends,List.append_assoc]
        rfl

theorem statements_flatten {segments : List (List (List Char))} (complete : ∀ lines ∈ segments, Complete lines) :
    statements .start [] segments.flatten = some segments := by
  induction segments with
  | nil => rfl
  | cons lines more ih =>
    obtain ⟨here,later⟩ := List.forall_mem_cons.mp complete
    rw [List.flatten_cons,statements_append more.flatten .start [] here,ih later]
    rfl

theorem statements_eq : ∀ {s : Scan} {current : List (List Char)} {segments : List (List (List Char))},
    statements s current lines = some segments →
      match segments with
      | [] => lines = [] ∧ current = []
      | first :: more => ∃ tail, first = current ++ tail ∧ Ends s tail ∧ lines = tail ++ more.flatten ∧ ∀ other ∈ more, Complete other := by
  induction lines with
  | nil =>
    intro s current segments split
    rw [statements] at split
    split at split
    case isTrue empty =>
      obtain rfl := Option.some.inj split
      exact ⟨rfl,empty⟩
    case isFalse => nomatch split
  | cons line rest ih =>
    intro s current segments split
    rw [statements] at split
    cases scanned : scanLine s line with
    | none =>
      rw [scanned] at split
      nomatch split
    | some next =>
      rw [scanned] at split
      dsimp only at split
      by_cases closed : next = .start
      · rw [if_pos closed] at split
        obtain ⟨more,rest_split,rfl⟩ := Option.map_eq_some_iff.mp split
        have later := ih rest_split
        have ends : Ends s [line] := by
          unfold Ends
          rw [scanned]
          exact (if_pos closed).mpr rfl
        refine ⟨[line],rfl,ends,?_,?_⟩
        · cases more with
          | nil => rw [later.1]; rfl
          | cons first others =>
            obtain ⟨tail,rfl,-,rfl,-⟩ := later
            rfl
        · cases more with
          | nil => intro other member; nomatch member
          | cons first others =>
            obtain ⟨tail,rfl,ended,-,all⟩ := later
            rw [closed] at ended
            exact List.forall_mem_cons.mpr ⟨ended,all⟩
      · rw [if_neg closed] at split
        have later := ih split
        cases segments with
        | nil => exact absurd later.2 (by simp)
        | cons first more =>
          obtain ⟨tail,rfl,ended,rfl,all⟩ := later
          refine ⟨line :: tail,by simp,?_,rfl,all⟩
          unfold Ends
          rw [scanned]
          exact (if_neg closed).mpr ended

theorem statements_complete {segments : List (List (List Char))}
    (split : statements .start [] lines = some segments) : lines = segments.flatten ∧ ∀ other ∈ segments, Complete other := by
  have parts := statements_eq split
  cases segments with
  | nil => exact ⟨parts.1,fun other member => nomatch member⟩
  | cons first more =>
    obtain ⟨tail,rfl,ends,rfl,all⟩ := parts
    exact ⟨rfl,List.forall_mem_cons.mpr ⟨ends,all⟩⟩

theorem Ends.all_text : ∀ {s : Scan}, Ends s lines → ∀ line ∈ lines, line.all isTextChar = true := by
  induction lines with
  | nil => intro s ends; exact ends.elim
  | cons line rest ih =>
    intro s ends
    unfold Ends at ends
    cases scanned : scanLine s line with
    | none =>
      rw [scanned] at ends
      exact ends.elim
    | some next =>
      rw [scanned] at ends
      dsimp only at ends
      refine List.forall_mem_cons.mpr ⟨all_of_scanLine scanned,?_⟩
      by_cases closed : next = .start
      · rw [if_pos closed] at ends
        subst ends
        intro other member
        nomatch member
      · rw [if_neg closed] at ends
        exact ih ends

end CodexMultiAuth.Toml
