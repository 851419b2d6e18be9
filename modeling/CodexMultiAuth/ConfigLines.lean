import CodexMultiAuth.ConfigToml

/-!
Lines joined into a text and split again: a text with a single style of line ends
is its lines, and every edit that keeps the lines whole can be read on them.
-/
namespace CodexMultiAuth.ConfigToml

open List

def IsEnding (ending : List Char) : Prop := ending = ['\n'] ∨ ending = ['\r','\n']

/-- A line with no line feed and no carriage return at its end. -/
def CleanLine (line : Line) : Prop := '\n' ∉ line ∧ line.getLast? ≠ some '\r'

/-- The lines of a text that does not end in a line end. -/
structure Tidy (lines : List Line) : Prop where
  clean : ∀ line ∈ lines, CleanLine line
  last : lines.getLast? ≠ some []

/-! ### Splitting what was joined -/

@[simp] theorem joinLines_nil (ending : List Char) : joinLines ending [] = [] := by simp [joinLines,List.intercalate]

@[simp] theorem joinLines_singleton (ending : List Char) (line : Line) : joinLines ending [line] = line := by
  simp [joinLines,List.intercalate]

theorem joinLines_cons_cons (ending : List Char) (line next : Line) (rest : List Line) :
    joinLines ending (line :: next :: rest) = line ++ ending ++ joinLines ending (next :: rest) := by
  simp [joinLines,List.intercalate]

theorem joinLines_cons (ending : List Char) (line : Line) {rest : List Line} (more : rest ≠ []) :
    joinLines ending (line :: rest) = line ++ ending ++ joinLines ending rest := by
  obtain ⟨next,rest,rfl⟩ := exists_cons_of_ne_nil more
  exact joinLines_cons_cons ending line next rest

theorem joinLines_append (ending : List Char) {first second : List Line} (some_first : first ≠ []) (some_second : second ≠ []) :
    joinLines ending (first ++ second) = joinLines ending first ++ ending ++ joinLines ending second := by
  induction first with
  | nil => exact absurd rfl some_first
  | cons line rest ih =>
    by_cases last : rest = []
    · subst last
      simpa using joinLines_cons ending line some_second
    · have more : rest ++ second ≠ [] := by simp [last]
      rw [cons_append,joinLines_cons ending line more,joinLines_cons ending line last,ih last]
      simp

variable {lines : List Line}

theorem joinLines_short (short : lines.length < 2) (first second : List Char) :
    joinLines first lines = joinLines second lines := by
  match lines,short with
  | [],_ => simp
  | [line],_ => simp

theorem splitLines_ne_nil (text : Text) : splitLines text ≠ [] := by
  induction text with
  | nil => simp [splitLines]
  | cons c rest ih =>
    rw [splitLines]
    split_ifs
    · simp
    · exact ih
    · split <;> simp

variable {line : Line}

theorem splitLines_cons {c : Char} {rest : Text} (plain : c ≠ '\n')
    (alone : ¬ (c = '\r' ∧ rest.head? = some '\n')) (split : splitLines rest = line :: lines) :
    splitLines (c :: rest) = (c :: line) :: lines := by
  rw [splitLines,if_neg plain,if_neg alone,split]

theorem splitLines_line (flat : '\n' ∉ line) : splitLines line = [line] := by
  induction line with
  | nil => rfl
  | cons c rest ih =>
    have plain : c ≠ '\n' := fun same => flat (same ▸ mem_cons_self)
    have tail : '\n' ∉ rest := fun inside => flat (mem_cons_of_mem c inside)
    refine splitLines_cons plain ?_ (ih tail)
    rintro ⟨-,head⟩
    exact tail (mem_of_mem_head? head)

theorem cleanLine_tail {c : Char} {rest : Line} (clean : CleanLine (c :: rest)) : CleanLine rest := by
  refine ⟨fun inside => clean.1 (mem_cons_of_mem c inside),fun ends => clean.2 ?_⟩
  cases rest with
  | nil => simp at ends
  | cons d more => rwa [List.getLast?_cons_cons]

variable {ending : List Char}

theorem splitLines_append (clean : CleanLine line) (isEnding : IsEnding ending) (rest : Text) :
    splitLines (line ++ ending ++ rest) = line :: splitLines rest := by
  induction line with
  | nil => rcases isEnding with rfl | rfl <;> simp [splitLines]
  | cons c more ih =>
    have plain : c ≠ '\n' := fun same => clean.1 (same ▸ mem_cons_self)
    refine splitLines_cons plain ?_ (ih (cleanLine_tail clean))
    rintro ⟨rfl,head⟩
    cases more with
    | nil => exact clean.2 rfl
    | cons d more => simp at head; exact clean.1 (by simp [head])

theorem splitLines_joinLines_append {ending other : List Char} (isEnding : IsEnding ending) (isOther : IsEnding other) (rest : Text)
    (clean : ∀ line ∈ lines, CleanLine line) (filled : lines ≠ []) :
    splitLines (joinLines ending lines ++ other ++ rest) = lines ++ splitLines rest := by
  induction lines with
  | nil => exact absurd rfl filled
  | cons line more ih =>
    have here := clean line mem_cons_self
    by_cases last : more = []
    · subst last
      simpa using splitLines_append here isOther rest
    · have there := ih (fun later member => clean later (mem_cons_of_mem line member)) last
      rw [joinLines_cons ending line last,append_assoc,append_assoc,splitLines_append here isEnding,
        ← append_assoc,there]
      rfl

theorem splitLines_joinLines (isEnding : IsEnding ending)
    (clean : ∀ line ∈ lines, CleanLine line) (filled : lines ≠ []) : splitLines (joinLines ending lines) = lines := by
  induction lines with
  | nil => exact absurd rfl filled
  | cons line more ih =>
    have here := clean line mem_cons_self
    by_cases last : more = []
    · subst last
      simpa using splitLines_line here.1
    · have there := ih (fun later member => clean later (mem_cons_of_mem line member)) last
      rw [joinLines_cons ending line last,splitLines_append here isEnding,there]

theorem hasCrlf_line (flat : '\n' ∉ line) : hasCrlf line = false := by
  induction line with
  | nil => rfl
  | cons c rest ih =>
    have tail : '\n' ∉ rest := fun inside => flat (mem_cons_of_mem c inside)
    have head : rest.head? ≠ some '\n' := fun head => tail (mem_of_mem_head? head)
    simp [hasCrlf,ih tail,head]

theorem hasCrlf_append_lf (clean : CleanLine line) (rest : Text) :
    hasCrlf (line ++ ['\n'] ++ rest) = hasCrlf rest := by
  induction line with
  | nil => simp [hasCrlf]
  | cons c more ih =>
    have tail := ih (cleanLine_tail clean)
    have here : ¬ (c = '\r' ∧ (more ++ ['\n'] ++ rest).head? = some '\n') := by
      rintro ⟨rfl,head⟩
      cases more with
      | nil => exact clean.2 rfl
      | cons d more => simp at head; exact clean.1 (by simp [head])
    rw [← tail]
    show (decide (c = '\r') && decide ((more ++ ['\n'] ++ rest).head? = some '\n') || hasCrlf (more ++ ['\n'] ++ rest)) = _
    rw [← Bool.decide_and,decide_eq_false here,Bool.false_or]

theorem hasCrlf_append_crlf (line rest : Text) : hasCrlf (line ++ ['\r','\n'] ++ rest) = true := by
  induction line with
  | nil => simp [hasCrlf]
  | cons c more ih =>
    show (_ || hasCrlf (more ++ ['\r','\n'] ++ rest)) = true
    rw [ih,Bool.or_true]

theorem lineEnding_crlf (line rest : Text) : lineEnding (line ++ ['\r','\n'] ++ rest) = ['\r','\n'] := by
  rw [lineEnding,hasCrlf_append_crlf,if_pos rfl]

theorem isEnding_lineEnding (text : Text) : IsEnding (lineEnding text) := by
  unfold lineEnding
  split_ifs
  · exact .inr rfl
  · exact .inl rfl

theorem hasCrlf_joinLines_append_lf (clean : ∀ line ∈ lines, CleanLine line) (filled : lines ≠ []) (rest : Text) :
    hasCrlf (joinLines ['\n'] lines ++ ['\n'] ++ rest) = hasCrlf rest := by
  induction lines with
  | nil => exact absurd rfl filled
  | cons line more ih =>
    have here := clean line mem_cons_self
    by_cases last : more = []
    · subst last
      simpa using hasCrlf_append_lf here rest
    · have there := ih (fun later member => clean later (mem_cons_of_mem line member)) last
      rw [joinLines_cons _ line last,append_assoc,append_assoc,hasCrlf_append_lf here,← append_assoc,there]

theorem hasCrlf_joinLines_lf (clean : ∀ line ∈ lines, CleanLine line) :
    hasCrlf (joinLines ['\n'] lines) = false := by
  induction lines with
  | nil => rfl
  | cons line more ih =>
    have here := clean line mem_cons_self
    by_cases last : more = []
    · subst last
      simpa using hasCrlf_line here.1
    · rw [joinLines_cons _ line last,hasCrlf_append_lf here]
      exact ih fun later member => clean later (mem_cons_of_mem line member)

theorem lineEnding_joinLines (isEnding : IsEnding ending)
    (clean : ∀ line ∈ lines, CleanLine line) :
    lineEnding (joinLines ending lines) = if 2 ≤ lines.length then ending else ['\n'] := by
  match lines with
  | [] => rfl
  | [line] => simp [lineEnding,hasCrlf_line (clean line (by simp)).1]
  | line :: next :: rest =>
    rw [if_pos (by simp)]
    rcases isEnding with rfl | rfl
    · rw [lineEnding,hasCrlf_joinLines_lf clean]
      rfl
    · rw [joinLines_cons_cons]
      exact lineEnding_crlf _ _

theorem stripLineEnds_append_ending (text : Text) (isEnding : IsEnding ending) :
    stripLineEnds (text ++ ending) = stripLineEnds text := by
  rcases isEnding with rfl | rfl
  · exact rdropWhile_concat_pos isLineEnd text '\n' rfl
  · have shape : text ++ ['\r','\n'] = (text ++ ['\r']) ++ ['\n'] := by simp
    rw [stripLineEnds,shape,rdropWhile_concat_pos isLineEnd _ '\n' rfl]
    exact rdropWhile_concat_pos isLineEnd text '\r' rfl

theorem stripLineEnds_append_line (text : Text) (clean : CleanLine line) (filled : line ≠ []) :
    stripLineEnds (text ++ line) = text ++ line := by
  obtain ⟨front,c,rfl⟩ : ∃ front c, line = front ++ [c] := by
    rcases eq_nil_or_concat line with empty | ⟨front,c,shape⟩
    · exact absurd empty filled
    · exact ⟨front,c,shape.trans concat_eq_append⟩
  have plain : isLineEnd c = false := by
    have feed : c ≠ '\n' := fun same => clean.1 (by simp [same])
    have carriage : c ≠ '\r' := fun same => clean.2 (by simp [same])
    simp [isLineEnd,feed,carriage]
  rw [stripLineEnds,← append_assoc,rdropWhile_concat_neg isLineEnd _ c (by simp [plain])]

theorem joinLines_concat (ending : List Char) (lines : List Line) (line : Line) :
    ∃ front, joinLines ending (lines ++ [line]) = front ++ line := by
  by_cases none_before : lines = []
  · exact ⟨[],by simp [none_before]⟩
  · exact ⟨_,by rw [joinLines_append ending none_before (by simp),joinLines_singleton]⟩

theorem stripLineEnds_joinLines (isEnding : IsEnding ending)
    (clean : ∀ line ∈ lines, CleanLine line) :
    stripLineEnds (joinLines ending lines) = joinLines ending (lines.rdropWhile (fun line => decide (line = []))) := by
  induction lines using List.reverseRecOn with
  | nil => rfl
  | append_singleton lines line ih =>
    have before := ih fun earlier member => clean earlier (mem_append_left [line] member)
    by_cases blank : line = []
    · subst blank
      rw [rdropWhile_concat_pos _ _ _ (by simp),← before]
      by_cases none_before : lines = []
      · simp [none_before]
      · rw [joinLines_append ending none_before (by simp),joinLines_singleton,append_nil,stripLineEnds_append_ending _ isEnding]
    · rw [rdropWhile_concat_neg _ _ _ (by simp [blank])]
      obtain ⟨front,joined⟩ := joinLines_concat ending lines line
      rw [joined,stripLineEnds_append_line front (clean line (by simp)) blank]

theorem rdropWhile_empty_tidy (clean : ∀ line ∈ lines, CleanLine line) :
    Tidy (lines.rdropWhile (fun line => decide (line = []))) := by
  refine ⟨fun line member => clean line (( rdropWhile_prefix _ lines).subset member),fun ends => ?_⟩
  have filled : lines.rdropWhile (fun line => decide (line = [])) ≠ [] := by
    rintro none_left
    simp [none_left] at ends
  have kept := rdropWhile_last_not _ lines filled
  rw [List.getLast?_eq_getLast_of_ne_nil filled] at ends
  simp [Option.some.inj ends] at kept

theorem Tidy.rdropWhile (tidy : Tidy lines) : lines.rdropWhile (fun line => decide (line = [])) = lines := by
  refine rdropWhile_eq_self_iff.mpr fun filled blank => tidy.last ?_
  rw [List.getLast?_eq_getLast_of_ne_nil filled,of_decide_eq_true blank]

theorem Tidy.strip (tidy : Tidy lines) (isEnding : IsEnding ending) :
    stripLineEnds (joinLines ending lines) = joinLines ending lines := by
  rw [stripLineEnds_joinLines isEnding tidy.clean,tidy.rdropWhile]

theorem Tidy.joinLines_eq_nil (tidy : Tidy lines) (ending : List Char) (blank : joinLines ending lines = []) :
    lines = [] := by
  rcases eq_nil_or_concat lines with none_there | ⟨front,line,rfl⟩
  · exact none_there
  · obtain ⟨before,joined⟩ := joinLines_concat ending front line
    simp only [concat_eq_append] at tidy blank
    rw [blank] at joined
    have empty : line = [] := (append_eq_nil_iff.mp joined.symm).2
    exact absurd (by simp [empty]) tidy.last

theorem Tidy.textLines (tidy : Tidy lines) (isEnding : IsEnding ending) :
    textLines (joinLines ending lines) = lines := by
  unfold ConfigToml.textLines
  split_ifs with blank
  · exact (tidy.joinLines_eq_nil ending blank).symm
  · have filled : lines ≠ [] := by rintro rfl; exact blank (joinLines_nil ending)
    exact splitLines_joinLines isEnding tidy.clean filled

theorem textLines_joinLines_filled (isEnding : IsEnding ending)
    (clean : ∀ line ∈ lines, CleanLine line) (filled : joinLines ending lines ≠ []) : textLines (joinLines ending lines) = lines := by
  have some_line : lines ≠ [] := by rintro rfl; exact filled (joinLines_nil ending)
  rw [textLines,if_neg filled,splitLines_joinLines isEnding clean some_line]

theorem Tidy.joinLines_injective {first second : List Line} (tidy : Tidy first) (other : Tidy second)
    (isEnding : IsEnding ending) (same : joinLines ending first = joinLines ending second) : first = second := by
  rw [← tidy.textLines isEnding,same,other.textLines isEnding]

end CodexMultiAuth.ConfigToml
