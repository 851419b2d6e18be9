import CodexMultiAuth.Hashline

/-!
What an edit keeps of a file. A file is a list of lines, each with a terminator of its
own but for the last.
-/
namespace CodexMultiAuth.Hashline

open List

inductive Terminator where
  | lf
  | crlf
  deriving DecidableEq

def Terminator.chars : Terminator → Text
  | .lf => ['\n']
  | .crlf => ['\r','\n']

structure Line where
  text : Text
  terminator : Option Terminator
  deriving DecidableEq

def Line.chars (line : Line) : Text := line.text ++ (line.terminator.map Terminator.chars).getD []

def fileOf (lines : List Line) : Text := lines.flatMap Line.chars

def extend (c : Char) : List Line → List Line
  | [] => [⟨[c],none⟩]
  | line :: lines => ⟨c :: line.text,line.terminator⟩ :: lines

def readLines : Text → List Line
  | [] => []
  | '\n' :: rest => ⟨[],some .lf⟩ :: readLines rest
  | '\r' :: '\n' :: rest => ⟨[],some .crlf⟩ :: readLines rest
  | c :: rest => extend c (readLines rest)

/-- Only the last line may be without a terminator. -/
def Closed : List Line → Prop
  | [] => True
  | [_] => True
  | line :: rest => line.terminator.isSome = true ∧ Closed rest

def unterminated (lines : List Line) : Bool := lines.getLast?.any fun line => line.terminator.isNone

theorem closed_cons {line : Line} {rest : List Line} : Closed (line :: rest) ↔ (rest ≠ [] → line.terminator.isSome = true) ∧ Closed rest := by
  cases rest <;> simp [Closed]

theorem fileOf_cons (line : Line) (lines : List Line) : fileOf (line :: lines) = line.chars ++ fileOf lines := flatMap_cons

/-- A line that ends in a line feed, if it was terminated. -/
def Line.toLf (line : Line) : Line := { line with terminator := line.terminator.map fun _ => .lf }

/-- What the reading of a file says of it. -/
structure Reads (content : Text) (lines : List Line) : Prop where
  file : fileOf lines = content
  closed : Closed lines
  plain : ∀ line ∈ lines, '\n' ∉ line.text
  filled : ∀ line ∈ lines, line.terminator = none → line.text ≠ []
  lf : replaceCrlf content = fileOf (lines.map Line.toLf)
  texts : (replaceCrlf content).splitOn '\n' = lines.map Line.text ++ if unterminated lines then [] else [[]]
  crlf : includesCrlf content = true ↔ ∃ line ∈ lines, line.terminator = some .crlf

theorem splitOn_newline (rest : Text) : ('\n' :: rest).splitOn '\n' = [] :: rest.splitOn '\n' := by
  simp [List.splitOn,splitOnP_cons_eq_if_modifyHead]

theorem splitOn_other {c : Char} (other : c ≠ '\n') (rest : Text) : (c :: rest).splitOn '\n' = (rest.splitOn '\n').modifyHead (c :: ·) := by
  simp [List.splitOn,splitOnP_cons_eq_if_modifyHead,other]

theorem unterminated_cons (line : Line) {rest : List Line} (some_ : line.terminator.isSome = true) : unterminated (line :: rest) = unterminated rest := by
  obtain ⟨terminator,ends⟩ := Option.isSome_iff_exists.mp some_
  cases rest <;> simp [unterminated,ends]

theorem replaceCrlf_terminator (terminator : Terminator) (rest : Text) : replaceCrlf (terminator.chars ++ rest) = '\n' :: replaceCrlf rest := by
  cases terminator with
  | lf => rw [Terminator.chars,singleton_append,replaceCrlf]; simp
  | crlf => rfl

variable {lines : List Line}

theorem Reads.terminated {rest : Text} (reads : Reads rest lines) (terminator : Terminator) :
    Reads (terminator.chars ++ rest) (⟨[],some terminator⟩ :: lines) where
  file := by rw [fileOf_cons,reads.file]; rfl
  closed := closed_cons.mpr ⟨fun _ => rfl,reads.closed⟩
  plain line member := by
    rcases mem_cons.mp member with rfl | later
    · exact not_mem_nil
    · exact reads.plain line later
  filled line member none_ := by
    rcases mem_cons.mp member with rfl | later
    · nomatch none_
    · exact reads.filled line later none_
  lf := by rw [replaceCrlf_terminator,reads.lf]; rfl
  texts := by
    rw [replaceCrlf_terminator,splitOn_newline,reads.texts,unterminated_cons _ rfl]
    rfl
  crlf := by
    cases terminator with
    | lf =>
      have same : includesCrlf (Terminator.lf.chars ++ rest) = includesCrlf rest := by rw [Terminator.chars,singleton_append,includesCrlf]; simp
      rw [same,reads.crlf]
      simp
    | crlf => simp [Terminator.chars,includesCrlf]

theorem Reads.cons {c : Char} {rest : Text} (reads : Reads rest lines) (other : c ≠ '\n') (apart : c = '\r' → rest.head? ≠ some '\n') :
    Reads (c :: rest) (extend c lines) := by
  have front : replaceCrlf (c :: rest) = c :: replaceCrlf rest := by
    rw [replaceCrlf]
    rintro more rfl rfl
    exact apart rfl rfl
  have scan : includesCrlf (c :: rest) = includesCrlf rest := by
    rw [includesCrlf]
    rintro more rfl rfl
    exact apart rfl rfl
  have split := splitOn_other other (replaceCrlf rest)
  cases lines with
  | nil =>
    have none_ : rest = [] := reads.file.symm
    subst none_
    refine ⟨rfl,trivial,?_,?_,by rw [front]; rfl,?_,?_⟩
    · simpa [extend] using other.symm
    · simp [extend]
    · rw [front,split]
      simp [replaceCrlf,unterminated,extend]
    · rw [scan]
      simp [includesCrlf,extend]
  | cons line lines =>
    refine ⟨?_,?_,?_,?_,by rw [front,reads.lf]; rfl,?_,?_⟩
    · have file := reads.file
      rw [fileOf_cons] at file
      rw [extend,fileOf_cons,← file]
      rfl
    · cases lines with
      | nil => trivial
      | cons => exact reads.closed
    · intro one member
      rcases mem_cons.mp member with rfl | later
      · exact fun inside => (mem_cons.mp inside).elim (fun same => other same.symm) (reads.plain line mem_cons_self)
      · exact reads.plain one (mem_cons_of_mem _ later)
    · intro one member none_
      rcases mem_cons.mp member with rfl | later
      · exact cons_ne_nil _ _
      · exact reads.filled one (mem_cons_of_mem _ later) none_
    · have same : unterminated (extend c (line :: lines)) = unterminated (line :: lines) := by cases lines <;> rfl
      rw [front,split,reads.texts,same]
      rfl
    · rw [scan,reads.crlf]
      simp [extend]

theorem reads_readLines (content : Text) : Reads content (readLines content) := by
  induction content using readLines.induct with
  | case1 => exact ⟨rfl,trivial,by simp [readLines],by simp [readLines],rfl,rfl,by simp [includesCrlf,readLines]⟩
  | case2 rest ih => exact ih.terminated .lf
  | case3 rest ih => exact ih.terminated .crlf
  | case4 c rest newline carriage ih =>
    have other : c ≠ '\n' := fun same => newline same
    rw [readLines]
    · exact ih.cons other fun same starts => by
        cases rest with
        | nil => nomatch starts
        | cons next more => exact carriage more same (congrArg (· :: more) (Option.some.inj starts))
    · exact newline
    · exact carriage

/-! ### What the code reads -/

/-- The terminator of a file, as the code has it. -/
def dominant (lines : List Line) : Terminator := if ∃ line ∈ lines, line.terminator = some .crlf then .crlf else .lf

theorem fileOf_append (one other : List Line) : fileOf (one ++ other) = fileOf one ++ fileOf other := flatMap_append

theorem endsWithNewline_fileOf (plain : ∀ line ∈ lines, '\n' ∉ line.text)
    (filled : ∀ line ∈ lines, line.terminator = none → line.text ≠ []) :
    endsWithNewline (fileOf lines) = (decide (lines ≠ []) && !unterminated lines) := by
  rcases eq_nil_or_concat lines with rfl | ⟨init,last,rfl⟩
  · rfl
  · have member : last ∈ init.concat last := by simp
    rw [concat_eq_append] at *
    have single : fileOf [last] = last.chars := flatMap_singleton _ _
    rw [fileOf_append,single,endsWithNewline,Line.chars,unterminated,List.getLast?_append]
    cases ends : last.terminator with
    | none =>
      have some_ := filled last member ends
      have other : last.text.getLast some_ ≠ '\n' := fun same => plain last member (same ▸ getLast_mem some_)
      simp [ends,List.getLast?_append,List.getLast?_eq_some_getLast some_,other]
    | some terminator => cases terminator <;> simp [ends,Terminator.chars,List.getLast?_append]

theorem fileOf_eq_nil (filled : ∀ line ∈ lines, line.terminator = none → line.text ≠ []) : fileOf lines = [] ↔ lines = [] := by
  constructor
  · intro none_
    cases lines with
    | nil => rfl
    | cons line rest =>
      rw [fileOf_cons,append_eq_nil_iff,Line.chars,append_eq_nil_iff] at none_
      cases ends : line.terminator with
      | none => exact absurd none_.1.1 (filled line mem_cons_self ends)
      | some terminator => cases terminator <;> simp [ends,Terminator.chars] at none_
  · rintro rfl
    rfl

section
variable {content : Text} {lines : List Line} (reads : Reads content lines)
include reads

theorem Reads.ends : endsWithNewline content = (decide (lines ≠ []) && !unterminated lines) := by
  rw [← reads.file]
  exact endsWithNewline_fileOf reads.plain reads.filled

theorem Reads.normalized : normalizeFileText content = ⟨lines.map Line.text,(dominant lines).chars,decide (lines ≠ []) && !unterminated lines⟩ := by
  have plain : ∀ line ∈ lines.map Line.toLf, '\n' ∉ line.text := by
    rintro line member
    obtain ⟨old,inside,rfl⟩ := mem_map.mp member
    exact reads.plain old inside
  have filled : ∀ line ∈ lines.map Line.toLf, line.terminator = none → line.text ≠ [] := by
    rintro line member none_
    obtain ⟨old,inside,rfl⟩ := mem_map.mp member
    exact reads.filled old inside (Option.map_eq_none_iff.mp none_)
  have eol : (if includesCrlf content then ['\r','\n'] else ['\n']) = (dominant lines).chars := by
    unfold dominant
    by_cases some_ : ∃ line ∈ lines, line.terminator = some .crlf
    · rw [if_pos some_,if_pos (reads.crlf.mpr some_)]
      rfl
    · rw [if_neg some_,if_neg fun found => some_ (reads.crlf.mp found)]
      rfl
  have open_ : unterminated (lines.map Line.toLf) = unterminated lines := by
    rw [unterminated,unterminated,List.getLast?_map]
    cases lines.getLast? <;> simp [Line.toLf]
  have ends := endsWithNewline_fileOf plain filled
  rw [open_,← reads.lf] at ends
  unfold normalizeFileText
  dsimp only
  rw [eol]
  by_cases none_ : lines = []
  · subst none_
    have nothing : replaceCrlf content = [] := reads.lf
    rw [if_pos nothing]
    rfl
  · have some_ : replaceCrlf content ≠ [] := by
      rw [reads.lf]
      exact fun nothing => none_ (map_eq_nil_iff.mp ((fileOf_eq_nil filled).mp nothing))
    have mapped : lines.map Line.toLf ≠ [] := fun nothing => none_ (map_eq_nil_iff.mp nothing)
    rw [if_neg some_,textLines,ends,reads.texts,decide_eq_true mapped,decide_eq_true none_,Bool.true_and]
    cases unterminated lines <;> simp

end

def encode (terminator : Terminator) (terminated : Bool) : List Text → List Line
  | [] => []
  | [text] => [⟨text,if terminated then some terminator else none⟩]
  | text :: rest => ⟨text,some terminator⟩ :: encode terminator terminated rest

section
variable (terminator : Terminator) (terminated : Bool)

theorem encode_cons (text : Text) {rest : List Text} (some_ : rest ≠ []) :
    encode terminator terminated (text :: rest) = ⟨text,some terminator⟩ :: encode terminator terminated rest := by
  cases rest with
  | nil => exact absurd rfl some_
  | cons next rest => rfl

theorem encode_append (before : List Text) {after : List Text} (some_ : after ≠ []) :
    encode terminator terminated (before ++ after) = before.map (fun text => ⟨text,some terminator⟩) ++ encode terminator terminated after := by
  induction before with
  | nil => rfl
  | cons text before ih =>
    have rest : before ++ after ≠ [] := fun none_ => some_ (append_eq_nil_iff.mp none_).2
    rw [cons_append,encode_cons terminator terminated text rest,ih,map_cons,cons_append]

variable (texts : List Text)

theorem encode_texts : (encode terminator terminated texts).map Line.text = texts := by
  induction texts with
  | nil => rfl
  | cons text rest ih =>
    by_cases none_ : rest = []
    · rw [none_]; rfl
    · rw [encode_cons terminator terminated text none_,map_cons,ih]

theorem encode_closed : Closed (encode terminator terminated texts) := by
  induction texts with
  | nil => trivial
  | cons text rest ih =>
    by_cases none_ : rest = []
    · rw [none_]; trivial
    · rw [encode_cons terminator terminated text none_]
      exact closed_cons.mpr ⟨fun _ => rfl,ih⟩

theorem encode_terminated : encode terminator true texts = texts.map fun text => ⟨text,some terminator⟩ := by
  induction texts with
  | nil => rfl
  | cons text rest ih =>
    by_cases none_ : rest = []
    · rw [none_]; rfl
    · rw [encode_cons terminator true text none_,map_cons,ih]

theorem fileOf_encode : fileOf (encode terminator terminated texts) = denormalizeFileText ⟨texts,terminator.chars,terminated⟩ := by
  induction texts with
  | nil => rfl
  | cons text rest ih =>
    by_cases none_ : rest = []
    · subst none_
      cases terminated <;> simp [encode,fileOf,Line.chars,denormalizeFileText]
    · obtain ⟨next,more,rfl⟩ := exists_cons_of_ne_nil none_
      rw [encode_cons terminator terminated text none_,fileOf_cons,ih]
      cases terminated <;> simp [denormalizeFileText,Line.chars,List.intercalate]

end

/-! ### Lines outside the range -/

/-- Lines of the same texts, with the same terminators where both have one. -/
def SameLines (one other : List Line) : Prop :=
  List.Forall₂ (fun one other => other.text = one.text ∧ ∀ t u, one.terminator = some t → other.terminator = some u → u = t) one other

/-- The result is the file with new lines in the place of the range, every other line with its
    own terminator, and ends in a line feed where the file did. -/
structure Framed (content result : Text) (change : Change) : Prop where
  parts : ∃ before range after before_ inserted after_, readLines content = before ++ range ++ after ∧ before.length = change.start ∧
    range.length = change.deleteCount ∧ result = fileOf (before_ ++ inserted ++ after_) ∧ Closed (before_ ++ inserted ++ after_) ∧
    inserted.map Line.text = change.insertLines ∧ SameLines before before_ ∧ SameLines after after_
  newline : result ≠ [] → endsWithNewline result = endsWithNewline content

def edited (lines : List Line) (change : Change) : List Text := splice (lines.map Line.text) change.start change.deleteCount change.insertLines

/-- The lines outside the range that keep a terminator. -/
def kept (lines : List Line) (change : Change) : List Line :=
  if change.insertLines = [] ∧ lines.drop (change.start + change.deleteCount) = [] ∧ unterminated lines = true then (lines.take change.start).dropLast
  else lines.take change.start ++ lines.drop (change.start + change.deleteCount)

/-- The kept lines have the terminator of the file, and where the file ends in none no empty line
    comes last. -/
structure Uniform (lines : List Line) (change : Change) : Prop where
  terminators : ∀ line ∈ kept lines change, ∀ t, line.terminator = some t → t = dominant lines
  filled : unterminated lines = true → (edited lines change).getLast? = some [] → (edited lines change).length = 1

theorem terminator_inj {t u : Terminator} {one other : Text} (same : t.chars ++ one = u.chars ++ other) : t = u ∧ one = other := by
  cases t <;> cases u <;> simp [Terminator.chars] at same ⊢ <;> assumption

theorem fileOf_inj {one other : List Line} (closed : Closed one) (also_ : Closed other) (texts : one.map Line.text = other.map Line.text)
    (same : fileOf one = fileOf other) : one = other := by
  induction one generalizing other with
  | nil => exact (map_eq_nil_iff.mp texts.symm).symm
  | cons line one ih =>
    cases other with
    | nil => nomatch texts
    | cons line_ other =>
      obtain ⟨text,rest⟩ := List.cons.inj texts
      rw [fileOf_cons,fileOf_cons,Line.chars,Line.chars,text,append_assoc,append_assoc,append_cancel_left_eq] at same
      obtain ⟨needs,inner⟩ := closed_cons.mp closed
      obtain ⟨needs_,inner_⟩ := closed_cons.mp also_
      have both : line.terminator = line_.terminator ∧ fileOf one = fileOf other := by
        cases first : line.terminator with
        | some t =>
          cases second : line_.terminator with
          | some u =>
            rw [first,second] at same
            obtain ⟨rfl,left_⟩ := terminator_inj same
            exact ⟨rfl,left_⟩
          | none =>
            have none_ : other = [] := by
              by_contra some_
              exact absurd (needs_ some_) (by simp [second])
            rw [first,second,none_] at same
            cases t <;> simp [Terminator.chars,fileOf] at same
        | none =>
          have none_ : one = [] := by
            by_contra some_
            exact absurd (needs some_) (by simp [first])
          have none_too : other = [] := map_eq_nil_iff.mp (by rw [← rest,none_]; rfl)
          subst none_ none_too
          refine ⟨?_,rfl⟩
          cases second : line_.terminator with
          | none => rfl
          | some u =>
            rw [first,second] at same
            cases u <;> simp [Terminator.chars,fileOf] at same
      obtain ⟨text_,terminator⟩ := line
      obtain ⟨text_too,terminator_⟩ := line_
      obtain rfl : text_ = text_too := text
      obtain rfl : terminator = terminator_ := both.1
      rw [ih inner inner_ rest both.2]

section
variable {eol : Terminator}

theorem same_cons {line : Line} {lines rest : List Line} :
    SameLines (line :: lines) (⟨line.text,some eol⟩ :: rest) ↔ (∀ t, line.terminator = some t → t = eol) ∧ SameLines lines rest := by
  rw [SameLines,forall₂_cons,← SameLines]
  refine and_congr_left fun _ => ⟨fun one t ends => (one.2 t eol ends rfl).symm,fun all_ => ⟨rfl,fun t u ends same => ?_⟩⟩
  rw [← Option.some.inj same,all_ t ends]

variable {lines : List Line}

theorem same_map :
    SameLines lines ((lines.map Line.text).map fun text => ⟨text,some eol⟩) ↔ ∀ line ∈ lines, ∀ t, line.terminator = some t → t = eol := by
  induction lines with
  | nil => exact ⟨fun _ => forall_mem_nil _,fun _ => .nil⟩
  | cons line lines ih => rw [map_cons,map_cons,same_cons,ih,forall_mem_cons]

theorem same_encode (closed : Closed lines) :
    SameLines lines (encode eol (!unterminated lines) (lines.map Line.text)) ↔ ∀ line ∈ lines, ∀ t, line.terminator = some t → t = eol := by
  induction lines with
  | nil => exact ⟨fun _ => forall_mem_nil _,fun _ => .nil⟩
  | cons line lines ih =>
    obtain ⟨needs,rest⟩ := closed_cons.mp closed
    by_cases none_ : lines = []
    · subst none_
      rw [map_singleton,encode,SameLines,forall₂_cons,forall_mem_singleton]
      cases ends : line.terminator with
      | none => simp
      | some t => simp [unterminated,ends,eq_comm]
    · have some_ : lines.map Line.text ≠ [] := fun nothing => none_ (map_eq_nil_iff.mp nothing)
      rw [unterminated_cons line (needs none_),map_cons,encode_cons _ _ _ some_,same_cons,ih rest,forall_mem_cons]

theorem same_open :
    SameLines lines (encode eol false (lines.map Line.text)) ↔ ∀ line ∈ lines.dropLast, ∀ t, line.terminator = some t → t = eol := by
  induction lines with
  | nil => exact ⟨fun _ => forall_mem_nil _,fun _ => .nil⟩
  | cons line lines ih =>
    by_cases none_ : lines = []
    · subst none_
      simp [encode,SameLines]
    · have some_ : lines.map Line.text ≠ [] := fun nothing => none_ (map_eq_nil_iff.mp nothing)
      rw [map_cons,encode_cons _ _ _ some_,same_cons,ih,dropLast_cons_of_ne_nil none_,forall_mem_cons]

end

section
variable {lines : List Line} {change : Change}

def written (lines : List Line) (change : Change) : List Line := encode (dominant lines) (!unterminated lines) (edited lines change)

theorem edited_eq : edited lines change =
    (lines.take change.start).map Line.text ++ (change.insertLines ++ (lines.drop (change.start + change.deleteCount)).map Line.text) := by
  rw [edited,splice,map_take,map_drop,append_assoc]

theorem closed_drop (closed : Closed lines) (n : ℕ) : Closed (lines.drop n) := by
  induction n generalizing lines with
  | zero => exact closed
  | succ n ih =>
    cases lines with
    | nil => trivial
    | cons line lines => exact ih (closed_cons.mp closed).2

theorem unterminated_drop {n : ℕ} (some_ : lines.drop n ≠ []) : unterminated (lines.drop n) = unterminated lines := by
  rw [unterminated,unterminated,List.getLast?_drop,if_neg fun none_ => some_ (drop_eq_nil_of_le none_)]

/-- The lines outside the range keep their terminators just where these are the one of the file. -/
theorem same_written (closed : Closed lines) :
    (SameLines (lines.take change.start) ((written lines change).take (lines.take change.start).length) ∧
      SameLines (lines.drop (change.start + change.deleteCount)) ((written lines change).drop ((lines.take change.start).length + change.insertLines.length))) ↔
    ∀ line ∈ kept lines change, ∀ t, line.terminator = some t → t = dominant lines := by
  have inner := closed_drop closed (change.start + change.deleteCount)
  have open_ := @unterminated_drop lines (change.start + change.deleteCount)
  rw [written,edited_eq,kept]
  generalize lines.take change.start = before at *
  generalize lines.drop (change.start + change.deleteCount) = after at *
  generalize change.insertLines = new at *
  generalize dominant lines = eol at *
  have front : (before.map Line.text).length = before.length := length_map _
  by_cases tail : new ++ after.map Line.text = []
  · obtain ⟨rfl,nothing⟩ := append_eq_nil_iff.mp tail
    obtain rfl := map_eq_nil_iff.mp nothing
    have whole (t : Bool) : (encode eol t (before.map Line.text)).length = before.length := by
      rw [← front,← congrArg List.length (encode_texts eol t (before.map Line.text)),length_map]
    rw [map_nil,append_nil,append_nil,length_nil,Nat.add_zero,take_of_length_le (whole _).le,drop_of_length_le (whole _).le]
    cases unterminated lines with
    | true =>
      rw [Bool.not_true,same_open,if_pos ⟨rfl,rfl,rfl⟩]
      exact and_iff_left .nil
    | false =>
      rw [Bool.not_false,encode_terminated,same_map,if_neg (by simp),append_nil]
      exact and_iff_left .nil
  · have cond : ¬(new = [] ∧ after = [] ∧ unterminated lines = true) := by
      rintro ⟨rfl,rfl,-⟩
      exact tail rfl
    have size : ((before.map Line.text).map fun text => (⟨text,some eol⟩ : Line)).length = before.length := by simp
    rw [if_neg cond,encode_append _ _ _ tail,take_left' size,same_map,← drop_drop,drop_left' size]
    have last : SameLines after ((encode eol (!unterminated lines) (new ++ after.map Line.text)).drop new.length) ↔
        ∀ line ∈ after, ∀ t, line.terminator = some t → t = eol := by
      by_cases none_ : after = []
      · subst none_
        have whole := congrArg List.length (encode_texts eol (!unterminated lines) (new ++ List.map Line.text []))
        rw [length_map,map_nil,append_nil] at whole
        rw [map_nil,append_nil,drop_of_length_le whole.le]
        simp [SameLines]
      · have some_ : after.map Line.text ≠ [] := fun nothing => none_ (map_eq_nil_iff.mp nothing)
        rw [encode_append _ _ _ some_,drop_left' (length_map _),← open_ none_,same_encode inner]
    rw [last]
    simp only [mem_append,or_imp,forall_and]

theorem SameLines.texts {one other : List Line} (same : SameLines one other) : other.map Line.text = one.map Line.text := by
  induction same with
  | nil => rfl
  | cons head _ ih => rw [map_cons,map_cons,head.1,ih]

theorem parts_iff {content : Text} (reads : Reads content lines) (same : readLines content = lines) (inside : change.start + change.deleteCount ≤ lines.length) :
    (∃ before range after before_ inserted after_, readLines content = before ++ range ++ after ∧ before.length = change.start ∧
      range.length = change.deleteCount ∧ fileOf (written lines change) = fileOf (before_ ++ inserted ++ after_) ∧ Closed (before_ ++ inserted ++ after_) ∧
      inserted.map Line.text = change.insertLines ∧ SameLines before before_ ∧ SameLines after after_) ↔
    ∀ line ∈ kept lines change, ∀ t, line.terminator = some t → t = dominant lines := by
  rw [← same_written reads.closed,same]
  have texts := encode_texts (dominant lines) (!unterminated lines) (edited lines change)
  have closed : Closed (written lines change) := encode_closed _ _ _
  rw [← written,edited_eq] at texts
  have size : (lines.take change.start).length = change.start := length_take_of_le (by omega)
  constructor
  · rintro ⟨before,range,after,before_,inserted,after_,parts,start,count,file,also_,new,front,back⟩
    have first : lines.take change.start = before := by rw [parts,append_assoc,take_left' start]
    have last : lines.drop (change.start + change.deleteCount) = after := by
      rw [parts,drop_left']
      rw [length_append,start,count]
    have lines_ : written lines change = before_ ++ inserted ++ after_ := by
      refine fileOf_inj closed also_ ?_ file
      rw [texts,first,last,map_append,map_append,front.texts,back.texts,new,append_assoc]
    have short : before_.length = before.length := front.length_eq.symm
    have middle : inserted.length = change.insertLines.length := by rw [← new,length_map]
    rw [lines_,first,last,append_assoc,take_left' short,← append_assoc,drop_left' (by rw [length_append,short,middle])]
    exact ⟨front,back⟩
  · rintro ⟨front,back⟩
    refine ⟨lines.take change.start,(lines.drop change.start).take change.deleteCount,lines.drop (change.start + change.deleteCount),
      _,((written lines change).drop (lines.take change.start).length).take change.insertLines.length,_,?_,size,?_,?_,?_,?_,front,back⟩
    · rw [append_assoc,← drop_drop,take_append_drop,take_append_drop]
    · rw [length_take_of_le]
      rw [length_drop]
      omega
    · rw [append_assoc,← drop_drop,take_append_drop,take_append_drop]
    · rw [append_assoc,← drop_drop,take_append_drop,take_append_drop]
      exact closed
    · rw [map_take,map_drop,texts,drop_left' (length_map _),take_left' rfl]

theorem ends_map (eol : Terminator) {texts : List Text} (plain : ∀ text ∈ texts, '\n' ∉ text) :
    endsWithNewline (fileOf (texts.map fun text => ⟨text,some eol⟩)) = decide (texts ≠ []) := by
  rw [endsWithNewline_fileOf (forall_mem_map.mpr plain) (by simp),unterminated,List.getLast?_map]
  cases texts.getLast? <;> simp

/-- The result ends as the file does, unless an empty line comes last in a file without a line
    feed at its end. -/
theorem newline_iff {content : Text} (reads : Reads content lines) (some_ : lines ≠ []) (plain : ∀ text ∈ change.insertLines, '\n' ∉ text) :
    (fileOf (written lines change) ≠ [] → endsWithNewline (fileOf (written lines change)) = endsWithNewline content) ↔
      (unterminated lines = true → (edited lines change).getLast? = some [] → (edited lines change).length = 1) := by
  have texts : ∀ text ∈ lines.map Line.text, '\n' ∉ text := forall_mem_map.mpr reads.plain
  have all_ : ∀ text ∈ edited lines change, '\n' ∉ text := by
    intro text member
    rcases mem_append.mp member with front | back
    · rcases mem_append.mp front with first | new
      · exact texts text (mem_of_mem_take first)
      · exact plain text new
    · exact texts text (mem_of_mem_drop back)
  rw [reads.ends,decide_eq_true some_,Bool.true_and,written]
  generalize edited lines change = edited at *
  generalize dominant lines = eol
  cases unterminated lines with
  | false =>
    rw [Bool.not_false,encode_terminated,ends_map eol all_]
    refine iff_of_true (fun filled => decide_eq_true ?_) fun open_ => nomatch open_
    rintro rfl
    exact filled rfl
  | true =>
    rw [Bool.not_true]
    rcases eq_nil_or_concat edited with rfl | ⟨init,last,rfl⟩
    · exact iff_of_true (fun filled => absurd rfl filled) fun _ none_ => nomatch none_
    · rw [concat_eq_append] at *
      have first : ∀ text ∈ init, '\n' ∉ text := fun text member => all_ text (mem_append_left _ member)
      rw [encode_append eol false init (cons_ne_nil last []),encode,fileOf_append]
      by_cases empty : last = []
      · subst empty
        have nothing : fileOf [⟨[],if false = true then some eol else none⟩] = [] := rfl
        rw [nothing,append_nil,ends_map eol first]
        cases init with
        | nil => simp [fileOf]
        | cons text rest =>
          refine iff_of_false (fun same => ?_) fun one => absurd (one rfl List.getLast?_concat) (by simp)
          refine absurd (same ?_) (by simp)
          rw [map_cons,fileOf_cons]
          cases eol <;> simp [Line.chars,Terminator.chars]
      · have whole := @endsWithNewline_fileOf (init.map (fun text => ⟨text,some eol⟩) ++ [⟨last,none⟩])
        rw [fileOf_append] at whole
        refine iff_of_true (fun _ => (whole ?_ ?_).trans (by simp [unterminated])) fun _ ends => absurd (by simpa using ends) empty
        · intro line member
          rcases mem_append.mp member with old | new
          · obtain ⟨text,inside,rfl⟩ := mem_map.mp old
            exact first text inside
          · rw [mem_singleton.mp new]
            exact all_ last (by simp)
        · intro line member none_
          rcases mem_append.mp member with old | new
          · obtain ⟨text,-,rfl⟩ := mem_map.mp old
            nomatch none_
          · rw [mem_singleton.mp new]
            exact empty

end

/-! ### Accepted edits -/

theorem bind_ok {first : Except String α} {rest : α → Except String β} {value : β} (ok : first >>= rest = .ok value) :
    ∃ middle, first = .ok middle ∧ rest middle = .ok value := by
  cases first with
  | error message => nomatch ok
  | ok middle => exact ⟨middle,rfl,ok⟩

theorem splitInsertText_plain (value : Text) : ∀ text ∈ splitInsertText value, '\n' ∉ text := by
  have reads := reads_readLines value
  have same : splitInsertText value = (normalizeFileText value).lines := by
    rw [splitInsertText,normalizeFileText]
    split_ifs <;> rfl
  rw [same,reads.normalized]
  exact forall_mem_map.mpr reads.plain

theorem change_new (operation : HashlineOperation) (first last : ℕ) {new : List Text} (plain : ∀ text ∈ new, '\n' ∉ text) :
    ∀ text ∈ (operation.change first last new).insertLines, '\n' ∉ text := by
  cases operation with
  | delete => simp [HashlineOperation.change]
  | _ => exact plain

section
variable [Sha1]

/-- A reference names a line of the file, of the hash it gives. -/
def Matches (content : Text) (ref : ParsedHashlineRef) : Prop :=
  ∃ line, (readLines content)[ref.lineNumber - 1]? = some line ∧ computeHashline line.text = ref.hash

theorem resolved {content : Text} {ref : ParsedHashlineRef} {label : String} {index : ℕ}
    (ok : resolveHashlineRef (normalizeFileText content).lines ref label = .ok index) :
    index = ref.lineNumber - 1 ∧ index < (readLines content).length ∧ Matches content ref := by
  rw [(reads_readLines content).normalized] at ok
  unfold resolveHashlineRef at ok
  split_ifs at ok with far
  cases found : ((readLines content).map Line.text)[ref.lineNumber - 1]? with
  | none => simp only [found] at ok; nomatch ok
  | some text =>
    simp only [found] at ok
    split_ifs at ok with other
    obtain ⟨line,inside,rfl⟩ := Option.map_eq_some_iff.mp (List.getElem?_map.symm.trans found)
    obtain rfl := Except.ok.inj ok
    exact ⟨rfl,(List.getElem?_eq_some_iff.mp inside).1,line,inside,not_not.mp other⟩

variable [Host]

omit [Sha1] in
theorem parseArgs_ordered {args : HashlineEditArgs} {lineRef endLineRef : ParsedHashlineRef} {operation : HashlineOperation}
    (ok : parseArgs args = .ok (lineRef,endLineRef,operation)) : lineRef.lineNumber ≤ endLineRef.lineNumber := by
  unfold parseArgs at ok
  split at ok
  · nomatch ok
  · obtain ⟨first,-,ok⟩ := bind_ok ok
    obtain ⟨last,-,ok⟩ := bind_ok ok
    split_ifs at ok with less
    split at ok
    · nomatch ok
    · obtain ⟨rfl,rest⟩ := Prod.mk.inj (Except.ok.inj ok)
      obtain ⟨rfl,-⟩ := Prod.mk.inj rest
      exact Nat.le_of_not_lt less

def HashlineEditArgs.change (args : HashlineEditArgs) (lineRef endLineRef : ParsedHashlineRef) (operation : HashlineOperation) : Change :=
  operation.change (lineRef.lineNumber - 1) (endLineRef.lineNumber - 1) (splitInsertText args.nextText)

/-- An edit goes through only where its references match the file, and changes no more than its
    range just where the lines outside have the file's terminator. -/
theorem only_range_iff_uniform {content : Text} {args : HashlineEditArgs} {edit : HashlineEditSuccess} (accepted : applyHashlineEdit content args = .ok edit) :
    ∃ lineRef endLineRef operation, parseArgs args = .ok (lineRef,endLineRef,operation) ∧ Matches content lineRef ∧ Matches content endLineRef ∧
      (Framed content edit.updatedContent (args.change lineRef endLineRef operation) ↔ Uniform (readLines content) (args.change lineRef endLineRef operation)) := by
  unfold applyHashlineEdit at accepted
  obtain ⟨⟨lineRef,endLineRef,operation⟩,parsed,accepted⟩ := bind_ok accepted
  obtain ⟨startIndex,first,accepted⟩ := bind_ok accepted
  obtain ⟨endIndex,last,accepted⟩ := bind_ok accepted
  dsimp only at accepted
  split at accepted
  · nomatch accepted
  obtain ⟨rfl,start,matches_⟩ := resolved first
  obtain ⟨rfl,stop,also_⟩ := resolved last
  obtain rfl := Except.ok.inj accepted
  refine ⟨lineRef,endLineRef,operation,parsed,matches_,also_,?_⟩
  have ordered := parseArgs_ordered parsed
  have inside : (args.change lineRef endLineRef operation).start + (args.change lineRef endLineRef operation).deleteCount ≤ (readLines content).length := by
    cases operation <;> simp only [HashlineEditArgs.change,HashlineOperation.change] <;> omega
  have plain := change_new operation (lineRef.lineNumber - 1) (endLineRef.lineNumber - 1) (splitInsertText_plain args.nextText)
  rw [← HashlineEditArgs.change] at plain ⊢
  generalize args.change lineRef endLineRef operation = change at *
  have reads := reads_readLines content
  have some_ : readLines content ≠ [] := fun none_ => by simp [none_] at start
  have result : denormalizeFileText ⟨edited (readLines content) change,(dominant (readLines content)).chars,
      if edited (readLines content) change ≠ [] then !unterminated (readLines content) else false⟩ = fileOf (written (readLines content) change) := by
    rw [written,fileOf_encode]
    split_ifs with nothing
    · rfl
    · rw [not_not.mp nothing]
      rfl
  rw [reads.normalized,decide_eq_true some_,Bool.true_and]
  dsimp only
  rw [← edited,result]
  exact ⟨fun ⟨parts,newline⟩ => ⟨(parts_iff reads rfl inside).mp parts,(newline_iff reads some_ plain).mp newline⟩,
    fun ⟨terminators,filled⟩ => ⟨(parts_iff reads rfl inside).mpr terminators,(newline_iff reads some_ plain).mpr filled⟩⟩

end

/-- The hash of `b`, and that of the empty text. -/
@[reducible] def knownSha1 : Sha1 where
  digest text := (if text = ['b'] then "e9d71f5ee7c92d6dc9e92ffdad17b8bd49418f98" else "da39a3ee5e6b4b0d3255bfef95601890afd80709").toList

/-- The second line, which is `b`, becomes `x`. -/
def secondLine : HashlineEditArgs := ⟨some "L2#e9d71f5e",none,none,some "x",none⟩

def secondRef : ParsedHashlineRef := ⟨2,['e','9','d','7','1','f','5','e'],['L','2','#','e','9','d','7','1','f','5','e']⟩

theorem secondLine_parses : @parseArgs asciiHost secondLine = .ok (secondRef,secondRef,.replace) := by decide +kernel

theorem second_line_only : @Matches knownSha1 ['a','\n','b','\n'] secondRef ∧
    Framed ['a','\n','b','\n'] ['a','\n','x','\n'] (secondLine.change secondRef secondRef .replace) := by
  obtain ⟨lineRef,endLineRef,operation,parsed,first,-,framed⟩ :=
    @only_range_iff_uniform knownSha1 asciiHost ['a','\n','b','\n'] secondLine ⟨['a','\n','x','\n'],.replace,2,2⟩ (by decide +kernel)
  obtain ⟨rfl,rest⟩ := Prod.mk.inj (Except.ok.inj (secondLine_parses.symm.trans parsed))
  obtain ⟨rfl,rfl⟩ := Prod.mk.inj rest
  refine ⟨first,framed.mpr ⟨?_,fun open_ => absurd open_ (by decide)⟩⟩
  rintro line kept t terminated
  obtain rfl : line = ⟨['a'],some .lf⟩ := by simpa using (show line ∈ [⟨['a'],some .lf⟩] from kept)
  exact (Option.some.inj terminated).symm.trans (by decide)

/-- The first line of a file of both terminators loses its own. -/
theorem other_line_changes : ¬∀ content args edit, @applyHashlineEdit knownSha1 asciiHost content args = .ok edit →
    ∃ lineRef endLineRef operation, @parseArgs asciiHost args = .ok (lineRef,endLineRef,operation) ∧
      Framed content edit.updatedContent (args.change lineRef endLineRef operation) := by
  intro all_
  obtain ⟨lineRef,endLineRef,operation,parsed,framed⟩ :=
    all_ ['a','\n','b','\r','\n'] secondLine ⟨['a','\r','\n','x','\r','\n'],.replace,2,2⟩ (by decide +kernel)
  obtain ⟨rfl,rest⟩ := Prod.mk.inj (Except.ok.inj (secondLine_parses.symm.trans parsed))
  obtain ⟨rfl,rfl⟩ := Prod.mk.inj rest
  have same : fileOf (written (readLines ['a','\n','b','\r','\n']) ⟨1,1,[['x']]⟩) = ['a','\r','\n','x','\r','\n'] := by decide
  have keeps := (@parts_iff (readLines ['a','\n','b','\r','\n']) ⟨1,1,[['x']]⟩ _ (reads_readLines _) rfl (by decide)).mp (by rw [same]; exact framed.parts)
  exact absurd (keeps ⟨['a'],some .lf⟩ (by decide) .lf rfl) (by decide)

end CodexMultiAuth.Hashline
