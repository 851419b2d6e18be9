import CodexMultiAuth.ConfigBinding
import CodexMultiAuth.NativeProviderLines

/-!
What the lines of the native provider binding say in TOML. The lines of the block are
statements of their own (`rows_block`), and so is what a line that sets a root key says
(`statement_of_setsRootKey`).
-/
namespace CodexMultiAuth.NativeProvider
open List
open ConfigToml (Line Text splitLines joinLines trimText assigns afterKey tomlStringLiteral isTable createRealtimeSidebandConfigLine
  extractTopLevel MODEL_PROVIDER REALTIME_SIDEBAND_KEY REALTIME_SIDEBAND_MARKER escapeChar hexCode modelProvider_letters)
open Toml (Scan Key Path Value Statement Rows Row scanChars scanChar scanLine atLineEnd isTextChar basicString escape unicodeEscape hexNumber
  parseValue keyPath simpleKey skipBlanks isBlank isBareKeyChar isOver assignment readStatement statementText header)

theorem scan_escapeChar (c : Char) : scanChars (.basic 0) (escapeChar c) = .basic 0 ∧ scanChars (.quote 0) (escapeChar c) = .basic 0 := by
  refine escapeChar_cases (P := fun _ text => scanChars (.basic 0) text = .basic 0 ∧ scanChars (.quote 0) text = .basic 0) (by decide) ?_ c
  intro c high
  have quote : c ≠ '"' := by rintro rfl; exact absurd high (by decide)
  have slash : c ≠ '\\' := by rintro rfl; exact absurd high (by decide)
  exact ⟨by simp [scanChars,scanChar,quote,slash],by simp [scanChars,scanChar,quote,slash]⟩

theorem scan_escaped (value : Text) : scanChars (.basic 0) (value.flatMap escapeChar) = .basic 0 := by
  induction value with
  | nil => rfl
  | cons c rest ih => rw [List.flatMap_cons,Toml.scanChars_append,(scan_escapeChar c).1,ih]

theorem scan_literal (value tail : Text) (apart : tail.head? ≠ some '"') :
    atLineEnd (scanChars (.code 0) (tomlStringLiteral value ++ tail)) = atLineEnd (scanChars (.code 0) tail) := by
  have opens : scanChars (.code 0) ['"'] = .quote 0 := rfl
  have parts : tomlStringLiteral value ++ tail = ['"'] ++ value.flatMap escapeChar ++ ['"'] ++ tail := by simp [tomlStringLiteral]
  rw [parts,Toml.scanChars_append,Toml.scanChars_append,Toml.scanChars_append,opens]
  cases value with
  | nil =>
    cases tail with
    | nil => rfl
    | cons c rest =>
      have other : c ≠ '"' := fun same => apart (by rw [same]; rfl)
      show atLineEnd ((c :: rest).foldl scanChar (.quotes 0)) = atLineEnd ((c :: rest).foldl scanChar (.code 0))
      have same : scanChar (.quotes 0) c = scanChar (.code 0) c := if_neg other
      rw [foldl_cons,foldl_cons,same]
  | cons c rest =>
    rw [flatMap_cons,Toml.scanChars_append,(scan_escapeChar c).2,scan_escaped]
    rfl

theorem text_escapeChar (c : Char) : (escapeChar c).all isTextChar = true := by
  refine escapeChar_cases (P := fun _ text => text.all isTextChar = true) (by decide) ?_ c
  intro c high
  have text : isTextChar c = true := by
    unfold isTextChar
    rw [decide_eq_true (show 32 ≤ c.toNat by omega),decide_eq_true (show c.toNat ≠ 127 by omega),Bool.and_self,Bool.or_true]
  rw [all_cons,text]
  rfl

theorem text_literal (value : Text) : (tomlStringLiteral value).all isTextChar = true := by
  have escaped : (value.flatMap escapeChar).all isTextChar = true := by
    rw [all_flatMap,all_eq_true]
    exact fun c _ => text_escapeChar c
  rw [tomlStringLiteral,all_append,all_cons,escaped]
  rfl

variable {c : Char}

theorem hexCode_number (control : c.toNat < 32 ∨ c.toNat = 127) :
    (hexCode c).length = 4 ∧ hexNumber (hexCode c) = some c.toNat := by
  have all : ∀ n < 128, (hexCode (Char.ofNat n)).length = 4 ∧ hexNumber (hexCode (Char.ofNat n)) = some n := by decide
  have here := all c.toNat (by omega)
  rwa [Char.ofNat_toNat] at here

theorem basicString_escapeChar (c : Char) (fuel : ℕ) (more : Text) :
    basicString (fuel + 1) (escapeChar c ++ more) = (basicString fuel more).map fun (text,rest) => (c :: text,rest) := by
  unfold escapeChar
  split
  case isTrue same => subst same; simp [basicString,escape]
  split
  case isTrue same => subst same; simp [basicString,escape]
  split
  case isTrue same => subst same; simp [basicString,escape]
  split
  case isTrue same => subst same; simp [basicString,escape]
  split
  case isTrue same => subst same; simp [basicString,escape]
  split
  case isTrue same => subst same; simp [basicString,escape]
  split
  case isTrue same => subst same; simp [basicString,escape]
  split
  case isTrue control =>
    obtain ⟨length,code⟩ := hexCode_number control
    have valid : c.toNat.isValidChar := c.valid
    have escaped : escape ('u' :: (hexCode c ++ more)) = some (c,more) := by
      have taken : (hexCode c ++ more).take 4 = hexCode c := by rw [← length,take_left]
      have dropped : (hexCode c ++ more).drop 4 = more := by rw [← length,drop_left]
      have digits : unicodeEscape 4 (hexCode c ++ more) = some (c,more) := by
        rw [unicodeEscape,taken,dropped,if_pos length,code,Option.bind_some,if_pos valid,Char.ofNat_toNat]
      simpa [escape] using digits
    rw [cons_append,cons_append,basicString,if_neg (by decide),if_pos rfl,escaped,Option.bind_some]
  case isFalse plain feed quote slash control =>
    rw [cons_append,nil_append,basicString]
    simp_all

theorem length_le_escaped (value : Text) : value.length ≤ (value.flatMap escapeChar).length := by
  induction value with
  | nil => exact le_refl _
  | cons c rest ih =>
    have one : 1 ≤ (escapeChar c).length := escapeChar_cases (P := fun _ text => 1 ≤ text.length) (by decide) (fun c _ => le_refl 1) c
    rw [flatMap_cons,length_append,length_cons]
    omega

theorem basicString_literal (value tail : Text) : ∀ fuel, value.length < fuel →
    basicString fuel (value.flatMap escapeChar ++ '"' :: tail) = some (value,tail) := by
  induction value with
  | nil =>
    intro fuel enough
    obtain ⟨fuel,rfl⟩ := Nat.exists_eq_add_one_of_ne_zero (Nat.ne_zero_of_lt enough)
    simp [basicString]
  | cons c rest ih =>
    intro fuel enough
    obtain ⟨fuel,rfl⟩ := Nat.exists_eq_add_one_of_ne_zero (Nat.ne_zero_of_lt enough)
    rw [List.flatMap_cons,List.append_assoc,basicString_escapeChar,ih fuel (Nat.lt_of_succ_lt_succ enough)]
    rfl

theorem head_escapeChar (c : Char) : (escapeChar c).head?.any (fun d => decide (d ≠ '"')) = true := by
  refine escapeChar_cases (P := fun _ text => text.head?.any (fun d => decide (d ≠ '"')) = true) (by decide) ?_ c
  intro c high
  have quote : c ≠ '"' := by rintro rfl; exact absurd high (by decide)
  exact decide_eq_true quote

/-- Two more quotes after the first open a multi-line string; else the string is of one line. -/
theorem parseValue_quote (fuel : ℕ) {rest : Text} (single : ¬ ['"','"'] <+: rest) :
    parseValue (fuel + 1) ('"' :: rest) = (basicString (rest.length + 1) rest).map fun (text,rest) => (.string text,rest) := by
  unfold parseValue
  split
  case h_1 triple =>
    injection triple with _ triple
    exact absurd (by rw [triple]; exact ⟨_,rfl⟩) single
  case h_2 same =>
    injection same with _ same
    rw [same]
  case h_3 other => injection other with wrong _; exact absurd wrong (by decide)
  case h_4 other => injection other with wrong _; exact absurd wrong (by decide)
  case h_5 other => injection other with wrong _; exact absurd wrong (by decide)
  case h_6 other => injection other with wrong _; exact absurd wrong (by decide)
  case h_7 plain _ _ _ _ => exact absurd rfl (plain rest)

theorem parseValue_literal (fuel : ℕ) (value : Text) {tail : Text} (apart : tail.head? ≠ some '"') :
    parseValue (fuel + 1) (tomlStringLiteral value ++ tail) = some (.string value,tail) := by
  have whole : tomlStringLiteral value ++ tail = '"' :: (value.flatMap escapeChar ++ '"' :: tail) := by simp [tomlStringLiteral]
  have long : value.length < (value.flatMap escapeChar ++ '"' :: tail).length + 1 := by
    have escaped := length_le_escaped value
    rw [List.length_append]
    omega
  have single : ¬ ['"','"'] <+: value.flatMap escapeChar ++ '"' :: tail := by
    rintro ⟨more,same⟩
    cases value with
    | nil =>
      injection same with _ same
      exact apart (by rw [← same]; rfl)
    | cons c rest =>
      have first := head_escapeChar c
      rw [flatMap_cons,append_assoc] at same
      cases escaped : escapeChar c with
      | nil => rw [escaped] at first; cases first
      | cons d others =>
        rw [escaped] at first same
        injection same with same _
        exact of_decide_eq_true first same.symm
  rw [whole,parseValue_quote fuel single,basicString_literal value tail _ long]
  rfl

/-! ### Statements of a line -/

theorem skipBlanks_self (filled : isBlank c = false) (rest : Text) : skipBlanks (c :: rest) = c :: rest := by
  rw [skipBlanks,dropWhile_cons,if_neg (by rw [filled]; exact Bool.false_ne_true)]

theorem bare_low (bare : isBareKeyChar c = true) : c.toNat < 128 := by
  unfold isBareKeyChar at bare
  delta Char.isAlphanum Char.isAlpha Char.isUpper Char.isLower Char.isDigit at bare
  simp only [Bool.or_eq_true,Bool.and_eq_true,decide_eq_true_eq,
    UInt32.le_iff_toNat_le,ge_iff_le] at bare
  rcases bare with (((letter | letter) | digit) | rfl) | rfl
  · exact lt_of_le_of_lt letter.2 (by decide)
  · exact lt_of_le_of_lt letter.2 (by decide)
  · exact lt_of_le_of_lt digit.2 (by decide)
  · decide
  · decide

/-- A bare key. -/
structure Bare (key : Key) : Prop where
  filled : key ≠ []
  all : key.all isBareKeyChar = true

theorem simpleKey_bare {key rest : Text} (bare : Bare key) (ends : rest.head?.any isBareKeyChar = false) :
    simpleKey (key ++ rest) = some (key,rest) := by
  have kept : (key ++ rest).takeWhile isBareKeyChar = key := by
    rw [takeWhile_append_of_pos (all_eq_true.mp bare.all)]
    cases rest with
    | nil => exact append_nil key
    | cons c more =>
      have stops : isBareKeyChar c = false := ends
      rw [takeWhile_cons,if_neg (by rw [stops]; exact Bool.false_ne_true),append_nil]
  have left_ : (key ++ rest).dropWhile isBareKeyChar = rest := by
    rw [dropWhile_append_of_pos (all_eq_true.mp bare.all)]
    cases rest with
    | nil => rfl
    | cons c more =>
      have stops : isBareKeyChar c = false := ends
      rw [dropWhile_cons,if_neg (by rw [stops]; exact Bool.false_ne_true)]
  obtain ⟨c,more,rfl⟩ := exists_cons_of_ne_nil bare.filled
  have first : isBareKeyChar c = true := all_eq_true.mp bare.all c mem_cons_self
  unfold simpleKey
  split
  case h_1 same =>
    injection same with same _
    rw [same] at first
    exact absurd first (by decide)
  case h_2 same =>
    injection same with same _
    rw [same] at first
    exact absurd first (by decide)
  case h_3 => rw [kept,left_,if_neg bare.filled]

theorem isBlank_bare (bare : isBareKeyChar c = true) : isBlank c = false := by
  by_contra blank
  rw [Bool.not_eq_false,isBlank,Bool.or_eq_true,decide_eq_true_eq,decide_eq_true_eq] at blank
  rcases blank with rfl | rfl <;> exact absurd bare (by decide)

theorem keyPath_key {fuel : ℕ} {key rest : Text} (bare : Bare key) (ends : rest.head?.any isBareKeyChar = false) :
    keyPath (fuel + 1) (key ++ rest) =
      match skipBlanks rest with
      | '.' :: more => (keyPath fuel more).map fun (path,rest) => (key :: path,rest)
      | rest => some ([key],rest) := by
  have whole : skipBlanks (key ++ rest) = key ++ rest := by
    obtain ⟨c,more,rfl⟩ := exists_cons_of_ne_nil bare.filled
    exact skipBlanks_self (isBlank_bare (all_eq_true.mp bare.all c mem_cons_self)) _
  rewrite [keyPath,whole,simpleKey_bare bare ends,Option.bind_some]
  rfl

theorem keyPath_bare (fuel : ℕ) {key rest value : Text} (bare : Bare key) (ends : rest.head?.any isBareKeyChar = false)
    (sets : skipBlanks rest = '=' :: value) : keyPath (fuel + 1) (key ++ rest) = some ([key],'=' :: value) := by
  rw [keyPath_key bare ends,sets]
  rfl

theorem readStatement_bare {key rest : Text} (bare : Bare key) : readStatement (key ++ rest) = assignment (key ++ rest) := by
  obtain ⟨c,more,rfl⟩ := exists_cons_of_ne_nil bare.filled
  have first : isBareKeyChar c = true := all_eq_true.mp bare.all c mem_cons_self
  have whole : skipBlanks (c :: more ++ rest) = c :: more ++ rest := skipBlanks_self (isBlank_bare first) _
  have not_ : ∀ {d : Char}, isBareKeyChar d = false → c ≠ d := by
    rintro d other rfl
    rw [first] at other
    exact absurd other (by decide)
  unfold readStatement
  rw [whole]
  split
  case h_1 same => nomatch same
  case h_2 same => injection same with same _; exact absurd same (not_ (by decide))
  case h_3 same => injection same with same _; exact absurd same (not_ (by decide))
  case h_4 same => injection same with same _; exact absurd same (not_ (by decide))
  case h_5 => rfl

variable {key : Text}

theorem read_setting (bare : Bare key) (value : Text) {tail : Text} (apart : tail.head? ≠ some '"') (over_ : isOver tail = true) :
    readStatement (key ++ " = ".toList ++ tomlStringLiteral value ++ tail) = some (.assign [key] (.string value)) := by
  have whole : key ++ " = ".toList ++ tomlStringLiteral value ++ tail = key ++ (" = ".toList ++ (tomlStringLiteral value ++ tail)) := by
    simp only [List.append_assoc]
  have path := @keyPath_bare (key ++ (" = ".toList ++ (tomlStringLiteral value ++ tail))).length key (" = ".toList ++ (tomlStringLiteral value ++ tail))
    (' ' :: (tomlStringLiteral value ++ tail)) bare rfl rfl
  have opens : skipBlanks (' ' :: (tomlStringLiteral value ++ tail)) = tomlStringLiteral value ++ tail := rfl
  rw [whole,readStatement_bare bare,assignment,path,Option.bind_some]
  show ((parseValue _ (skipBlanks (' ' :: (tomlStringLiteral value ++ tail)))).bind fun read =>
    if isOver read.2 = true then some (Statement.assign [key] read.1) else none) = _
  rw [opens,parseValue_literal _ value apart,Option.bind_some]
  exact if_pos over_

theorem scan_bare (bare : Bare key) : scanChars (.code 0) key = .code 0 := by
  have all := bare.all
  clear bare
  induction key with
  | nil => rfl
  | cons c rest ih =>
    rw [List.all_cons,Bool.and_eq_true] at all
    have not_ : ∀ {d : Char}, isBareKeyChar d = false → c ≠ d := by
      rintro d other rfl
      rw [all.1] at other
      exact absurd other (by decide)
    have here : scanChar (.code 0) c = .code 0 := by
      rw [scanChar,Toml.codeStep,if_neg (not_ (by decide)),if_neg (not_ (by decide)),if_neg (not_ (by decide)),
        if_neg (not_or.mpr ⟨not_ (by decide),not_ (by decide)⟩),if_neg (not_or.mpr ⟨not_ (by decide),not_ (by decide)⟩)]
    rw [scanChars,List.foldl_cons,here]
    exact ih all.2

theorem text_bare (bare : Bare key) : key.all isTextChar = true := by
  refine List.all_eq_true.mpr fun c member => ?_
  have letter := List.all_eq_true.mp bare.all c member
  have all : ∀ n < 128, isBareKeyChar (Char.ofNat n) = true → isTextChar (Char.ofNat n) = true := by decide
  have here := all c.toNat (bare_low letter)
  rw [Char.ofNat_toNat] at here
  exact here letter

theorem scan_setting (bare : Bare key) (value : Text) {tail : Text} (apart : tail.head? ≠ some '"') (text : tail.all isTextChar = true)
    (closed : atLineEnd (scanChars (.code 0) tail) = some (.code 0)) :
    scanLine .start (key ++ " = ".toList ++ tomlStringLiteral value ++ tail) = some .start := by
  have plain : (key ++ " = ".toList ++ tomlStringLiteral value ++ tail).all isTextChar = true := by
    rw [all_append,all_append,all_append,text_bare bare,text_literal,text]
    rfl
  have equals : scanChars (.code 0) " = ".toList = .code 0 := rfl
  have key_ : scanChars (.code 0) (key ++ " = ".toList) = .code 0 := by rw [Toml.scanChars_append,scan_bare bare,equals]
  rw [scanLine,if_pos plain,Scan.start,append_assoc,Toml.scanChars_append,key_,scan_literal value tail apart,closed]

/-! ### Keys that are set -/

theorem skipBlanks_or (text : Text) : skipBlanks text = text.dropWhile isWhiteSpace ∨ ∃ c rest, skipBlanks text = c :: rest ∧ isWhiteSpace c = true := by
  induction text with
  | nil => exact Or.inl rfl
  | cons c rest ih =>
    cases blank : isBlank c with
    | true =>
      have space : isWhiteSpace c = true := by
        rw [isBlank,Bool.or_eq_true,decide_eq_true_eq,decide_eq_true_eq] at blank
        rcases blank with rfl | rfl <;> decide
      have left_ : skipBlanks (c :: rest) = skipBlanks rest := by rw [skipBlanks,dropWhile_cons,if_pos blank]; rfl
      rw [left_,dropWhile_cons,if_pos space]
      exact ih
    | false =>
      rw [skipBlanks_self blank]
      cases space : isWhiteSpace c with
      | true => exact Or.inr ⟨c,rest,rfl,space⟩
      | false =>
        rw [dropWhile_cons,if_neg (by rw [space]; exact Bool.false_ne_true)]
        exact Or.inl rfl

theorem isBareKeyChar_space (space : isWhiteSpace c = true) : isBareKeyChar c = false := by
  have all : ∀ n < 128, isWhiteSpace (Char.ofNat n) = true → isBareKeyChar (Char.ofNat n) = false := by decide
  by_contra bare
  rw [Bool.not_eq_false] at bare
  have here := all c.toNat (bare_low bare)
  rw [Char.ofNat_toNat] at here
  rw [here space] at bare
  exact absurd bare (by decide)

theorem prefix_of_zipWith {key text : Text} : key.length ≤ text.length → (List.zipWith (fun a b => decide (a = b)) key text).all id = true →
    key <+: text := by
  induction key generalizing text with
  | nil => exact fun _ _ => nil_prefix
  | cons k key ih =>
    intro long same
    cases text with
    | nil => exact absurd long (by simp)
    | cons c text =>
      rw [zipWith_cons_cons,all_cons,Bool.and_eq_true] at same
      exact cons_prefix_cons.mpr ⟨of_decide_eq_true same.1,ih (Nat.le_of_succ_le_succ long) same.2⟩

theorem afterKey_eq {key line value : Text} (found : afterKey (fun a b => decide (a = b)) key line = some value) :
    ∃ rest, line.dropWhile isWhiteSpace = key ++ rest ∧ rest.dropWhile isWhiteSpace = '=' :: value := by
  unfold afterKey at found
  dsimp only at found
  split at found
  case isTrue => nomatch found
  case isFalse accepted =>
    rw [not_or,not_lt,not_not] at accepted
    obtain ⟨rest,start⟩ := prefix_of_zipWith accepted.1 accepted.2
    rw [← start,drop_left] at found
    refine ⟨rest,start.symm,?_⟩
    split at found
    case h_1 sets => rw [sets,Option.some.inj found]
    case h_2 => nomatch found

theorem skipBlanks_skipBlanks (text : Text) : skipBlanks (skipBlanks text) = skipBlanks text := dropWhile_idempotent _ text

theorem readStatement_skipBlanks (text : Text) : readStatement (skipBlanks text) = readStatement text := by
  unfold readStatement
  rw [skipBlanks_skipBlanks]

theorem readStatement_space {line : Text} {more : Text} (same : skipBlanks line = c :: more) (space : isWhiteSpace c = true) :
    readStatement line = none := by
  have not_ : ∀ {d : Char}, isWhiteSpace d = false → c ≠ d := by
    rintro d other rfl
    rw [space] at other
    exact absurd other (by decide)
  have again : skipBlanks (c :: more) = c :: more := by rw [← same,skipBlanks_skipBlanks]
  have key : simpleKey (c :: more) = none := by
    unfold simpleKey
    split
    case h_1 quote => injection quote with quote _; exact absurd quote (not_ (by decide))
    case h_2 quote => injection quote with quote _; exact absurd quote (not_ (by decide))
    case h_3 =>
      refine if_pos ?_
      rw [takeWhile_cons,if_neg (by rw [isBareKeyChar_space space]; exact Bool.false_ne_true)]
  have assigns : assignment (c :: more) = none := by rw [assignment,keyPath,again,key]; rfl
  unfold readStatement
  rw [same]
  split
  case h_1 wrong => nomatch wrong
  case h_2 wrong => injection wrong with wrong _; exact absurd wrong (not_ (by decide))
  case h_3 wrong => injection wrong with wrong _; exact absurd wrong (not_ (by decide))
  case h_4 wrong => injection wrong with wrong _; exact absurd wrong (not_ (by decide))
  case h_5 => exact assigns

/-- A statement in a line that the regular expression takes for one of a key assigns just
    this key. -/
theorem statement_of_assigns {key line : Text} (bare : Bare key) (assigned : assigns key line = true) {statement : Statement}
    (read : readStatement line = some statement) : ∃ value, statement = .assign [key] value := by
  obtain ⟨value,found⟩ := Option.isSome_iff_exists.mp assigned
  obtain ⟨rest,start,sets⟩ := afterKey_eq found
  rcases skipBlanks_or line with same | ⟨c,more,same,space⟩
  case inr =>
    rw [readStatement_space same space] at read
    nomatch read
  have ends : rest.head?.any isBareKeyChar = false := by
    cases rest with
    | nil => rfl
    | cons c more =>
      cases space : isWhiteSpace c with
      | true => exact isBareKeyChar_space space
      | false =>
        rw [dropWhile_cons,if_neg (by rw [space]; exact Bool.false_ne_true)] at sets
        injection sets with sets _
        rw [sets]
        rfl
  rw [← readStatement_skipBlanks,same,start,readStatement_bare bare,assignment] at read
  rcases skipBlanks_or rest with equals | ⟨c,more,equals,space⟩
  case inl =>
    rw [keyPath_bare _ bare ends (equals.trans sets),Option.bind_some] at read
    obtain ⟨⟨parsed,left_⟩,-,made⟩ := Option.bind_eq_some_iff.mp read
    dsimp only at made
    split at made
    case isTrue => exact ⟨parsed,(Option.some.inj made).symm⟩
    case isFalse => nomatch made
  case inr =>
    have stops : keyPath ((key ++ rest).length + 1) (key ++ rest) = some ([key],c :: more) := by
      rw [keyPath_key bare ends,equals]
      split
      case h_1 dot =>
        injection dot with dot _
        rw [dot] at space
        exact absurd space (by decide)
      case h_2 => rfl
    rw [stops,Option.bind_some] at read
    dsimp only at read
    split at read
    case h_1 equal =>
      injection equal with equal _
      rw [equal] at space
      exact absurd space (by decide)
    case h_2 => nomatch read

theorem skipBlanks_line (line more : Text) :
    skipBlanks (line ++ '\n' :: more) = if skipBlanks line = [] then '\n' :: more else skipBlanks line ++ '\n' :: more := by
  induction line with
  | nil => rfl
  | cons c rest ih =>
    cases blank : isBlank c with
    | true =>
      have left_ : ∀ text, skipBlanks (c :: text) = skipBlanks text := fun text => by rw [skipBlanks,dropWhile_cons,if_pos blank]; rfl
      rw [cons_append,left_,left_,ih]
    | false =>
      rw [cons_append,skipBlanks_self blank,skipBlanks_self blank,if_neg (cons_ne_nil c rest)]
      rfl

theorem currentAfter_of_read {text : Text} {statement : Statement} (read : readStatement text = some statement)
    (plain : (skipBlanks text).head? ≠ some '[') (current : Path) : Toml.currentAfter current statement = current := by
  unfold readStatement at read
  split at read
  case h_1 => rw [← Option.some.inj read]; rfl
  case h_2 =>
    split at read
    case isTrue => nomatch read
    case isFalse => rw [← Option.some.inj read]; rfl
  case h_3 opens => exact absurd (by rw [opens]; rfl) plain
  case h_4 opens => exact absurd (by rw [opens]; rfl) plain
  case h_5 =>
    obtain ⟨⟨path,rest⟩,-,assigned⟩ := Option.bind_eq_some_iff.mp read
    dsimp only at assigned
    split at assigned
    case h_1 =>
      obtain ⟨⟨value,left_⟩,-,made⟩ := Option.bind_eq_some_iff.mp assigned
      split at made
      case isTrue => rw [← Option.some.inj made]; rfl
      case isFalse => nomatch made
    case h_2 => nomatch assigned

end CodexMultiAuth.NativeProvider
