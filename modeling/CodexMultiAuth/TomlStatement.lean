import CodexMultiAuth.TomlLines

/-!
What a TOML statement says. A statement is blank, assigns a value to a key, or is the header
of a table; keys are bare, quoted or dotted.
-/
namespace CodexMultiAuth.Toml

abbrev Key := List Char
abbrev Path := List Key

inductive Value where
  | string (text : List Char)
  /-- A number, a boolean or a date, as it is written. -/
  | scalar (text : List Char)
  | array (items : List Value)
  | inline (items : List (Path × Value))

inductive Statement where
  | blank
  | assign (path : Path) (value : Value)
  | table (path : Path)
  | arrayTable (path : Path)

def isBlank (c : Char) : Bool := decide (c = ' ') || decide (c = '\t')

def skipBlanks (text : List Char) : List Char := text.dropWhile isBlank

def isBareKeyChar (c : Char) : Bool := c.isAlphanum || decide (c = '-') || decide (c = '_')

def hexDigit (c : Char) : Option ℕ :=
  if c.isDigit then some (c.toNat - '0'.toNat)
  else if 'a' ≤ c ∧ c ≤ 'f' then some (c.toNat - 'a'.toNat + 10)
  else if 'A' ≤ c ∧ c ≤ 'F' then some (c.toNat - 'A'.toNat + 10)
  else none

def hexNumber (digits : List Char) : Option ℕ :=
  digits.foldl (fun number c => number.bind fun number => (hexDigit c).map fun digit => 16 * number + digit) (some 0)

/-- The character of so many digits. -/
def unicodeEscape (count : ℕ) (text : List Char) : Option (Char × List Char) :=
  if (text.take count).length = count then
    (hexNumber (text.take count)).bind fun code => if code.isValidChar then some (Char.ofNat code,text.drop count) else none
  else none

/-- After a backslash. -/
def escape : List Char → Option (Char × List Char)
  | [] => none
  | c :: rest =>
    if c = 'b' then some ('\x08',rest)
    else if c = 't' then some ('\t',rest)
    else if c = 'n' then some ('\n',rest)
    else if c = 'f' then some ('\x0c',rest)
    else if c = 'r' then some ('\r',rest)
    else if c = '"' then some ('"',rest)
    else if c = '\\' then some ('\\',rest)
    else if c = 'u' then unicodeEscape 4 rest
    else if c = 'U' then unicodeEscape 8 rest
    else none

/-- The rest of a string after its opening quote, and what follows the closing one. -/
def basicString : ℕ → List Char → Option (List Char × List Char)
  | 0,_ => none
  | _ + 1,[] => none
  | fuel + 1,c :: rest =>
    if c = '"' then some ([],rest)
    else if c = '\\' then
      (escape rest).bind fun (c,rest) => (basicString fuel rest).map fun (text,rest) => (c :: text,rest)
    else if c = '\n' then none
    else (basicString fuel rest).map fun (text,rest) => (c :: text,rest)

def literalString (text : List Char) : Option (List Char × List Char) :=
  let inner := text.takeWhile fun c => decide (c ≠ '\'') && decide (c ≠ '\n')
  match text.drop inner.length with
  | '\'' :: rest => some (inner,rest)
  | _ => none

/-- A multi-line string is closed by three quotes, before which two more can stand. -/
def closes (quote : Char) (text : List Char) : Option (List Char × List Char) :=
  let quotes := (text.takeWhile fun c => decide (c = quote)).length
  if 3 ≤ quotes then some (List.replicate (min quotes 5 - 3) quote,text.drop (min quotes 5)) else none

/-- The rest of a multi-line string; a backslash at the end of a line drops the line end and
    the blanks after it. -/
def multiBasicString : ℕ → List Char → Option (List Char × List Char)
  | 0,_ => none
  | _ + 1,[] => none
  | fuel + 1,c :: rest =>
    match closes '"' (c :: rest) with
    | some ended => some ended
    | none =>
      if c = '\\' then
        if (skipBlanks rest).head? = some '\n' then
          multiBasicString fuel (rest.dropWhile fun c => isBlank c || decide (c = '\n'))
        else (escape rest).bind fun (c,rest) => (multiBasicString fuel rest).map fun (text,rest) => (c :: text,rest)
      else (multiBasicString fuel rest).map fun (text,rest) => (c :: text,rest)

def multiLiteralString : List Char → Option (List Char × List Char)
  | [] => none
  | c :: rest =>
    match closes '\'' (c :: rest) with
    | some ended => some ended
    | none => (multiLiteralString rest).map fun (text,rest) => (c :: text,rest)

/-- A line end right after the opening quotes does not count. -/
def afterOpening : List Char → List Char
  | '\n' :: rest => rest
  | text => text

def simpleKey (text : List Char) : Option (Key × List Char) :=
  match text with
  | '"' :: rest => basicString (rest.length + 1) rest
  | '\'' :: rest => literalString rest
  | text => if text.takeWhile isBareKeyChar = [] then none else some (text.takeWhile isBareKeyChar,text.dropWhile isBareKeyChar)

/-- A dotted key, and what follows after blanks. -/
def keyPath : ℕ → List Char → Option (Path × List Char)
  | 0,_ => none
  | fuel + 1,text =>
    (simpleKey (skipBlanks text)).bind fun (key,rest) =>
      match skipBlanks rest with
      | '.' :: more => (keyPath fuel more).map fun (path,rest) => (key :: path,rest)
      | rest => some ([key],rest)

/-! ### Scalars -/

def isScalarChar (c : Char) : Bool := c.isAlphanum || ['+','-','_','.',':'].contains c

/-- Digits, with single underscores between them. -/
def isDigits (isDigit : Char → Bool) : List Char → Bool
  | [] => false
  | [c] => isDigit c
  | c :: '_' :: rest => isDigit c && isDigits isDigit rest
  | c :: rest => isDigit c && isDigits isDigit rest

def unsigned : List Char → List Char
  | '+' :: rest => rest
  | '-' :: rest => rest
  | text => text

def isDecimal (text : List Char) : Bool := isDigits Char.isDigit text && (decide (text.head? ≠ some '0') || decide (text = ['0']))

def isInteger : List Char → Bool
  | '0' :: 'x' :: rest => isDigits (fun c => (hexDigit c).isSome) rest
  | '0' :: 'o' :: rest => isDigits (fun c => decide ('0' ≤ c) && decide (c ≤ '7')) rest
  | '0' :: 'b' :: rest => isDigits (fun c => decide (c = '0') || decide (c = '1')) rest
  | text => isDecimal (unsigned text)

def cut (isSeparator : Char → Bool) (text : List Char) : List Char × Option (List Char) :=
  let front := text.takeWhile fun c => !isSeparator c
  (front,(text.drop front.length).tail?)

def isFloat (text : List Char) : Bool :=
  let text := unsigned text
  if text = "inf".toList ∨ text = "nan".toList then true
  else
    let (mantissa,exponent) := cut (fun c => decide (c = 'e') || decide (c = 'E')) text
    let (whole,fraction) := cut (fun c => decide (c = '.')) mantissa
    isDecimal whole && (fraction.isSome || exponent.isSome) && fraction.all (isDigits Char.isDigit) &&
      exponent.all fun exponent => isDigits Char.isDigit (unsigned exponent)

def number (digits : List Char) : ℕ := digits.foldl (fun number c => 10 * number + (c.toNat - '0'.toNat)) 0

/-- So many digits, of a number in a range. -/
def isField (count least most : ℕ) (digits : List Char) : Bool :=
  decide (digits.length = count) && digits.all Char.isDigit && decide (least ≤ number digits) && decide (number digits ≤ most)

def daysOf (year month : ℕ) : ℕ :=
  if month = 2 then if year % 4 = 0 ∧ (year % 100 ≠ 0 ∨ year % 400 = 0) then 29 else 28
  else if month ∈ [4,6,9,11] then 30 else 31

def isDate (text : List Char) : Bool :=
  match cut (fun c => decide (c = '-')) text with
  | (year,some rest) =>
    match cut (fun c => decide (c = '-')) rest with
    | (month,some day) =>
      isField 4 0 9999 year && isField 2 1 12 month && isField 2 1 (daysOf (number year) (number month)) day
    | _ => false
  | _ => false

def isTime (text : List Char) : Bool :=
  match cut (fun c => decide (c = ':')) text with
  | (hour,some rest) =>
    match cut (fun c => decide (c = ':')) rest with
    | (minute,some rest) =>
      let (second,fraction) := cut (fun c => decide (c = '.')) rest
      isField 2 0 23 hour && isField 2 0 59 minute && isField 2 0 60 second &&
        fraction.all fun digits => decide (digits ≠ []) && digits.all Char.isDigit
    | _ => false
  | _ => false

/-- A time with an offset from UTC, or without one. -/
def isOffsetTime (text : List Char) : Bool :=
  let time := text.takeWhile fun c => !(['Z','z','+','-'].contains c)
  match text.drop time.length with
  | [] => isTime time
  | c :: offset =>
    isTime time &&
      (if c = 'Z' ∨ c = 'z' then decide (offset = [])
      else
        match cut (fun c => decide (c = ':')) offset with
        | (hour,some minute) => isField 2 0 23 hour && isField 2 0 59 minute
        | _ => false)

def isDateTime (text : List Char) : Bool :=
  match cut (fun c => ['T','t',' '].contains c) text with
  | (date,none) => isDate date || isTime date
  | (date,some time) => isDate date && isOffsetTime time

def isScalar (text : List Char) : Bool :=
  decide (text = "true".toList) || decide (text = "false".toList) || isInteger text || isFloat text || isDateTime text

/-- A date can be followed by a blank and a time. -/
def scalar (text : List Char) : Option (Value × List Char) :=
  let first := text.takeWhile isScalarChar
  let rest := text.drop first.length
  let dated : List Char × List Char :=
    match rest with
    | ' ' :: c :: more =>
      if isDate first && c.isDigit then
        (first ++ ' ' :: (c :: more).takeWhile isScalarChar,(c :: more).dropWhile isScalarChar)
      else (first,rest)
    | _ => (first,rest)
  if isScalar dated.1 then some (.scalar dated.1,dated.2) else none

def skipTrivia : Bool → List Char → List Char
  | _,[] => []
  | true,c :: rest => if c = '\n' then skipTrivia false rest else skipTrivia true rest
  | false,c :: rest =>
    if isBlank c || decide (c = '\n') then skipTrivia false rest else if c = '#' then skipTrivia true rest else c :: rest

/-- The items of an array after a bracket or a comma; a comma may stand after the last. -/
def arrayItems (item : List Char → Option (Value × List Char)) : ℕ → List Char → Option (List Value × List Char)
  | 0,_ => none
  | fuel + 1,text =>
    match skipTrivia false text with
    | ']' :: rest => some ([],rest)
    | text =>
      (item text).bind fun (value,rest) =>
        match skipTrivia false rest with
        | ']' :: rest => some ([value],rest)
        | ',' :: rest => (arrayItems item fuel rest).map fun (values,rest) => (value :: values,rest)
        | _ => none

/-- The items of an inline table; none may stand after a last comma. -/
def inlineItems (item : List Char → Option (Value × List Char)) : ℕ → List Char → Option (List (Path × Value) × List Char)
  | 0,_ => none
  | fuel + 1,text =>
    (keyPath (text.length + 1) text).bind fun (path,rest) =>
      match rest with
      | '=' :: rest =>
        (item (skipBlanks rest)).bind fun (value,rest) =>
          match skipBlanks rest with
          | '\x7d' :: rest => some ([(path,value)],rest)
          | ',' :: rest => (inlineItems item fuel rest).map fun (values,rest) => ((path,value) :: values,rest)
          | _ => none
      | _ => none

/-- No key is defined twice, nor is one defined under a value. -/
def Disjoint (items : List (Path × Value)) : Prop := items.Pairwise fun one other => ¬ one.1 <+: other.1 ∧ ¬ other.1 <+: one.1

instance (items : List (Path × Value)) : Decidable (Disjoint items) := inferInstanceAs (Decidable (List.Pairwise _ _))

def parseValue : ℕ → List Char → Option (Value × List Char)
  | 0,_ => none
  | fuel + 1,text =>
    let string (parsed : Option (List Char × List Char)) := parsed.map fun (text,rest) => (Value.string text,rest)
    match text with
    | '"' :: '"' :: '"' :: rest => string (multiBasicString (rest.length + 1) (afterOpening rest))
    | '"' :: rest => string (basicString (rest.length + 1) rest)
    | '\'' :: '\'' :: '\'' :: rest => string (multiLiteralString (afterOpening rest))
    | '\'' :: rest => string (literalString rest)
    | '[' :: rest => (arrayItems (parseValue fuel) (rest.length + 1) rest).map fun (items,rest) => (.array items,rest)
    | '\x7b' :: rest =>
      match skipBlanks rest with
      | '\x7d' :: rest => some (.inline [],rest)
      | rest =>
        (inlineItems (parseValue fuel) (rest.length + 1) rest).bind fun (items,rest) =>
          if Disjoint items then some (.inline items,rest) else none
    | text => scalar text

/-- At most a comment follows. -/
def isOver (text : List Char) : Bool :=
  match skipBlanks text with
  | [] => true
  | c :: rest => decide (c = '#') && decide ('\n' ∉ rest)

def header (make : Path → Statement) (close : List Char) (text : List Char) : Option Statement :=
  (keyPath (text.length + 1) text).bind fun (path,rest) =>
    if close <+: rest ∧ isOver (rest.drop close.length) = true then some (make path) else none

def assignment (text : List Char) : Option Statement :=
  (keyPath (text.length + 1) text).bind fun (path,rest) =>
    match rest with
    | '=' :: rest =>
      (parseValue (rest.length + 1) (skipBlanks rest)).bind fun (value,rest) =>
        if isOver rest then some (.assign path value) else none
    | _ => none

def readStatement (text : List Char) : Option Statement :=
  match skipBlanks text with
  | [] => some .blank
  | '#' :: rest => if '\n' ∈ rest then none else some .blank
  | '[' :: '[' :: rest => header .arrayTable [']',']'] rest
  | '[' :: rest => header .table [']'] rest
  | text => assignment text

end CodexMultiAuth.Toml
