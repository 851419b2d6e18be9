import CodexMultiAuth.Identity

/-!
Edits of a file's lines by reference. A reference names a line by its number and the hash of
its text; an edit splits the file into lines, changes a range of them and joins them again
with one terminator.
-/
namespace CodexMultiAuth.Hashline

abbrev Text := List Char

structure NormalizedFileText where
  lines : List Text
  eol : Text
  hadTrailingNewline : Bool

/-- Each carriage return before a line feed goes. -/
def replaceCrlf : Text → Text
  | '\r' :: '\n' :: rest => '\n' :: replaceCrlf rest
  | c :: rest => c :: replaceCrlf rest
  | [] => []

def includesCrlf : Text → Bool
  | '\r' :: '\n' :: _ => true
  | _ :: rest => includesCrlf rest
  | [] => false

def endsWithNewline (text : Text) : Bool := text.getLast? = some '\n'

/-- The lines without the empty one after a last line feed. -/
def textLines (normalized : Text) : List Text :=
  if endsWithNewline normalized then (normalized.splitOn '\n').dropLast else normalized.splitOn '\n'

def normalizeFileText (content : Text) : NormalizedFileText :=
  let normalized := replaceCrlf content
  let eol := if includesCrlf content then ['\r','\n'] else ['\n']
  if normalized = [] then ⟨[],eol,false⟩ else ⟨textLines normalized,eol,endsWithNewline normalized⟩

def denormalizeFileText (value : NormalizedFileText) : Text :=
  if value.lines = [] then []
  else if value.hadTrailingNewline then value.eol.intercalate value.lines ++ value.eol else value.eol.intercalate value.lines

def splitInsertText (value : Text) : List Text := if replaceCrlf value = [] then [] else textLines (replaceCrlf value)

structure ParsedHashlineRef where
  lineNumber : ℕ
  hash : Text
  raw : Text
  deriving DecidableEq

def isHexDigit (c : Char) : Bool := c.isDigit || ('a' ≤ c && c ≤ 'f') || ('A' ≤ c && c ≤ 'F')

def decimal (digits : Text) : ℕ := digits.foldl (fun n c => 10 * n + (c.toNat - 48)) 0

/-- `L`, a number without leading zeros, `#` and eight hexadecimal digits. -/
def parseHashlineRef (value : String) : Option ParsedHashlineRef :=
  let raw := (trim value).toList
  match raw with
  | l :: rest =>
    let digits := rest.takeWhile Char.isDigit
    match rest.dropWhile Char.isDigit with
    | '#' :: hash =>
      if (l = 'L' ∨ l = 'l') ∧ digits ≠ [] ∧ digits.head? ≠ some '0' ∧ hash.length = 8 ∧ hash.all isHexDigit then
        some ⟨decimal digits,hash.map Char.toLower,raw⟩
      else none
    | _ => none
  | [] => none

/-- The hash function of the host, in hexadecimal digits. -/
class Sha1 where
  digest : Text → Text

section
variable [Sha1]

def computeHashline (text : Text) : Text := (Sha1.digest text).take 8

def formatHashlineRef (lineNumber : ℕ) (text : Text) : String := "L" ++ toString lineNumber ++ "#" ++ String.ofList (computeHashline text)

def resolveHashlineRef (lines : List Text) (ref : ParsedHashlineRef) (label : String) : Except String ℕ :=
  if lines.length < ref.lineNumber then
    .error (label ++ " is out of range (" ++ String.ofList ref.raw ++ "). File has " ++ toString lines.length ++ " line(s).")
  else
    match lines[ref.lineNumber - 1]? with
    | none => .error (label ++ " is out of range (" ++ String.ofList ref.raw ++ ").")
    | some line =>
      if computeHashline line ≠ ref.hash then
        .error (label ++ " hash mismatch at line " ++ toString ref.lineNumber ++ ". Expected " ++ String.ofList ref.hash ++ ", found " ++
          String.ofList (computeHashline line) ++ ". Current ref: " ++ formatHashlineRef ref.lineNumber line)
      else .ok (ref.lineNumber - 1)

inductive HashlineOperation where
  | replace
  | insertBefore
  | insertAfter
  | delete
  deriving DecidableEq

def parseOperation [Host] (value : Option String) : Option HashlineOperation :=
  let normalized := Host.toLowerCase (trim (value.getD "replace"))
  if normalized = "replace" then some .replace
  else if normalized = "insert_before" then some .insertBefore
  else if normalized = "insert_after" then some .insertAfter
  else if normalized = "delete" then some .delete
  else none

structure HashlineEditArgs where
  lineRef : Option String
  endLineRef : Option String
  operation : Option String
  content : Option String
  newString : Option String

structure HashlineEditSuccess where
  updatedContent : Text
  operation : HashlineOperation
  changedStartLine : ℕ
  changedEndLine : ℕ
  deriving DecidableEq

/-- Lines in the place of a range of others. -/
def splice (lines : List Text) (start deleteCount : ℕ) (insertLines : List Text) : List Text :=
  lines.take start ++ insertLines ++ lines.drop (start + deleteCount)

def HashlineEditArgs.nextText (args : HashlineEditArgs) : Text := ((args.content <|> args.newString).getD "").toList

/-- What an operation does to the range from the first line to the last: where it begins to
    change the lines, how many it removes, and the lines it puts there. -/
structure Change where
  start : ℕ
  deleteCount : ℕ
  insertLines : List Text

def HashlineOperation.change (startIndex endIndex : ℕ) (insertLines : List Text) : HashlineOperation → Change
  | .replace => ⟨startIndex,endIndex - startIndex + 1,insertLines⟩
  | .delete => ⟨startIndex,endIndex - startIndex + 1,[]⟩
  | .insertBefore => ⟨startIndex,0,insertLines⟩
  | .insertAfter => ⟨startIndex + 1,0,insertLines⟩

def HashlineOperation.changedStartLine (lineNumber : ℕ) : HashlineOperation → ℕ
  | .replace | .insertBefore => lineNumber
  | .delete => max 1 (lineNumber - 1)
  | .insertAfter => lineNumber + 1

def HashlineOperation.changedEndLine (lineNumber : ℕ) (insertLines : List Text) : HashlineOperation → ℕ
  | .replace => if insertLines ≠ [] then lineNumber + insertLines.length - 1 else max 1 (lineNumber - 1)
  | .delete => max 1 (lineNumber - 1)
  | .insertBefore => lineNumber + insertLines.length - 1
  | .insertAfter => lineNumber + insertLines.length

def parseRef (label : String) (text : String) : Except String ParsedHashlineRef :=
  match parseHashlineRef text with
  | none => .error ("Invalid " ++ label ++ " format: " ++ text ++ ". Expected L<line>#<hash>.")
  | some ref => .ok ref

def parseArgs [Host] (args : HashlineEditArgs) : Except String (ParsedHashlineRef × ParsedHashlineRef × HashlineOperation) := do
  match args.lineRef.bind nonEmpty with
  | none => .error "lineRef is required for hashline edit mode."
  | some text =>
    let lineRef ← parseRef "lineRef" text
    let endLineRef ← (match args.endLineRef.bind nonEmpty with
      | some text => parseRef "endLineRef" text
      | none => .ok lineRef)
    if endLineRef.lineNumber < lineRef.lineNumber then .error "endLineRef must be on or after lineRef."
    else
      match parseOperation args.operation with
      | none => .error "Invalid operation. Use one of: replace, insert_before, insert_after, delete."
      | some operation => .ok (lineRef,endLineRef,operation)

def HashlineOperation.name : HashlineOperation → String
  | .replace => "replace"
  | .insertBefore => "insert_before"
  | .insertAfter => "insert_after"
  | .delete => "delete"

def applyHashlineEdit [Host] (content : Text) (args : HashlineEditArgs) : Except String HashlineEditSuccess := do
  let (lineRef,endLineRef,operation) ← parseArgs args
  let normalized := normalizeFileText content
  let startIndex ← resolveHashlineRef normalized.lines lineRef "lineRef"
  let endIndex ← resolveHashlineRef normalized.lines endLineRef "endLineRef"
  let insertLines := splitInsertText args.nextText
  if (operation = .insertBefore ∨ operation = .insertAfter) ∧ insertLines = [] then
    .error ("content is required for " ++ operation.name ++ ".")
  else
    let change := operation.change startIndex endIndex insertLines
    let lines := splice normalized.lines change.start change.deleteCount change.insertLines
    .ok {
      updatedContent := denormalizeFileText ⟨lines,normalized.eol,if lines ≠ [] then normalized.hadTrailingNewline else false⟩
      operation
      changedStartLine := operation.changedStartLine lineRef.lineNumber
      changedEndLine := operation.changedEndLine lineRef.lineNumber insertLines }

end
end CodexMultiAuth.Hashline
