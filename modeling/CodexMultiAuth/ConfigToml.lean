import CodexMultiAuth.Identity

/-!
Binding a `config.toml` to the runtime rotation proxy and unbinding it. Both edit
the text line by line: the lines before the first table header are the root.
-/
namespace CodexMultiAuth.ConfigToml

abbrev Line := List Char
abbrev Text := List Char

def hasCrlf : Text → Bool
  | [] => false
  | c :: rest => (decide (c = '\r') && decide (rest.head? = some '\n')) || hasCrlf rest

/-- `"\r\n"` where the text includes it, else `"\n"`. -/
def lineEnding (text : Text) : List Char := if hasCrlf text then ['\r','\n'] else ['\n']

/-- The text split at `\r?\n`. -/
def splitLines : Text → List Line
  | [] => [[]]
  | c :: rest =>
    if c = '\n' then [] :: splitLines rest
    else if c = '\r' ∧ rest.head? = some '\n' then splitLines rest
    else
      match splitLines rest with
      | [] => [[c]]
      | line :: lines => (c :: line) :: lines

def joinLines (ending : List Char) (lines : List Line) : Text := List.intercalate ending lines

def textLines (text : Text) : List Line := if text = [] then [] else splitLines text

def isLineEnd (c : Char) : Bool := decide (c = '\r') || decide (c = '\n')

/-- `text.replace(/[\r\n]*$/, "")` -/
def stripLineEnds (text : Text) : Text := text.rdropWhile isLineEnd

def ensureTomlTrailingNewline (value : Text) : Text := stripLineEnds value ++ ['\n']

def trimText (text : Text) : Text := (text.dropWhile isWhiteSpace).rdropWhile isWhiteSpace

/-- The name of a table header: the trimmed line is the name between one or two
    opening and closing brackets, with no closing bracket in it. A second opening
    bracket belongs to the name where nothing else does. -/
def readTomlTableName (line : Line) : Option Text :=
  match trimText line with
  | '[' :: rest =>
    if rest.getLast? = some ']' then
      let inner := rest.dropLast
      let name := if inner.getLast? = some ']' then inner.dropLast else inner
      if name = [] ∨ ']' ∈ name then none
      else
        match name with
        | '[' :: second :: more => some (trimText (second :: more))
        | name => some (trimText name)
    else none
  | _ => none

def isTable (line : Line) : Bool := (readTomlTableName line).isSome

/-- What follows `^\s*key\s*=` in a line that starts so; `same` compares characters. -/
def afterKey (same : Char → Char → Bool) (key : List Char) (line : Line) : Option (List Char) :=
  let start := line.dropWhile isWhiteSpace
  if start.length < key.length ∨ ¬ (List.zipWith same key start).all id then none
  else
    match (start.drop key.length).dropWhile isWhiteSpace with
    | '=' :: value => some value
    | _ => none

def assigns (key : List Char) (line : Line) : Bool := (afterKey (fun a b => decide (a = b)) key line).isSome

def PROVIDER_ID : List Char := "codex-multi-auth-runtime-proxy".toList
def providerTable : List Char := "model_providers.".toList ++ PROVIDER_ID
def MODEL_PROVIDER : List Char := "model_provider".toList
def RESPONSE_STORAGE : List Char := "disable_response_storage".toList
def REALTIME_SIDEBAND_KEY : List Char := "experimental_realtime_ws_base_url".toList
def REALTIME_SIDEBAND_MARKER : List Char := "# codex-multi-auth realtime sideband".toList

/-- The four digits of a character's code. -/
def hexCode (c : Char) : List Char :=
  let digits := (Nat.toDigits 16 c.toNat).map Char.toUpper
  List.replicate (4 - digits.length) '0' ++ digits

def escapeChar (c : Char) : List Char :=
  if c = '\x08' then ['\\','b']
  else if c = '\t' then ['\\','t']
  else if c = '\n' then ['\\','n']
  else if c = '\x0c' then ['\\','f']
  else if c = '\r' then ['\\','r']
  else if c = '"' then ['\\','"']
  else if c = '\\' then ['\\','\\']
  else if c.toNat < 32 ∨ c.toNat = 127 then '\\' :: 'u' :: hexCode c
  else [c]

def tomlStringLiteral (value : Text) : List Char := '"' :: value.flatMap escapeChar ++ ['"']

/-- Drops the provider's table and its subtables. -/
def removeBlockLines : Bool → List Line → List Line
  | _,[] => []
  | skipping,line :: rest =>
    if readTomlTableName line = some providerTable then removeBlockLines true rest
    else
      match readTomlTableName line with
      | some (c :: name) =>
        if skipping ∧ (c :: name = providerTable ∨ (providerTable ++ ['.']) <+: c :: name) then removeBlockLines true rest
        else line :: removeBlockLines false rest
      | _ => if skipping then removeBlockLines true rest else line :: removeBlockLines false rest

def removeRuntimeRotationProviderBlock (rawConfig : Text) : Text :=
  joinLines (lineEnding rawConfig) (removeBlockLines false (splitLines rawConfig))

def createRuntimeRotationProviderBlock (baseUrl clientApiKey : Text) : List Line :=
  ['[' :: providerTable ++ [']'],"name = \"codex-multi-auth\"".toList,"base_url = ".toList ++ tomlStringLiteral baseUrl,
      "requires_openai_auth = false".toList] ++
    (if trimText clientApiKey = [] then [] else ["experimental_bearer_token = ".toList ++ tomlStringLiteral clientApiKey]) ++
    ["http_headers = \x7b \"x-openai-actor-authorization\" = \"codex-multi-auth-local\" \x7d".toList,"wire_api = \"responses\"".toList]

def createRealtimeSidebandConfigLine (baseUrl : Text) : Line :=
  REALTIME_SIDEBAND_KEY ++ " = ".toList ++ tomlStringLiteral baseUrl ++ [' '] ++ REALTIME_SIDEBAND_MARKER

def isOwnRealtimeSidebandLine (line : Line) : Bool :=
  assigns REALTIME_SIDEBAND_KEY line && decide (REALTIME_SIDEBAND_MARKER <:+ line.rdropWhile isWhiteSpace)

def extractTopLevel (key : List Char) : List Line → Option Line
  | [] => none
  | line :: rest => if isTable line then none else if assigns key line then some line else extractTopLevel key rest

def extractTopLevelLine (rawConfig : Text) (key : List Char) : Option Line := extractTopLevel key (splitLines rawConfig)

def removeSidebandLines : Bool → List Line → List Line
  | _,[] => []
  | inTopLevel,line :: rest =>
    let inTopLevel := inTopLevel && !isTable line
    if inTopLevel && isOwnRealtimeSidebandLine line then removeSidebandLines inTopLevel rest
    else line :: removeSidebandLines inTopLevel rest

def removeRealtimeSidebandBaseUrl (rawConfig : Text) : Text :=
  joinLines (lineEnding rawConfig) (removeSidebandLines true (splitLines rawConfig))

def configHasTopLevelRealtimeSidebandBaseUrl (rawConfig : Text) : Bool :=
  (extractTopLevelLine (removeRealtimeSidebandBaseUrl rawConfig) REALTIME_SIDEBAND_KEY).isSome

/-- A line before the first table, at the end where there is none. -/
def spliceRoot (line : Line) (lines : List Line) : List Line :=
  match lines.findIdx? isTable with
  | none => lines ++ [line]
  | some i => lines.take i ++ line :: lines.drop i

def rewriteTopLevelRealtimeSidebandBaseUrl (rawConfig baseUrl : Text) : Text :=
  let withoutOwn := removeRealtimeSidebandBaseUrl rawConfig
  if configHasTopLevelRealtimeSidebandBaseUrl withoutOwn then withoutOwn
  else joinLines (lineEnding withoutOwn) (spliceRoot (createRealtimeSidebandConfigLine baseUrl) (textLines withoutOwn))

def rewrittenLine : Line := "model_provider = ".toList ++ tomlStringLiteral PROVIDER_ID

/-- The first root line that assigns `model_provider` is rewritten; where a table or
    the end comes first, the line is added there. -/
def rewriteProviderLines : List Line → List Line
  | [] => [rewrittenLine]
  | line :: rest =>
    if isTable line then rewrittenLine :: line :: rest
    else if assigns MODEL_PROVIDER line then rewrittenLine :: rest
    else line :: rewriteProviderLines rest

def rewriteTopLevelModelProvider (rawConfig : Text) : Text :=
  joinLines (lineEnding rawConfig) (rewriteProviderLines (textLines rawConfig))

def isLineTerminator (c : Char) : Bool := isLineEnd c || decide (c.toNat = 0x2028) || decide (c.toNat = 0x2029)

def sameLetter (a b : Char) : Bool := decide (a.toLower = b.toLower)

/-- `/^\s*disable_response_storage\s*=\s*true\s*(?:#.*)?$/i` -/
def disablesStorage (line : Line) : Bool :=
  match (afterKey sameLetter RESPONSE_STORAGE line).map (List.dropWhile isWhiteSpace) with
  | some (t :: r :: u :: e :: rest) =>
    (sameLetter t 't' && sameLetter r 'r' && sameLetter u 'u' && sameLetter e 'e') &&
      (match rest.dropWhile isWhiteSpace with
      | [] => true
      | c :: comment => decide (c = '#') && comment.all (fun c => !isLineTerminator c))
  | _ => false

def storageLine : Line := "disable_response_storage = false".toList

def enableStorageLines : Bool → List Line → List Line
  | _,[] => []
  | inTopLevel,line :: rest =>
    if isTable line then line :: enableStorageLines false rest
    else if inTopLevel && disablesStorage line then storageLine :: enableStorageLines inTopLevel rest
    else line :: enableStorageLines inTopLevel rest

def enableTopLevelResponseStorage (rawConfig : Text) : Text :=
  joinLines (lineEnding rawConfig) (enableStorageLines true (textLines rawConfig))

def rewriteConfigTomlForRuntimeRotationProvider (rawConfig baseUrl clientApiKey : Text) : Text :=
  let withoutOldProvider := stripLineEnds (removeRuntimeRotationProviderBlock rawConfig)
  let withModelProvider := stripLineEnds (rewriteTopLevelModelProvider withoutOldProvider)
  let withResponseStorage :=
    stripLineEnds (rewriteTopLevelRealtimeSidebandBaseUrl (enableTopLevelResponseStorage withModelProvider) baseUrl)
  withResponseStorage ++ lineEnding rawConfig ++ lineEnding rawConfig ++
    joinLines (lineEnding rawConfig) (createRuntimeRotationProviderBlock baseUrl clientApiKey) ++ lineEnding rawConfig

def includesProvider (line : Line) : Bool := decide (PROVIDER_ID <:+: line)

def isRuntimeProviderLine (line : Line) : Bool := assigns MODEL_PROVIDER line && includesProvider line

/-- The first line of the proxy replaced by the original one; whether there was any. -/
def restoreProviderLines (originalLine : Option Line) : List Line → List Line × Bool
  | [] => ([],false)
  | line :: rest =>
    if isRuntimeProviderLine line then (originalLine.toList ++ rest,true)
    else
      let (output,handled) := restoreProviderLines originalLine rest
      (line :: output,handled)

def hasTopLevelModelProvider : List Line → Bool
  | [] => false
  | line :: rest => if isTable line then false else if assigns MODEL_PROVIDER line then true else hasTopLevelModelProvider rest

def restoreTopLevelModelProvider (currentConfig originalConfig : Text) : Text :=
  let originalLine := extractTopLevelLine originalConfig MODEL_PROVIDER
  let (output,handled) := restoreProviderLines originalLine (textLines currentConfig)
  joinLines (lineEnding currentConfig)
    (match originalLine with
    | some line => if handled = false ∧ hasTopLevelModelProvider output = false then spliceRoot line output else output
    | none => output)

/-- The first root line that assigns the storage key replaced by the original one. -/
def restoreStorageLines (originalLine : Option Line) : List Line → List Line × Bool
  | [] => ([],false)
  | line :: rest =>
    if isTable line then (line :: rest,false)
    else if assigns RESPONSE_STORAGE line then (originalLine.toList ++ rest,true)
    else
      let (output,handled) := restoreStorageLines originalLine rest
      (line :: output,handled)

def restoreTopLevelResponseStorage (currentConfig originalConfig : Text) : Text :=
  let originalLine := extractTopLevelLine originalConfig RESPONSE_STORAGE
  let (output,handled) := restoreStorageLines originalLine (textLines currentConfig)
  joinLines (lineEnding currentConfig)
    (match originalLine with
    | some line => if handled = false then spliceRoot line output else output
    | none => output)

def restoreConfigTomlFromRuntimeRotationProvider (currentConfig originalConfig : Text) : Text :=
  let withoutProvider := removeRealtimeSidebandBaseUrl (removeRuntimeRotationProviderBlock currentConfig)
  let withResponseStorage := restoreTopLevelResponseStorage withoutProvider originalConfig
  ensureTomlTrailingNewline (stripLineEnds (restoreTopLevelModelProvider withResponseStorage originalConfig))

end CodexMultiAuth.ConfigToml
