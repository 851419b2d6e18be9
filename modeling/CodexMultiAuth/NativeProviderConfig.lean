import CodexMultiAuth.ConfigEdits
import CodexMultiAuth.TomlTables

/-!
Binding a `config.toml` to the native provider and unbinding it. A marked block at the top
sets the provider and the URL of the proxy; the lines of the root that set the same keys are
taken out, and come back in front when the block is removed.
-/
namespace CodexMultiAuth.NativeProvider
open ConfigToml (Line Text splitLines joinLines trimText assigns tomlStringLiteral isTable isOwnRealtimeSidebandLine
  removeRealtimeSidebandBaseUrl configHasTopLevelRealtimeSidebandBaseUrl createRealtimeSidebandConfigLine extractTopLevel
  MODEL_PROVIDER REALTIME_SIDEBAND_KEY REALTIME_SIDEBAND_MARKER)

def BEGIN : Text := "# codex-multi-auth native provider begin".toList
def END : Text := "# codex-multi-auth native provider end".toList
def OPENAI_BASE_URL : Text := "openai_base_url".toList

/-- What stands before the first occurrence, and after it. -/
def breakOn (needle : Text) : Text → Option (Text × Text)
  | [] => if needle = [] then some ([],[]) else none
  | c :: rest =>
    if needle <+: c :: rest then some ([],(c :: rest).drop needle.length)
    else (breakOn needle rest).map fun (front,tail) => (c :: front,tail)

/-- `text.replace(/^\r?\n/, "")` -/
def dropLineEnd : Text → Text
  | '\n' :: rest => rest
  | '\r' :: '\n' :: rest => rest
  | text => text

/-- Nothing where it throws: the block is incomplete. -/
def withoutNativeBlock (content : Text) : Option Text :=
  match breakOn BEGIN content with
  | none => some content
  | some (front,after) => (breakOn END (BEGIN ++ after)).map fun (_,tail) => front ++ dropLineEnd tail

def hasNativeProviderConfig (content : Text) : Bool := (splitLines content).any fun line => decide (trimText line = BEGIN)

/-- `/^\s*\[/` -/
def opensTable (line : Line) : Bool := decide ((line.dropWhile CodexMultiAuth.isWhiteSpace).head? = some '[')

/-- `ROOT_KEYS` -/
def setsRootKey (line : Line) : Bool := assigns MODEL_PROVIDER line || assigns OPENAI_BASE_URL line

/-- The lines of the root that set one of the keys, or all other lines. -/
def selectLines (select : Bool) : Bool → List Line → List Line
  | _,[] => []
  | root,line :: rest =>
    let root := root && !opensTable line
    let matched := root && setsRootKey line
    if matched = select then line :: selectLines select root rest else selectLines select root rest

def rootLines (content : Text) (select : Bool) : List Line := selectLines select true (splitLines content)

/-- What `new URL` makes of a text. -/
structure Url where
  protocol : Text
  hostname : Text
  port : Text
  username : Text
  password : Text
  search : Text
  hash : Text
  pathname : Text

/-- An origin of a loopback proxy. -/
def Url.isProxyOrigin (url : Url) : Bool :=
  decide (url.protocol = "http:".toList) &&
    (decide (url.hostname = "127.0.0.1".toList) || decide (url.hostname = "[::1]".toList)) &&
    decide (url.port ≠ []) && decide (url.username = []) && decide (url.password = []) && decide (url.search = []) &&
    decide (url.hash = []) && decide (url.pathname = "/".toList)

def providerLine : Line := "model_provider = \"openai\"".toList
def baseUrlLine (baseUrl : Text) : Line := OPENAI_BASE_URL ++ " = ".toList ++ tomlStringLiteral baseUrl

/-- The block, with a realtime line unless the user has one. -/
def nativeBlock (hasRealtime : Bool) (baseUrl : Text) : List Line :=
  [BEGIN,providerLine,baseUrlLine baseUrl] ++ (if hasRealtime then [] else [createRealtimeSidebandConfigLine baseUrl]) ++ [END]

/-- Nothing where it throws. -/
def rewriteNativeProviderConfig (parseUrl : Text → Option Url) (content baseUrl : Text) : Option Text :=
  if (parseUrl baseUrl).any Url.isProxyOrigin then
    (withoutNativeBlock content).map fun content =>
      let unbound := removeRealtimeSidebandBaseUrl content
      joinLines ['\n'] (nativeBlock (configHasTopLevelRealtimeSidebandBaseUrl unbound) baseUrl ++ rootLines unbound false)
  else none

def restoreNativeProviderConfig (content original : Text) : Option Text :=
  if hasNativeProviderConfig content then
    (withoutNativeBlock content).map fun content => joinLines ['\n'] (rootLines original true ++ rootLines content false)
  else some content

end CodexMultiAuth.NativeProvider
