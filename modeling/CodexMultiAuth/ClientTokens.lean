import Mathlib.Algebra.Order.Ring.Rat
import CodexMultiAuth.JsonStoreLaw
import CodexMultiAuth.Texts

/-!
The tokens of local clients. The store holds their hashes; a token is rotated or
revoked by marking its row, and no row is ever taken out. A save brings the rows of a
snapshot, which may be stale, over those of the file.
-/
namespace CodexMultiAuth.ClientTokens
open Exclusive (Task)
open Dialogue (Program)
open JsonStore (Code Disk Request Answer Failure StoreTask Kind Mutate)

structure TokenId where
  text : String
  trimmed : trim text = text
  some : text ≠ ""

def SHA256 : List Char := ['s','h','a','2','5','6',':']

structure TokenHash where
  text : String
  marked : SHA256 <+: text.toList

/-- The row shows the first letters of its token. -/
structure LocalClientTokenRecord where
  id : TokenId
  label : String
  shown : String
  tokenHash : TokenHash
  createdAt : ℚ
  lastUsedAt : Option ℚ
  revokedAt : Option ℚ

structure LocalClientTokenStore where
  tokens : List LocalClientTokenRecord

structure CreatedLocalClientToken where
  plainToken : String
  record : LocalClientTokenRecord

def TOKEN_PREFIX : String := "cma_local"
def LAST_USED_PERSIST_THRESHOLD_MS : ℚ := 60000
def RETRYABLE_FS_CODES : List Code := [.EBUSY,.EPERM,.EAGAIN,.ENOTEMPTY,.EACCES]

def normalizeLabel (value : Option String) : String :=
  match value.bind (fun text => nonEmpty (trim text)) with
  | some trimmed => slice 80 trimmed
  | none => "local-client"

def hexDigit (c : Char) : Option ℕ :=
  if '0' ≤ c ∧ c ≤ '9' then some (c.toNat - 48)
  else if 'a' ≤ c.toLower ∧ c.toLower ≤ 'f' then some (c.toLower.toNat - 87)
  else none

/-- The digits of a hash, two to a byte. -/
def sha256DigestBytes (hash : String) : Option (List ℕ) :=
  let chars := hash.toList
  if (chars.take 7).map Char.toLower = SHA256 ∧ chars.length = 71 then (chars.drop 7).mapM hexDigit else none

def tokenHashEqual (left right : String) : Bool :=
  match sha256DigestBytes left,sha256DigestBytes right with
  | some leftDigest,some rightDigest => leftDigest == rightDigest
  | _,_ => false

def tokenPrefix (token : String) : String := slice 18 token

def normalizeRecord (value : Json) : Option LocalClientTokenRecord :=
  value.asRecord.bind (fun fields =>
    (Record.text fields "id").bind (fun id =>
      if named : trim id = "" then none
      else
        (Record.text fields "tokenHash").bind (fun tokenHash =>
          if marked : SHA256 <+: tokenHash.toList then
            some
              { id := ⟨trim id,trim_trim id,named⟩
                label := normalizeLabel (Record.text fields "label")
                shown := ((Record.text fields "prefix").map (slice 32)).getD ""
                tokenHash := ⟨tokenHash,marked⟩
                createdAt := (Record.number fields "createdAt").getD 0
                lastUsedAt := Record.number fields "lastUsedAt"
                revokedAt := Record.number fields "revokedAt" }
          else none)))

def timeJson (time : Option ℚ) : Json := (time.map Json.num).getD .null

def LocalClientTokenRecord.fields (record : LocalClientTokenRecord) : Record :=
  [("id",.str record.id.text),("label",.str record.label),("prefix",.str record.shown),("tokenHash",.str record.tokenHash.text),
    ("createdAt",.num record.createdAt),("lastUsedAt",timeJson record.lastUsedAt),("revokedAt",timeJson record.revokedAt)]

def LocalClientTokenRecord.toJson (record : LocalClientTokenRecord) : Json := .obj record.fields

def emptyStore : LocalClientTokenStore := ⟨[]⟩

def normalizeStore (value : Json) : LocalClientTokenStore :=
  match value.asRecord with
  | none => emptyStore
  | some fields =>
    if Record.number fields "version" = some 1 then
      match (OrderedMap.find fields "tokens").bind Json.asItems with
      | some tokens => ⟨tokens.filterMap normalizeRecord⟩
      | none => emptyStore
    else emptyStore

def LocalClientTokenStore.toJson (store : LocalClientTokenStore) : Json :=
  .obj [("version",.num 1),("tokens",.arr (store.tokens.map LocalClientTokenRecord.toJson))]

def tokenKind : Kind LocalClientTokenStore := ⟨emptyStore,normalizeStore,RETRYABLE_FS_CODES⟩

def modifyFirst {α : Type} (such : α → Bool) (change : α → α) : List α → List α
  | [] => []
  | first :: rest => if such first then change first :: rest else first :: modifyFirst such change rest

/-- The later of the two times, where there are two. -/
def laterTime (incoming existing : Option ℚ) : Option ℚ :=
  match incoming,existing with
  | none,time => time
  | time,none => time
  | some incoming,some existing => some (max incoming existing)

def mergeTokens (existing record : LocalClientTokenRecord) : LocalClientTokenRecord :=
  { record with
    lastUsedAt := laterTime record.lastUsedAt existing.lastUsedAt
    revokedAt := record.revokedAt.or existing.revokedAt }

/-- The rows with this one merged into the last of its id, if there is one. -/
def mergeInto (record : LocalClientTokenRecord) : List LocalClientTokenRecord → Option (List LocalClientTokenRecord)
  | [] => none
  | first :: rest =>
    match mergeInto record rest with
    | some merged => some (first :: merged)
    | none => if first.id.text = record.id.text then some (mergeTokens first record :: rest) else none

def mergeRecord (tokens : List LocalClientTokenRecord) (record : LocalClientTokenRecord) : List LocalClientTokenRecord :=
  (mergeInto record tokens).getD (tokens ++ [record])

def mergeTokenStoreRecords (current incoming : LocalClientTokenStore) : LocalClientTokenStore :=
  ⟨incoming.tokens.foldl mergeRecord current.tokens⟩

def payloadOf (store : LocalClientTokenStore) : Json := (normalizeStore store.toJson).toJson

def writeStoreToDisk (payload : Json) (expectedMtimeMs : Option ℕ) : StoreTask Unit := do
  let answer ← Task.ask .mkdir
  JsonStore.orThrow answer
  let _ ← Task.ask .chmod
  JsonStore.orUnlink (do
    JsonStore.writeTempFile payload
    JsonStore.assertJsonStoreFileMtimeUnchanged expectedMtimeMs
    JsonStore.renameWithRetry RETRYABLE_FS_CODES)

/-- What is drawn for a new token. -/
structure Drawn where
  id : TokenId
  bytes : String

inductive Result where
  | saved
  | created (token : Option CreatedLocalClientToken)
  | revoked (done : Bool)
  | verified (record : Option LocalClientTokenRecord)

/-- A rotation keeps the token it has created for its next attempt. -/
abbrev Change := Mutate LocalClientTokenStore (Option CreatedLocalClientToken) Result

section
variable [Host]

def hashToken (token : String) : TokenHash where
  text := String.ofList (SHA256 ++ (Host.sha256 token).toList)
  marked := by
    rw [String.toList_ofList]
    exact List.prefix_append _ _

def createPlainToken (drawn : Drawn) : String := TOKEN_PREFIX ++ "_" ++ drawn.bytes

def createLocalClientTokenRecord (drawn : Drawn) (label : Option String) (now : ℚ) : CreatedLocalClientToken where
  plainToken := createPlainToken drawn
  record :=
    { id := drawn.id
      label := normalizeLabel label
      shown := tokenPrefix (createPlainToken drawn)
      tokenHash := hashToken (createPlainToken drawn)
      createdAt := now
      lastUsedAt := none
      revokedAt := none }

def saveLocalClientTokenStore (incoming : LocalClientTokenStore) : Change := fun carry current =>
  (carry,.saved,some (payloadOf (mergeTokenStoreRecords current incoming)))

def addLocalClientToken (created : CreatedLocalClientToken) : Change := fun carry store =>
  (carry,.created (some created),some (payloadOf ⟨store.tokens ++ [created.record]⟩))

def hasId (id : String) (record : LocalClientTokenRecord) : Bool := decide (record.id.text = id)

def revokeFirst (id : String) (now : ℚ) (tokens : List LocalClientTokenRecord) : List LocalClientTokenRecord :=
  modifyFirst (hasId id) (fun record => { record with revokedAt := some now }) tokens

def rotateLocalClientToken (id : String) (label : Option String) (now : ℚ) (drawn : Drawn) : Change := fun created store =>
  match store.tokens.find? (hasId id) with
  | none => (created,.created none,none)
  | some existing =>
    if existing.revokedAt.isSome then (created,.created none,none)
    else
      let token := created.getD (createLocalClientTokenRecord drawn (some (label.getD existing.label)) now)
      (some token,.created (some token),some (payloadOf ⟨revokeFirst id now store.tokens ++ [token.record]⟩))

def revokeLocalClientToken (id : String) (now : ℚ) : Change := fun carry store =>
  match store.tokens.find? (hasId id) with
  | none => (carry,.revoked false,none)
  | some existing =>
    if existing.revokedAt.isSome then (carry,.revoked false,none)
    else (carry,.revoked true,some (payloadOf ⟨revokeFirst id now store.tokens⟩))

def verifies (tokenHash : String) (record : LocalClientTokenRecord) : Bool :=
  record.revokedAt.isNone && tokenHashEqual record.tokenHash.text tokenHash

/-- Whether the use of a row is to be written. -/
def useIsDue (persisted : Option ℚ) (now : ℚ) : Bool :=
  match persisted with
  | none => true
  | some persisted => decide (LAST_USED_PERSIST_THRESHOLD_MS ≤ now - persisted)

def verifyToken (tokenHash : String) (now : ℚ) : Change := fun carry store =>
  match store.tokens.find? (verifies tokenHash) with
  | none => (carry,.verified none,none)
  | some record =>
    (carry,.verified (some { record with lastUsedAt := some now }),
      if useIsDue record.lastUsedAt now then
        some (payloadOf ⟨modifyFirst (verifies tokenHash) (fun record => { record with lastUsedAt := some now }) store.tokens⟩)
      else none)

def isLineTerminator (c : Char) : Bool := [0xA,0xD,0x2028,0x2029].contains c.toNat

def bearerToken (authorizationHeader : String) : Option String :=
  let rest := authorizationHeader.toList.drop 6
  let token := rest.dropWhile isWhiteSpace
  if (authorizationHeader.toList.take 6).map Char.toLower = "bearer".toList ∧ token.length < rest.length ∧ token.any isLineTerminator = false then
    nonEmpty (trim (String.ofList token))
  else none

inductive Operation where
  | save (store : Json)
  | add (label : Option String) (now : ℚ) (drawn : Drawn)
  | rotate (id : String) (label : Option String) (now : ℚ) (drawn : Drawn)
  | revoke (id : String) (now : ℚ)
  | verify (authorizationHeader : Option String) (now : ℚ)

def updateLocalClientTokenStore (change : Change) : StoreTask Result := JsonStore.withJsonStoreCasRetry tokenKind writeStoreToDisk change none

def Operation.program : Operation → Program Answer (Except Failure Result)
  | .save store => (updateLocalClientTokenStore (saveLocalClientTokenStore (normalizeStore store))).run
  | .add label now drawn => (updateLocalClientTokenStore (addLocalClientToken (createLocalClientTokenRecord drawn label now))).run
  | .rotate id label now drawn => (updateLocalClientTokenStore (rotateLocalClientToken id label now drawn)).run
  | .revoke id now => (updateLocalClientTokenStore (revokeLocalClientToken id now)).run
  | .verify authorizationHeader now =>
    match authorizationHeader.bind bearerToken with
    | none => pure (.ok (.verified none))
    | some token => (updateLocalClientTokenStore (verifyToken (hashToken token).text now)).run

end
end CodexMultiAuth.ClientTokens
