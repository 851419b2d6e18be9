import CodexMultiAuth.Identity
import Mathlib.Data.List.Sort
import Mathlib.Data.String.Basic

/-!
The stored messages and parts of a session, and the repairs of the session recovery.
A file is followed by its parsed contents. A listing, a read, a write or a removal
may fail for a moment; the faults of each pass over a directory are its parameter.

A file that is quarantined is in no later listing.
-/
namespace CodexMultiAuth.SessionStore

def THINKING_TYPES : List String := ["thinking","redacted_thinking","reasoning"]

/-- `/^[a-zA-Z0-9_-]+$/` -/
def isSafeId (id : String) : Bool := decide (id ≠ "") && id.toList.all (fun c => c.isAlphanum || c == '_' || c == '-')

abbrev SafeId := { id : String // isSafeId id = true }

def validatePathId (id : String) : Option SafeId := if safe : isSafeId id = true then some ⟨id,safe⟩ else none

structure StoredFile where
  name : String
  /-- Nothing where the text is not JSON. -/
  content : Option Json

abbrev Dir := List StoredFile

def StoredFile.isJson (file : StoredFile) : Bool := ".json".toList.isSuffixOf file.name.toList

structure Store where
  messages : Option Dir
  parts : SafeId → Option Dir

def Store.setParts (store : Store) (messageID : SafeId) (dir : Option Dir) : Store :=
  { store with parts := Function.update store.parts messageID dir }

/-- `part.type`, where it is a text. -/
def typeOf : Json → Option String
  | .obj fields => Record.text fields "type"
  | _ => none

structure StoredPart where
  id : SafeId
  type : String
  fields : Record

def isValidStoredPart : Json → Option StoredPart
  | .obj fields =>
    (Record.text fields "id").bind (fun id => (validatePathId id).bind (fun id => (Record.text fields "type").map (fun type => ⟨id,type,fields⟩)))
  | _ => none

structure StoredMessageMeta where
  id : SafeId
  role : Option String
  created : ℚ

/-- `time.created`, where it may stand; zero where there is none. -/
def validCreated (fields : Record) : Option ℚ :=
  match fields.find "time" with
  | none => some 0
  | some (.arr _) => some 0
  | some (.obj time) =>
    match OrderedMap.find time "created" with
    | none => some 0
    | some (.num created) => some created
    | some _ => none
  | some _ => none

def isValidStoredMessage : Json → Option StoredMessageMeta
  | .obj fields =>
    (Record.text fields "id").bind (fun id => (validatePathId id).bind (fun id =>
      (validCreated fields).map (fun created => ⟨id,Record.text fields "role",created⟩)))
  | _ => none

structure ReadFaults where
  list : Bool
  read : String → Bool
  quarantine : String → Bool

def ReadFaults.none : ReadFaults := ⟨false,fun _ => false,fun _ => false⟩

/-- The records of a listing. What is read and is no record is quarantined. -/
def readFiles {α : Type} (valid : Json → Option α) (faults : ReadFaults) : Dir → List α × Dir
  | [] => ([],[])
  | file :: rest =>
    let later := readFiles valid faults rest
    if file.isJson = false ∨ faults.read file.name = true then (later.1,file :: later.2)
    else
      match file.content.bind valid with
      | some record => (record :: later.1,file :: later.2)
      | none => (later.1,if faults.quarantine file.name then file :: later.2 else later.2)

def readDirectory {α : Type} (valid : Json → Option α) (faults : ReadFaults) (dir : Option Dir) : List α × Option Dir :=
  match dir with
  | none => ([],none)
  | some files => if faults.list then ([],some files) else ((readFiles valid faults files).1,some (readFiles valid faults files).2)

def earlier (a b : StoredMessageMeta) : Prop := a.created < b.created ∨ (a.created = b.created ∧ a.id.val ≤ b.id.val)

instance : DecidableRel earlier := fun _ _ => inferInstanceAs (Decidable (_ ∨ _))

def readMessages (store : Store) (faults : ReadFaults) : List StoredMessageMeta × Store :=
  let read := readDirectory isValidStoredMessage faults store.messages
  (read.1.insertionSort earlier,{ store with messages := read.2 })

def readParts (store : Store) (messageID : SafeId) (faults : ReadFaults) : List StoredPart × Store :=
  let read := readDirectory isValidStoredPart faults (store.parts messageID)
  (read.1,store.setParts messageID read.2)

def StoredPart.isThinking (part : StoredPart) : Bool := THINKING_TYPES.contains part.type

/-- The part whose id comes first. -/
def firstPart (parts : List StoredPart) : Option StoredPart := (parts.insertionSort (fun a b => a.id.val ≤ b.id.val)).head?

/-- The first part, where it is not a thinking part. -/
def orphanFirst (parts : List StoredPart) : Option StoredPart := (firstPart parts).filter (fun first => !first.isThinking)

structure ScanFaults where
  messages : ReadFaults
  /-- By the message's place in the session. -/
  parts : ℕ → ReadFaults

def ScanFaults.none : ScanFaults := ⟨.none,fun _ => .none⟩

def isAssistant (message : StoredMessageMeta) : Bool := decide (message.role = some "assistant")

def findAmong (test : List StoredPart → Bool) (faults : ℕ → ReadFaults) : List StoredMessageMeta → ℕ → Store → List SafeId × Store
  | [],_,store => ([],store)
  | message :: rest,position,store =>
    if isAssistant message then
      let read := readParts store message.id (faults position)
      let later := findAmong test faults rest (position + 1) read.2
      (if test read.1 then message.id :: later.1 else later.1,later.2)
    else findAmong test faults rest (position + 1) store

def findMessages (test : List StoredPart → Bool) (store : Store) (faults : ScanFaults) : List SafeId × Store :=
  let read := readMessages store faults.messages
  findAmong test faults.parts read.1 0 read.2

def findMessagesWithThinkingBlocks (store : Store) (faults : ScanFaults) : List SafeId × Store :=
  findMessages (fun parts => parts.any StoredPart.isThinking) store faults

def findMessagesWithOrphanThinking (store : Store) (faults : ScanFaults) : List SafeId × Store :=
  findMessages (fun parts => (orphanFirst parts).isSome) store faults

def findMessageByIndexNeedingThinking (store : Store) (targetIndex : ℕ) (messages parts : ReadFaults) : Option SafeId × Store :=
  let read := readMessages store messages
  match read.1[targetIndex]? with
  | none => (none,read.2)
  | some message =>
    if isAssistant message then
      let stored := readParts read.2 message.id parts
      (if (orphanFirst stored.1).isSome then some message.id else none,stored.2)
    else (none,read.2)

structure WriteFaults where
  mkdir : Bool
  write : Bool

/-- A file under its name, in the place of an older one if there is one. -/
def writeFile (dir : Dir) (file : StoredFile) : Dir :=
  if dir.any (fun old => decide (old.name = file.name)) then dir.map (fun old => if old.name = file.name then file else old)
  else dir ++ [file]

def thinkingPart (sessionID : String) (messageID partId : SafeId) : Json :=
  .obj [("id",.str partId.val),("sessionID",.str sessionID),("messageID",.str messageID.val),("type",.str "thinking"),("thinking",.str ""),
    ("synthetic",.bool true)]

def prependThinkingPart (sessionID : String) (store : Store) (messageID partId : SafeId) (faults : WriteFaults) : Bool × Store :=
  if (store.parts messageID).isNone ∧ faults.mkdir = true then (false,store)
  else
    let dir := (store.parts messageID).getD []
    if faults.write then (false,store.setParts messageID (some dir))
    else (true,store.setParts messageID (some (writeFile dir ⟨partId.val ++ ".json",some (thinkingPart sessionID messageID partId)⟩)))

structure StripFaults where
  list : Bool
  read : String → Bool
  remove : String → Bool

/-- A thinking part, by its type alone. -/
def StoredFile.isThinking (file : StoredFile) : Bool :=
  file.isJson && ((file.content.bind typeOf).any (fun type => THINKING_TYPES.contains type))

/-- What stays, whether a part was removed and whether one could not be. -/
def stripFiles (faults : StripFaults) : Dir → Dir × Bool × Bool
  | [] => ([],false,false)
  | file :: rest =>
    let later := stripFiles faults rest
    if faults.read file.name = true ∨ file.isThinking = false then (file :: later.1,later.2)
    else if faults.remove file.name then (file :: later.1,later.2.1,true)
    else (later.1,true,later.2.2)

def stripThinkingParts (store : Store) (messageID : SafeId) (faults : StripFaults) : Bool × Store :=
  match store.parts messageID with
  | none => (false,store)
  | some dir =>
    if faults.list then (false,store)
    else
      let stripped := stripFiles faults dir
      (stripped.2.1 && !stripped.2.2,store.setParts messageID (some stripped.1))

structure ReplaceFaults where
  list : Bool
  read : String → Bool
  write : String → Bool

def hasEmptyText (fields : Record) : Bool :=
  match fields.find "text" with
  | none => true
  | some .null => true
  | some (.str text) => decide (trim text = "")
  | some _ => false

/-- The fields of a text part whose text is empty. -/
def emptyTextPart (file : StoredFile) : Option Record :=
  match file.content with
  | some (.obj fields) =>
    if file.isJson = true ∧ Record.text fields "type" = some "text" ∧ hasEmptyText fields = true then some fields else none
  | _ => none

def replacedText (fields : Record) (replacementText : String) : Json :=
  .obj (OrderedMap.put (OrderedMap.put fields "text" (.str replacementText)) "synthetic" (.bool true))

def replaceFiles (replacementText : String) (faults : ReplaceFaults) : Dir → Dir × Bool
  | [] => ([],false)
  | file :: rest =>
    let later := replaceFiles replacementText faults rest
    match emptyTextPart file with
    | none => (file :: later.1,later.2)
    | some fields =>
      if faults.read file.name = true ∨ faults.write file.name = true then (file :: later.1,later.2)
      else ({ file with content := some (replacedText fields replacementText) } :: later.1,true)

def replaceEmptyTextParts (store : Store) (messageID : SafeId) (replacementText : String) (faults : ReplaceFaults) : Bool × Store :=
  match store.parts messageID with
  | none => (false,store)
  | some dir =>
    if faults.list then (false,store)
    else
      let replaced := replaceFiles replacementText faults dir
      (replaced.2,store.setParts messageID (some replaced.1))

/-- Each found message is repaired in turn; one that succeeds is enough. -/
def repairAll (repair : ℕ → Store → SafeId → Bool × Store) : List SafeId → ℕ → Store → Bool × Store
  | [],_,store => (false,store)
  | messageID :: rest,position,store =>
    let repaired := repair position store messageID
    let later := repairAll repair rest (position + 1) repaired.2
    (repaired.1 || later.1,later.2)

structure BlockOrderFaults where
  targetMessages : ReadFaults
  targetParts : ReadFaults
  scan : ScanFaults
  prepend : ℕ → WriteFaults

/-- The message that the error points at. -/
def targetMessage (store : Store) (targetIndex : Option ℕ) (faults : BlockOrderFaults) : Option SafeId × Store :=
  match targetIndex with
  | none => (none,store)
  | some index => findMessageByIndexNeedingThinking store index faults.targetMessages faults.targetParts

def recoverThinkingBlockOrder (sessionID : String) (partIds : ℕ → SafeId) (store : Store) (targetIndex : Option ℕ) (faults : BlockOrderFaults) :
    Bool × Store :=
  let target := targetMessage store targetIndex faults
  match target.1 with
  | some messageID => prependThinkingPart sessionID target.2 messageID (partIds 0) (faults.prepend 0)
  | none =>
    let orphans := findMessagesWithOrphanThinking target.2 faults.scan
    repairAll (fun position store messageID => prependThinkingPart sessionID store messageID (partIds position) (faults.prepend position))
      orphans.1 0 orphans.2

structure DisabledFaults where
  scan : ScanFaults
  strip : ℕ → StripFaults

def recoverThinkingDisabledViolation (store : Store) (faults : DisabledFaults) : Bool × Store :=
  let thinking := findMessagesWithThinkingBlocks store faults.scan
  repairAll (fun position store messageID => stripThinkingParts store messageID (faults.strip position)) thinking.1 0 thinking.2

end CodexMultiAuth.SessionStore
