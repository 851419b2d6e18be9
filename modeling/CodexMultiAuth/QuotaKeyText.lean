import CodexMultiAuth.AccountPool

/-!
The key of a quota within a workspace: the JSON text of an array of three strings,
and how such a text is read back.
-/
namespace CodexMultiAuth

def hexDigit (n : Nat) : Char := Char.ofNat (if n < 10 then 48 + n else 87 + n)

/-- A character within a JSON string, as `JSON.stringify` writes it. -/
def escapeJson (c : Char) : List Char :=
  if c = '"' then ['\\','"']
  else if c = '\\' then ['\\','\\']
  else if c = '\x08' then ['\\','b']
  else if c = '\x0c' then ['\\','f']
  else if c = '\n' then ['\\','n']
  else if c = '\r' then ['\\','r']
  else if c = '\t' then ['\\','t']
  else if c.toNat < 32 then ['\\','u','0','0',hexDigit (c.toNat / 16),hexDigit (c.toNat % 16)]
  else [c]

def quoteJson (text : List Char) : List Char := '"' :: text.flatMap escapeJson ++ ['"']

def hexValue (c : Char) : Option Nat :=
  if '0' ≤ c ∧ c ≤ '9' then some (c.toNat - 48)
  else if 'a' ≤ c ∧ c ≤ 'f' then some (c.toNat - 87)
  else if 'A' ≤ c ∧ c ≤ 'F' then some (c.toNat - 55)
  else none

def hexCodeUnit (a b c d : Char) : Option Nat := do
  some ((((← hexValue a) * 16 + (← hexValue b)) * 16 + (← hexValue c)) * 16 + (← hexValue d))

def simpleEscape (c : Char) : Option Char :=
  if c = '"' then some '"'
  else if c = '\\' then some '\\'
  else if c = '/' then some '/'
  else if c = 'b' then some '\x08'
  else if c = 'f' then some '\x0c'
  else if c = 'n' then some '\n'
  else if c = 'r' then some '\r'
  else if c = 't' then some '\t'
  else none

/-- The string up to its closing quote and the text behind it. A lone half of a
    surrogate pair makes a string that no text here equals; it is read as none. -/
def readJsonString : List Char → Option (List Char × List Char)
  | [] => none
  | '"' :: rest => some ([],rest)
  | '\\' :: 'u' :: a :: b :: c :: d :: rest =>
    match hexCodeUnit a b c d with
    | none => none
    | some code =>
      if 0xD800 ≤ code ∧ code < 0xE000 then
        match rest with
        | '\\' :: 'u' :: e :: f :: g :: h :: more =>
          match hexCodeUnit e f g h with
          | none => none
          | some low =>
            if code < 0xDC00 ∧ 0xDC00 ≤ low ∧ low < 0xE000 then
              (readJsonString more).map (fun read => (Char.ofNat (0x10000 + (code - 0xD800) * 1024 + (low - 0xDC00)) :: read.1,read.2))
            else none
        | _ => none
      else (readJsonString rest).map (fun read => (Char.ofNat code :: read.1,read.2))
  | '\\' :: escaped :: rest =>
    match simpleEscape escaped with
    | none => none
    | some c => (readJsonString rest).map (fun read => (c :: read.1,read.2))
  | c :: rest => if c.toNat < 32 ∨ c = '\\' then none else (readJsonString rest).map (fun read => (c :: read.1,read.2))

theorem readJsonString_control (n : Nat) (low : n < 32) (rest : List Char) :
    readJsonString (['\\','u','0','0',hexDigit (n / 16),hexDigit (n % 16)] ++ rest) =
      (readJsonString rest).map (fun read => (Char.ofNat n :: read.1,read.2)) := by
  have value : ∀ n < 32, hexCodeUnit '0' '0' (hexDigit (n / 16)) (hexDigit (n % 16)) = some n := by decide
  have plain : ¬ (0xD800 ≤ n ∧ n < 0xE000) := by omega
  simp only [List.cons_append,List.nil_append]
  rw [readJsonString,value n low]
  simp only [plain,if_false]

theorem readJsonString_plain {c : Char} (solid : ¬ c.toNat < 32) (quote : c ≠ '"') (slash : c ≠ '\\') (rest : List Char) :
    readJsonString (c :: rest) = (readJsonString rest).map (fun read => (c :: read.1,read.2)) := by
  rw [readJsonString.eq_def]
  split
  · contradiction
  · simp_all
  · simp_all
  · simp_all
  · rename_i same
    cases same
    rw [if_neg (by simp [solid,slash])]

theorem readJsonString_escapeJson (c : Char) (rest : List Char) :
    readJsonString (escapeJson c ++ rest) = (readJsonString rest).map (fun read => (c :: read.1,read.2)) := by
  unfold escapeJson
  split_ifs with quote slash back feed line carriage tab low
  all_goals first | subst_vars; rfl | skip
  · simpa using readJsonString_control c.toNat low rest
  · exact readJsonString_plain low quote slash rest

theorem readJsonString_quoted (text rest : List Char) :
    readJsonString (text.flatMap escapeJson ++ '"' :: rest) = some (text,rest) := by
  induction text with
  | nil => rfl
  | cons c text ih => rw [List.flatMap_cons,List.append_assoc,readJsonString_escapeJson,ih]; rfl

def WORKSPACE_KEY : List Char := "[\"workspace\",".toList

/-- Persist workspace attribution independently of a legacy row's record identity. -/
def workspaceQuotaKey (key workspaceId : String) : String :=
  String.ofList (WORKSPACE_KEY ++ quoteJson workspaceId.toList ++ ',' :: quoteJson key.toList ++ [']'])

def isJsonSpace (c : Char) : Bool := [' ','\t','\n','\r'].contains c

/-- An array that goes on with two strings and ends there. -/
def readWorkspaceAndKey (text : List Char) : Option (String × String) :=
  match text.dropWhile isJsonSpace with
  | '"' :: workspace =>
    match readJsonString workspace with
    | some (workspaceId,rest) =>
      match rest.dropWhile isJsonSpace with
      | ',' :: rest =>
        match rest.dropWhile isJsonSpace with
        | '"' :: key =>
          match readJsonString key with
          | some (quotaKey,rest) =>
            match rest.dropWhile isJsonSpace with
            | ']' :: rest => if rest.all isJsonSpace then some (String.ofList workspaceId,String.ofList quotaKey) else none
            | _ => none
          | none => none
        | _ => none
      | _ => none
    | none => none
  | _ => none

def isWorkspaceKey (key : String) : Bool := WORKSPACE_KEY.isPrefixOf key.toList

def parseWorkspaceQuotaKey (key : String) : Option (String × String) :=
  if isWorkspaceKey key then readWorkspaceAndKey (key.toList.drop WORKSPACE_KEY.length) else none

theorem isWorkspaceKey_workspaceQuotaKey (key workspaceId : String) : isWorkspaceKey (workspaceQuotaKey key workspaceId) = true := by
  simp only [isWorkspaceKey,workspaceQuotaKey,String.toList_ofList,List.isPrefixOf_iff_prefix,List.append_assoc]
  exact List.prefix_append _ _

theorem parseWorkspaceQuotaKey_workspaceQuotaKey (key workspaceId : String) :
    parseWorkspaceQuotaKey (workspaceQuotaKey key workspaceId) = some (workspaceId,key) := by
  have rest : (workspaceQuotaKey key workspaceId).toList.drop WORKSPACE_KEY.length =
      '"' :: (workspaceId.toList.flatMap escapeJson ++ '"' :: ',' :: '"' :: (key.toList.flatMap escapeJson ++ '"' :: [']'])) := by
    simp [workspaceQuotaKey,quoteJson]
  rw [parseWorkspaceQuotaKey,if_pos (isWorkspaceKey_workspaceQuotaKey key workspaceId),rest]
  simp only [readWorkspaceAndKey,List.dropWhile,isJsonSpace]
  simp [readJsonString_quoted,isJsonSpace]

theorem isWorkspaceKey_of_head {key : String} {c : Char} (starts : key.toList.head? = some c) (letter : '[' ≠ c) : isWorkspaceKey key = false := by
  unfold isWorkspaceKey
  cases shape : key.toList with
  | nil => rfl
  | cons first rest =>
    rw [shape] at starts
    have same : first = c := Option.some.inj starts
    subst same
    show ('[' == first && List.isPrefixOf WORKSPACE_KEY.tail rest) = false
    rw [beq_false_of_ne letter,Bool.false_and]

theorem name_head (family : ModelFamily) : ∃ c, family.name.toList.head? = some c ∧ '[' ≠ c := by
  cases family
  · exact ⟨'g',by decide,by decide⟩
  · exact ⟨'c',by decide,by decide⟩
  · exact ⟨'c',by decide,by decide⟩
  · exact ⟨'g',by decide,by decide⟩
  · exact ⟨'g',by decide,by decide⟩

theorem isWorkspaceKey_getQuotaKey (family : ModelFamily) (model : Option String) : isWorkspaceKey (getQuotaKey family model) = false := by
  obtain ⟨c,head,letter⟩ := name_head family
  unfold getQuotaKey
  cases model.bind nonEmpty with
  | none => exact isWorkspaceKey_of_head head letter
  | some model =>
    refine isWorkspaceKey_of_head (c := c) ?_ letter
    rw [String.toList_append,String.toList_append,List.append_assoc,List.head?_append,head]
    rfl

end CodexMultiAuth
