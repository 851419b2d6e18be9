import CodexMultiAuth.Identity

/-!
The rows of the flagged accounts. A document that is read is normalized, and so is
one that is saved; a normalized document is read back as it is (`candidate_saved`).
-/
namespace CodexMultiAuth.Flagged

open List OrderedMap OrderedMap

/-- What a field has to hold, to be kept. -/
inductive Kind where
  | text
  | number
  | boolean
  | oneOf (values : List String)
  | trimmed
  /-- The entries that are numbers, if there are any. -/
  | limits
  | positive
  | items
  | mirror
  deriving DecidableEq

def normalizeCodexCliMirror (value : Record) : Option Json :=
  match value.text "forAccountId",value.text "accountId" with
  | some forAccountId,some accountId =>
    if trim forAccountId = "" ∨ trim accountId = "" then none
    else some (.obj [("forAccountId",.str forAccountId),("accountId",.str accountId)])
  | _,_ => none

def Kind.read : Kind → Json → Option Json
  | .text,.str value => some (.str value)
  | .number,.num value => some (.num value)
  | .boolean,.bool value => some (.bool value)
  | .oneOf values,.str value => if values.contains value then some (.str value) else none
  | .trimmed,.str value => if trim value = "" then none else some (.str (trim value))
  | .limits,.obj entries =>
    let normalized := entries.filter (fun entry => entry.2.asNumber.isSome)
    if normalized.isEmpty then none else some (.obj normalized)
  | .positive,.num value => if 0 < value then some (.num value) else none
  | .items,.arr values => some (.arr values)
  | .mirror,.obj value => normalizeCodexCliMirror value
  | _,_ => none

def optionalFields : List (String × Kind) :=
  [("recordId",.trimmed),("accountId",.text),("accountIdSource",.oneOf ["token","id_token","org","manual"]),("accountLabel",.text),("email",.text),
    ("accessToken",.text),("expiresAt",.number),("enabled",.boolean),
    ("lastSwitchReason",.oneOf ["rate-limit","initial","rotation","best","restore","manual"]),("rateLimitResetTimes",.limits),
    ("coolingDownUntil",.number),("cooldownReason",.oneOf ["auth-failure","network-error","server-error","rate-limit"]),("authInvalidatedAt",.positive),
    ("workspaces",.items),("currentWorkspaceIndex",.number),("codexCliMirror",.mirror),("flaggedReason",.text),("lastError",.text)]

/-- A field as it is kept; it is left out where it is not what it has to be. -/
def kept (raw : Record) (field : String) (kind : Kind) : Option Json := (raw.find field).bind kind.read

/-- The keys of an object that have a value. -/
def present (entries : List (String × Option Json)) : Record := entries.filterMap (fun entry => entry.2.map (fun value => (entry.1,value)))

/-- The fields of a row; a row that was not flagged at any time is flagged now. -/
def fields (now : ℚ) (refreshToken : String) (raw : Record) : List (String × Option Json) :=
  let flaggedAt := (raw.number "flaggedAt").getD now
  [("refreshToken",some (.str refreshToken)),("flaggedAt",some (.num flaggedAt)),("addedAt",some (.num ((raw.number "addedAt").getD flaggedAt))),
    ("lastUsed",some (.num ((raw.number "lastUsed").getD flaggedAt))),
    ("authInvalidationErrorCode",if (kept raw "authInvalidatedAt" .positive).isSome then kept raw "authInvalidationErrorCode" .trimmed else none)] ++
    optionalFields.map (fun field => (field.1,kept raw field.1 field.2))

/-- Rows by refresh token; of two rows of one token the later one stays. -/
def addRow (now : ℚ) (byRefreshToken : OrderedMap String Record) (row : Json) : OrderedMap String Record :=
  match row with
  | .obj raw =>
    let refreshToken := trim ((Record.text raw "refreshToken").getD "")
    if refreshToken = "" then byRefreshToken else byRefreshToken.put refreshToken (present (fields now refreshToken raw))
  | _ => byRefreshToken

def normalizeRows (now : ℚ) (rows : List Json) : OrderedMap String Record := rows.foldl (addRow now) []

def normalizeFlaggedStorage (now : ℚ) (data : Json) : List Record :=
  match data with
  | .obj doc =>
    match Record.number doc "version",(find doc "accounts").bind Json.asItems with
    | some version,some rows => if version = 1 then (normalizeRows now rows).map Prod.snd else []
    | _,_ => []
  | _ => []

def isValidFlaggedStorageCandidate (data : Json) (accounts : List Record) : Bool :=
  match data with
  | .obj doc =>
    match Record.number doc "version",(find doc "accounts").bind Json.asItems with
    | some version,some rows => decide (version = 1) && (rows.isEmpty || !accounts.isEmpty)
    | _,_ => false
  | _ => false

def toJson (accounts : List Record) : Json := .obj [("version",.num 1),("accounts",.arr (accounts.map Json.obj))]

def pick (known : List String) : Json → Json
  | .obj entries => .obj (entries.filter (fun entry => known.contains entry.1))
  | other => other

def workspaceKeys : List String := ["id","name","enabled","disabledAt","isDefault"]

def validatedField (entry : String × Json) : String × Json :=
  if entry.1 = "workspaces" then
    match entry.2 with
    | .arr items => (entry.1,.arr (items.map (pick workspaceKeys)))
    | other => (entry.1,other)
  else if entry.1 = "codexCliMirror" then (entry.1,pick ["forAccountId","accountId"] entry.2)
  else entry

def validatedRow : Json → Json
  | .obj row => .obj (row.map validatedField)
  | other => other

/-- What the schema returns of a document that it accepts: its objects without unknown
    keys, except for those of a row. -/
def validated : Json → Json
  | .obj doc =>
    .obj ((doc.filter (fun entry => ["version","accounts"].contains entry.1)).map (fun entry =>
      match entry with
      | (key,.arr rows) => if key = "accounts" then (key,.arr (rows.map validatedRow)) else (key,.arr rows)
      | other => other))
  | other => other

/-- A file's content: the document that it is the text of, if it is one. -/
abbrev Content := Option Json

variable (accepts : Json → Bool)

/-- The document as the schema returns it, or as it is when the schema does not accept it. -/
def parseFlaggedStorageContent (content : Content) : Option Json := content.map (fun data => if accepts data then validated data else data)

def candidate (now : ℚ) (content : Content) : Option (List Record) :=
  (parseFlaggedStorageContent accepts content).bind (fun data =>
    let recovered := normalizeFlaggedStorage now data
    if isValidFlaggedStorageCandidate data recovered then some recovered else none)

/-- The workspaces of a row have no other keys than a workspace has. -/
def Typed (row : Record) : Prop :=
  ∀ items, find row "workspaces" = some (.arr items) → ∀ item ∈ items, pick workspaceKeys item = item

/-! ### A normalized row is kept as it is -/

theorem Kind.read_idem {kind : Kind} {value kept : Json} (reads : kind.read value = some kept) : kind.read kept = some kept := by
  unfold Kind.read at reads
  split at reads
  · cases reads; rfl
  · cases reads; rfl
  · cases reads; rfl
  · next values text =>
    split at reads
    · next one => cases reads; exact if_pos one
    · cases reads
  · next text =>
    split at reads
    · cases reads
    · next some_ =>
      cases reads
      simp only [Kind.read,trim_trim,if_neg some_]
  · next entries =>
    dsimp only at reads
    split at reads
    · cases reads
    · next some_ =>
      cases reads
      simp only [Kind.read,filter_filter,Bool.and_self,if_neg some_]
  · next number =>
    split at reads
    · next positive => cases reads; exact if_pos positive
    · cases reads
  · cases reads; rfl
  · next entries =>
    rw [normalizeCodexCliMirror] at reads
    split at reads
    · next forAccountId accountId _ _ =>
      split at reads
      · cases reads
      · next some_ =>
        cases reads
        exact if_neg some_
    · cases reads
  · cases reads

variable {entries : List (String × Option Json)}

theorem keys_present {k : String} (member : k ∈ OrderedMap.keys (present entries)) : k ∈ entries.map Prod.fst := by
  obtain ⟨⟨k',value⟩,among,rfl⟩ := mem_map.mp member
  obtain ⟨entry,inside,made⟩ := mem_filterMap.mp among
  obtain ⟨_,_,same⟩ := Option.map_eq_some_iff.mp made
  cases same
  exact mem_map_of_mem inside

theorem find_present (distinct : (entries.map Prod.fst).Nodup) {k : String} {value : Option Json}
    (member : (k,value) ∈ entries) : find (present entries) k = value := by
  induction entries with
  | nil => exact absurd member not_mem_nil
  | cons entry rest ih =>
    obtain ⟨fresh,others⟩ := nodup_cons.mp distinct
    have made : present (entry :: rest) = (entry.2.map (fun value => (entry.1,value))).toList ++ present rest := by
      rw [present,filterMap_cons]
      cases entry.2 <;> rfl
    rw [made]
    rcases mem_cons.mp member with rfl | later
    · cases value with
      | some value => exact (find_cons _ _ _).trans (if_pos rfl)
      | none => exact find_eq_none.mpr (fun here => fresh (keys_present here))
    · have apart : entry.1 ≠ k := by
        rintro rfl
        exact fresh (mem_map.mpr ⟨_,later,rfl⟩)
      cases here : entry.2 with
      | some first =>
        refine (find_cons _ _ _).trans ?_
        rw [if_neg apart]
        exact ih others later
      | none => exact ih others later

theorem fields_distinct (now : ℚ) (refreshToken : String) (raw : Record) : ((fields now refreshToken raw).map Prod.fst).Nodup := by
  have keys : (fields now refreshToken raw).map Prod.fst =
      ["refreshToken","flaggedAt","addedAt","lastUsed","authInvalidationErrorCode"] ++ optionalFields.map Prod.fst := by
    rw [fields,map_append,map_map]
    rfl
  rw [keys]
  decide

variable {now : ℚ}
variable {refreshToken : String}

theorem find_normalized {raw : Record} {k : String} {value : Option Json}
    (member : (k,value) ∈ fields now refreshToken raw) : find (present (fields now refreshToken raw)) k = value :=
  find_present (fields_distinct now refreshToken raw) member

theorem kept_normalized {raw : Record} {field : String × Kind} (optional : field ∈ optionalFields) :
    kept (present (fields now refreshToken raw)) field.1 field.2 = kept raw field.1 field.2 := by
  rw [kept,find_normalized (mem_append_right _ (mem_map.mpr ⟨field,optional,rfl⟩))]
  cases here : kept raw field.1 field.2 with
  | none => rfl
  | some value =>
    obtain ⟨first,_,reads⟩ := Option.bind_eq_some_iff.mp here
    exact Kind.read_idem reads

theorem number_normalized {raw : Record} {k : String} {value : ℚ}
    (member : (k,some (Json.num value)) ∈ fields now refreshToken raw) : Record.number (present (fields now refreshToken raw)) k = some value := by
  rw [Record.number,find_normalized member]
  rfl

theorem fields_normalized (now later : ℚ) (refreshToken : String) (raw : Record) :
    fields later refreshToken (present (fields now refreshToken raw)) = fields now refreshToken raw := by
  have flaggedAt := @number_normalized now refreshToken raw _ _ (mem_append_left _ (.tail _ (.head _)))
  have addedAt := @number_normalized now refreshToken raw _ _ (mem_append_left _ (.tail _ (.tail _ (.head _))))
  have lastUsed := @number_normalized now refreshToken raw _ _ (mem_append_left _ (.tail _ (.tail _ (.tail _ (.head _)))))
  have invalidatedAt := @kept_normalized now refreshToken raw ("authInvalidatedAt",.positive) (by decide)
  have code : find (present (fields now refreshToken raw)) "authInvalidationErrorCode" =
      if (kept raw "authInvalidatedAt" .positive).isSome then kept raw "authInvalidationErrorCode" .trimmed else none :=
    find_normalized (mem_append_left _ (.tail _ (.tail _ (.tail _ (.tail _ (.head _))))))
  rw [fields.eq_1 later]
  rw [flaggedAt,Option.getD_some,addedAt,lastUsed,invalidatedAt]
  conv_rhs => rw [fields]
  refine congrArg₂ (fun code others => [_,_,_,_,(_,code)] ++ others) ?_ (map_congr_left (fun field optional => ?_))
  · split
    · next invalid =>
      rw [kept,code,if_pos invalid]
      cases here : kept raw "authInvalidationErrorCode" .trimmed with
      | none => rfl
      | some value =>
        obtain ⟨first,_,reads⟩ := Option.bind_eq_some_iff.mp here
        exact Kind.read_idem reads
    · rfl
  · rw [kept_normalized optional]

/-- Rows as a normalized document has them: each under its own refresh token, with its own fields. -/
structure Normal (byRefreshToken : OrderedMap String Record) : Prop where
  distinct : (OrderedMap.keys byRefreshToken).Nodup
  rows : ∀ entry ∈ byRefreshToken, entry.1 ≠ "" ∧ trim entry.1 = entry.1 ∧ Record.text entry.2 "refreshToken" = some entry.1 ∧
    ∀ now, present (fields now entry.1 entry.2) = entry.2

theorem addRow_normal {byRefreshToken : OrderedMap String Record} (normal : Normal byRefreshToken) (row : Json) :
    Normal (addRow now byRefreshToken row) := by
  unfold addRow
  split
  · next raw =>
    dsimp only
    split
    · exact normal
    · next named =>
      refine ⟨nodup_put normal.distinct _ _,?_⟩
      intro entry member
      rcases mem_put member with before | rfl
      · exact normal.rows entry before
      · refine ⟨named,trim_trim _,?_,fun later => congrArg present (fields_normalized now later _ raw)⟩
        have token : find (present (fields now (trim ((Record.text raw "refreshToken").getD "")) raw)) "refreshToken" =
            some (.str (trim ((Record.text raw "refreshToken").getD ""))) := find_normalized (mem_append_left _ (.head _))
        rw [Record.text,token]
        rfl
  · exact normal

theorem normalizeRows_normal (now : ℚ) (rows : List Json) : Normal (normalizeRows now rows) := by
  have folds : ∀ m : OrderedMap String Record, Normal m → Normal (rows.foldl (addRow now) m) := by
    induction rows with
    | nil => exact fun _ => id
    | cons row rest ih => exact fun m normal => ih _ (addRow_normal normal row)
  exact folds [] ⟨nodup_nil,fun _ absent => absurd absent not_mem_nil⟩

theorem Normal.stable {byRefreshToken : OrderedMap String Record} (normal : Normal byRefreshToken) (now : ℚ) :
    normalizeRows now (byRefreshToken.map (fun entry => .obj entry.2)) = byRefreshToken := by
  -- what has been read already stays in front
  have folds : ∀ read rest : OrderedMap String Record, read ++ rest = byRefreshToken →
      (rest.map (fun entry => Json.obj entry.2)).foldl (addRow now) read = byRefreshToken := by
    intro read rest
    induction rest generalizing read with
    | nil => exact fun whole => (append_nil read).symm.trans whole
    | cons entry rest ih =>
      intro whole
      obtain ⟨named,trimmed,token,same⟩ := normal.rows entry (whole ▸ mem_append_right _ mem_cons_self)
      have fresh : entry.1 ∉ OrderedMap.keys read := by
        have distinct := normal.distinct
        rw [← whole,OrderedMap.keys,map_append,nodup_append] at distinct
        exact fun here => distinct.2.2 _ here _ mem_cons_self rfl
      have added : addRow now read (.obj entry.2) = read ++ [entry] := by
        rw [addRow,token,Option.getD_some,trimmed,if_neg named,same now,put_fresh fresh]
      rw [map_cons,foldl_cons,added]
      exact ih _ (by rw [append_assoc]; exact whole)
  exact folds [] _ rfl

theorem normalizeRows_keys (now later : ℚ) (rows : List Json) :
    OrderedMap.keys (normalizeRows now rows) = OrderedMap.keys (normalizeRows later rows) := by
  have folds : ∀ m n : OrderedMap String Record, OrderedMap.keys m = OrderedMap.keys n →
      OrderedMap.keys (rows.foldl (addRow now) m) = OrderedMap.keys (rows.foldl (addRow later) n) := by
    induction rows with
    | nil => exact fun _ _ => id
    | cons row rest ih =>
      intro m n same
      refine ih _ _ ?_
      unfold addRow
      split
      · dsimp only
        split
        · exact same
        · rw [keys_put,keys_put,same]
      · exact same
  exact folds [] [] rfl

theorem normalizeFlaggedStorage_isEmpty (now later : ℚ) (data : Json) :
    (normalizeFlaggedStorage now data).isEmpty = (normalizeFlaggedStorage later data).isEmpty := by
  unfold normalizeFlaggedStorage
  split
  · split
    · next rows _ _ =>
      split
      · have keys := congrArg List.isEmpty (normalizeRows_keys now later rows)
        rw [OrderedMap.keys,OrderedMap.keys,isEmpty_map,isEmpty_map] at keys
        rw [isEmpty_map,isEmpty_map]
        exact keys
      · rfl
    · rfl
  · rfl

/-! ### Saved and read back -/

def IsNormal (accounts : List Record) : Prop := ∃ byRefreshToken, Normal byRefreshToken ∧ accounts = byRefreshToken.map Prod.snd

theorem normalizeFlaggedStorage_normal (now : ℚ) (data : Json) : IsNormal (normalizeFlaggedStorage now data) := by
  have nothing : IsNormal [] := ⟨[],⟨nodup_nil,fun _ absent => absurd absent not_mem_nil⟩,rfl⟩
  unfold normalizeFlaggedStorage
  split
  · split
    · next rows _ _ =>
      split
      · exact ⟨_,normalizeRows_normal now _,rfl⟩
      · exact nothing
    · exact nothing
  · exact nothing

theorem normalizeFlaggedStorage_toJson (now : ℚ) (accounts : List Record) :
    normalizeFlaggedStorage now (toJson accounts) = (normalizeRows now (accounts.map Json.obj)).map Prod.snd := by
  rfl

theorem IsNormal.stable {accounts : List Record} (normal : IsNormal accounts) (now : ℚ) : normalizeFlaggedStorage now (toJson accounts) = accounts := by
  obtain ⟨byRefreshToken,tidy,rfl⟩ := normal
  have rows : (byRefreshToken.map Prod.snd).map Json.obj = byRefreshToken.map (fun entry => .obj entry.2) := by rw [map_map]; rfl
  rw [normalizeFlaggedStorage_toJson,rows,tidy.stable now]

/-- A document that was normalized stays as it is at any later time, with a token of its own in every row. -/
theorem normalizeFlaggedStorage_settled (now : ℚ) (data : Json) :
    (∀ later, normalizeFlaggedStorage later (toJson (normalizeFlaggedStorage now data)) = normalizeFlaggedStorage now data) ∧
      ((normalizeFlaggedStorage now data).map (Record.text · "refreshToken")).Nodup := by
  have normal := normalizeFlaggedStorage_normal now data
  refine ⟨normal.stable,?_⟩
  obtain ⟨byRefreshToken,⟨distinct,rows⟩,same⟩ := normal
  have tokens : (byRefreshToken.map Prod.snd).map (Record.text · "refreshToken") = (OrderedMap.keys byRefreshToken).map some := by
    simp only [OrderedMap.keys,map_map]
    exact map_congr_left fun entry member => (rows entry member).2.2.1
  rw [same,tokens]
  exact distinct.map (Option.some_injective _)

theorem present_distinct (distinct : (entries.map Prod.fst).Nodup) :
    (OrderedMap.keys (present entries)).Nodup := by
  have keys : OrderedMap.keys (present entries) = (entries.filter (fun entry => entry.2.isSome)).map Prod.fst := by
    rw [OrderedMap.keys,present]
    induction entries with
    | nil => rfl
    | cons entry rest ih =>
      have later := ih (nodup_cons.mp distinct).2
      obtain ⟨k,value⟩ := entry
      cases value with
      | none => exact later
      | some value => exact congrArg (List.cons k) later
  rw [keys]
  exact distinct.sublist (filter_sublist.map _)

theorem validatedRow_normal {row : Record} (same : present (fields now refreshToken row) = row) (typed : Typed row) :
    validatedRow (.obj row) = .obj row := by
  refine congrArg Json.obj ((map_congr_left ?_).trans (map_id row))
  rintro ⟨k,value⟩ member
  have distinct : (OrderedMap.keys row).Nodup := by
    rw [← same]
    exact present_distinct (fields_distinct now refreshToken row)
  have found := find_of_mem distinct member
  rw [validatedField,id]
  split
  · next workspaces =>
    dsimp only at workspaces ⊢
    subst workspaces
    split
    · next items =>
      have each := typed items found
      rw [(map_congr_left each).trans (map_id items)]
    · rfl
  · split
    · next mirror =>
      dsimp only at mirror ⊢
      subst mirror
      have field : ("codexCliMirror",kept row "codexCliMirror" .mirror) ∈ fields now refreshToken row :=
        mem_append_right _ (mem_map.mpr ⟨("codexCliMirror",.mirror),by decide,rfl⟩)
      have read : kept row "codexCliMirror" .mirror = some value := by
        rw [← find_normalized field,same]
        exact found
      obtain ⟨stored,_,reads⟩ := Option.bind_eq_some_iff.mp read
      cases stored with
      | obj fields =>
        replace reads : normalizeCodexCliMirror fields = some value := reads
        rw [normalizeCodexCliMirror] at reads
        split at reads
        · split at reads
          · cases reads
          · cases reads
            rfl
        · cases reads
      | _ => cases reads
    · rfl

theorem IsNormal.validated {accounts : List Record} (normal : IsNormal accounts) (typed : ∀ row ∈ accounts, Typed row) :
    validated (toJson accounts) = toJson accounts := by
  obtain ⟨byRefreshToken,tidy,rfl⟩ := normal
  have rows : ((byRefreshToken.map Prod.snd).map Json.obj).map validatedRow = (byRefreshToken.map Prod.snd).map Json.obj := by
    refine (map_congr_left ?_).trans (map_id _)
    intro row member
    obtain ⟨account,among,rfl⟩ := mem_map.mp member
    obtain ⟨entry,inside,rfl⟩ := mem_map.mp among
    exact validatedRow_normal ((tidy.rows entry inside).2.2.2 0) (typed _ among)
  change Json.obj [("version",.num 1),("accounts",.arr (((byRefreshToken.map Prod.snd).map Json.obj).map validatedRow))] = _
  rw [rows]
  rfl

theorem typed_normalized {storage : List Record} (typed : ∀ row ∈ storage, Typed row) :
    ∀ row ∈ normalizeFlaggedStorage now (toJson storage), Typed row := by
  have folds : ∀ (rows : List Record) (m : OrderedMap String Record), (∀ row ∈ rows, Typed row) → (∀ entry ∈ m, Typed entry.2) →
      ∀ entry ∈ (rows.map Json.obj).foldl (addRow now) m, Typed entry.2 := by
    intro rows
    induction rows with
    | nil => exact fun _ _ held => held
    | cons raw rest ih =>
      intro m each held
      refine ih _ (fun row member => each row (mem_cons_of_mem _ member)) ?_
      intro entry member
      rw [addRow] at member
      split at member
      · exact held entry member
      · rcases mem_put member with before | rfl
        · exact held entry before
        · intro items found
          have field : ("workspaces",kept raw "workspaces" .items) ∈
              fields now (trim ((Record.text raw "refreshToken").getD "")) raw :=
            mem_append_right _ (mem_map.mpr ⟨("workspaces",.items),by decide,rfl⟩)
          rw [find_normalized field] at found
          obtain ⟨stored,here,reads⟩ := Option.bind_eq_some_iff.mp found
          cases stored with
          | arr values =>
            cases reads
            exact each raw mem_cons_self items here
          | _ => cases reads
  intro row member
  obtain ⟨entry,inside,rfl⟩ := mem_map.mp member
  exact folds storage [] typed (fun _ absent => absurd absent not_mem_nil) entry inside

theorem candidate_saved (now later : ℚ) {storage : List Record} (typed : ∀ row ∈ storage, Typed row) :
    candidate accepts later (some (toJson (normalizeFlaggedStorage now (toJson storage)))) = some (normalizeFlaggedStorage now (toJson storage)) := by
  have normal := normalizeFlaggedStorage_normal now (toJson storage)
  have parsed : parseFlaggedStorageContent accepts (some (toJson (normalizeFlaggedStorage now (toJson storage)))) =
      some (toJson (normalizeFlaggedStorage now (toJson storage))) := by
    rw [parseFlaggedStorageContent,Option.map_some,normal.validated (typed_normalized typed),ite_self]
  have valid : ∀ accounts, isValidFlaggedStorageCandidate (toJson accounts) accounts = true := by
    intro accounts
    cases accounts <;> rfl
  rw [candidate,parsed,Option.bind_some]
  dsimp only
  rw [normal.stable later,if_pos (valid _)]

end CodexMultiAuth.Flagged
