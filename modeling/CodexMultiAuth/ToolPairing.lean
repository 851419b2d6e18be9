import CodexMultiAuth.SessionAffinity

/-!
The calls and outputs of tools in the input of a request. An output without its call
becomes a message; a call whose id no output has gets an output that says it was
cancelled. Calls of several kinds may share an id, and the second step looks for outputs
of any kind.
-/
namespace CodexMultiAuth.ToolPairing
open List
open SessionAffinity (Text)

def ascii (text : String) : Text := text.toList.map (fun c => c.toNat.toUInt16)

/-- What a property holds; values that are no texts are not looked into. -/
inductive Property (Value : Type) where
  | absent
  | text (text : Text)
  | other (value : Value)

structure InputItem (Value : Type) where
  type : Property Value
  role : Property Value := .absent
  content : Property Value := .absent
  call_id : Property Value := .absent
  name : Property Value := .absent
  output : Property Value := .absent
  rest : List (Text × Property Value) := []

inductive ToolKind where
  | function
  | localShell
  | custom
  deriving DecidableEq

inductive ItemKind where
  | call (kind : ToolKind)
  | output (kind : ToolKind)
  | other
  deriving DecidableEq

def callType : ToolKind → Text
  | .function => ascii "function_call"
  | .localShell => ascii "local_shell_call"
  | .custom => ascii "custom_tool_call"

def outputType : ToolKind → Text
  | .function => ascii "function_call_output"
  | .localShell => ascii "local_shell_call_output"
  | .custom => ascii "custom_tool_call_output"

/-- Whether an output of a kind answers a call of a kind: that of a function answers a local
    shell call, too. -/
def compatible : ToolKind → ToolKind → Bool
  | .function,.function => true
  | .function,.localShell => true
  | .localShell,.localShell => true
  | .custom,.custom => true
  | _,_ => false

section
variable {Value : Type}

def textKind (type : Text) : ItemKind :=
  if type = callType .function then .call .function
  else if type = callType .localShell then .call .localShell
  else if type = callType .custom then .call .custom
  else if type = outputType .function then .output .function
  else if type = outputType .localShell then .output .localShell
  else if type = outputType .custom then .output .custom
  else .other

def itemKind (item : InputItem Value) : ItemKind :=
  match item.type with
  | .text type => textKind type
  | _ => .other

def getCallId (item : InputItem Value) : Option Text :=
  match item.call_id with
  | .text rawCallId => if SessionAffinity.trim rawCallId = [] then none else some (SessionAffinity.trim rawCallId)
  | _ => none

variable (stringify : Value → Text)

/-- A value that is no text is shown as its JSON. -/
def convertOrphanedOutputToMessage (item : InputItem Value) (callId : Option Text) : InputItem Value :=
  let toolName := match item.name with
    | .text name => name
    | _ => ascii "tool"
  let labelCallId := callId.getD (ascii "unknown")
  let text := match item.output with
    | .text out => out
    | .other out => stringify out
    | .absent => []
  let shown := if 16000 < text.length then text.take 16000 ++ ascii "\n...[truncated]" else text
  { type := .text (ascii "message")
    role := .text (ascii "assistant")
    content := .text (ascii "[Previous " ++ toolName ++ ascii " result; call_id=" ++ labelCallId ++ ascii "]: " ++ shown) }

def collectCallIds (input : List (InputItem Value)) (kind : ToolKind) : List Text :=
  input.filterMap (fun item => if itemKind item = .call kind then getCallId item else none)

def hasMatch (input : List (InputItem Value)) (kind : ToolKind) (callId : Text) : Bool :=
  match kind with
  | .function => (collectCallIds input .function).contains callId || (collectCallIds input .localShell).contains callId
  | .custom => (collectCallIds input .custom).contains callId
  | .localShell => (collectCallIds input .localShell).contains callId

def orphaned (input : List (InputItem Value)) (item : InputItem Value) : Bool :=
  match itemKind item with
  | .output kind => !(getCallId item).any (hasMatch input kind)
  | _ => false

def normalizeOrphanedToolOutputs (input : List (InputItem Value)) : List (InputItem Value) :=
  input.map (fun item => if orphaned input item then convertOrphanedOutputToMessage stringify item (getCallId item) else item)

def CANCELLED_TOOL_OUTPUT : Text := ascii "Operation cancelled by user"

/-- The ids of the outputs, whatever their kind. -/
def collectOutputCallIds (input : List (InputItem Value)) : List Text :=
  input.filterMap (fun item => match itemKind item with
    | .output _ => getCallId item
    | _ => none)

def cancelledOutput (kind : ToolKind) (callId : Text) : InputItem Value where
  type := .text (outputType kind)
  call_id := .text callId
  output := .text CANCELLED_TOOL_OUTPUT

/-- The output that a call gets. -/
def missingOutput (outputCallIds : List Text) (item : InputItem Value) : List (InputItem Value) :=
  match itemKind item,getCallId item with
  | .call kind,some callId => if outputCallIds.contains callId then [] else [cancelledOutput kind callId]
  | _,_ => []

def injectMissingToolOutputs (input : List (InputItem Value)) : List (InputItem Value) :=
  input.flatMap (fun item => item :: missingOutput (collectOutputCallIds input) item)

end

/-! ### Kinds and ids -/

section
variable {Value : Type} {stringify : Value → Text} {input : List (InputItem Value)}

theorem textKind_outputType (kind : ToolKind) : textKind (outputType kind) = .output kind := by
  cases kind <;> decide

theorem itemKind_converted (item : InputItem Value) (callId : Option Text) :
    itemKind (convertOrphanedOutputToMessage stringify item callId) = .other := by
  show textKind (ascii "message") = .other
  decide

theorem itemKind_cancelled (kind : ToolKind) (callId : Text) : itemKind (cancelledOutput kind callId : InputItem Value) = .output kind :=
  textKind_outputType kind

variable {item : InputItem Value} {callId : Text}

theorem getCallId_some (found : getCallId item = some callId) : SessionAffinity.trim callId = callId ∧ callId ≠ [] := by
  unfold getCallId at found
  split at found
  · split at found
    · cases found
    case isFalse some_ =>
      cases found
      exact ⟨SessionAffinity.trim_trim _,some_⟩
  · cases found

theorem getCallId_cancelled (kind : ToolKind) (found : getCallId item = some callId) :
    getCallId (cancelledOutput kind callId : InputItem Value) = some callId := by
  obtain ⟨trimmed,some_⟩ := getCallId_some found
  show (if SessionAffinity.trim callId = [] then none else some (SessionAffinity.trim callId)) = some callId
  rw [trimmed,if_neg some_]

theorem mem_collectCallIds {kind : ToolKind} :
    callId ∈ collectCallIds input kind ↔ ∃ call ∈ input, itemKind call = .call kind ∧ getCallId call = some callId := by
  unfold collectCallIds
  rw [mem_filterMap]
  refine exists_congr fun call => and_congr_right fun _ => ?_
  by_cases same : itemKind call = .call kind
  · rw [if_pos same]
    exact ⟨fun found => ⟨same,found⟩,And.right⟩
  · rw [if_neg same]
    exact iff_of_false (fun found => nomatch found) fun both => same both.1

theorem mem_collectOutputCallIds :
    callId ∈ collectOutputCallIds input ↔ ∃ output ∈ input, (∃ kind, itemKind output = .output kind) ∧ getCallId output = some callId := by
  unfold collectOutputCallIds
  rw [mem_filterMap]
  refine exists_congr fun output => and_congr_right fun _ => ?_
  cases same : itemKind output with
  | output kind => exact ⟨fun found => ⟨⟨kind,rfl⟩,found⟩,And.right⟩
  | call kind => exact iff_of_false (fun found => nomatch found) fun both => nomatch both.1
  | other => exact iff_of_false (fun found => nomatch found) fun both => nomatch both.1

def Calls (input : List (InputItem Value)) (kind : ToolKind) (callId : Text) : Prop :=
  ∃ call ∈ input, ∃ called, itemKind call = .call called ∧ compatible kind called = true ∧ getCallId call = some callId

theorem hasMatch_iff {kind : ToolKind} : hasMatch input kind callId = true ↔ Calls input kind callId := by
  have calls : Calls input kind callId ↔ ∃ called, compatible kind called = true ∧ callId ∈ collectCallIds input called := by
    constructor
    · rintro ⟨call,member,called,same,fits,found⟩
      exact ⟨called,fits,mem_collectCallIds.mpr ⟨call,member,same,found⟩⟩
    · rintro ⟨called,fits,found⟩
      obtain ⟨call,member,same,id⟩ := mem_collectCallIds.mp found
      exact ⟨call,member,called,same,fits,id⟩
  rw [calls]
  cases kind with
  | function =>
    show ((collectCallIds input .function).contains callId || (collectCallIds input .localShell).contains callId) = true ↔ _
    rw [Bool.or_eq_true,contains_iff_mem,contains_iff_mem]
    constructor
    · rintro (found | found)
      · exact ⟨.function,rfl,found⟩
      · exact ⟨.localShell,rfl,found⟩
    · rintro ⟨called,fits,found⟩
      cases called with
      | function => exact Or.inl found
      | localShell => exact Or.inr found
      | custom => cases fits
  | localShell =>
    show (collectCallIds input .localShell).contains callId = true ↔ _
    rw [contains_iff_mem]
    refine ⟨fun found => ⟨.localShell,rfl,found⟩,fun ⟨called,fits,found⟩ => ?_⟩
    cases called with
    | localShell => exact found
    | function => cases fits
    | custom => cases fits
  | custom =>
    show (collectCallIds input .custom).contains callId = true ↔ _
    rw [contains_iff_mem]
    refine ⟨fun found => ⟨.custom,rfl,found⟩,fun ⟨called,fits,found⟩ => ?_⟩
    cases called with
    | custom => exact found
    | function => cases fits
    | localShell => cases fits

theorem orphaned_output {kind : ToolKind} (output : itemKind item = .output kind) :
    orphaned input item = false ↔ ∃ callId, getCallId item = some callId ∧ Calls input kind callId := by
  unfold orphaned
  rw [output]
  dsimp only
  cases getCallId item with
  | none => simp
  | some callId => simp [hasMatch_iff]

theorem orphaned_kind (orphan : orphaned input item = true) : ∃ kind, itemKind item = .output kind := by
  unfold orphaned at orphan
  split at orphan
  case h_1 kind same => exact ⟨kind,same⟩
  case h_2 => cases orphan

end

/-! ### The two steps -/

section
variable {Value : Type} {stringify : Value → Text} {input : List (InputItem Value)}
variable {item : InputItem Value}

theorem mem_normalized (isMember : item ∈ normalizeOrphanedToolOutputs stringify input) :
    (item ∈ input ∧ orphaned input item = false) ∨ itemKind item = .other := by
  obtain ⟨source,member,rfl⟩ := mem_map.mp isMember
  split
  · exact Or.inr (itemKind_converted source _)
  case isFalse kept => exact Or.inl ⟨member,Bool.eq_false_iff.mpr kept⟩

theorem normalized_kept (member : item ∈ input) (kept : orphaned input item = false) :
    item ∈ normalizeOrphanedToolOutputs stringify input :=
  mem_map.mpr ⟨item,member,if_neg (Bool.eq_false_iff.mp kept)⟩

theorem orphaned_call {kind : ToolKind} (call : itemKind item = .call kind) : orphaned input item = false := by
  unfold orphaned
  rw [call]

theorem calls_normalized (kind : ToolKind) (callId : Text) :
    Calls (normalizeOrphanedToolOutputs stringify input) kind callId ↔ Calls input kind callId := by
  constructor
  · rintro ⟨call,member,called,same,rest⟩
    rcases mem_normalized member with ⟨before,-⟩ | other
    · exact ⟨call,before,called,same,rest⟩
    · cases same.symm.trans other
  · rintro ⟨call,member,called,same,rest⟩
    exact ⟨call,normalized_kept member (orphaned_call same),called,same,rest⟩

theorem mem_injected (isMember : item ∈ injectMissingToolOutputs input) :
    item ∈ input ∨ ∃ call ∈ input, ∃ kind callId, itemKind call = .call kind ∧ getCallId call = some callId ∧
      callId ∉ collectOutputCallIds input ∧ item = cancelledOutput kind callId := by
  obtain ⟨source,member,among⟩ := mem_flatMap.mp isMember
  rcases mem_cons.mp among with rfl | missing
  · exact Or.inl member
  · unfold missingOutput at missing
    split at missing
    case h_1 kind callId same found =>
      split at missing
      · cases missing
      case isFalse absent =>
        exact Or.inr ⟨source,member,kind,callId,same,found,fun there => absent (contains_iff_mem.mpr there),mem_singleton.mp missing⟩
    case h_2 => cases missing

theorem injected_kept (member : item ∈ input) : item ∈ injectMissingToolOutputs input :=
  mem_flatMap.mpr ⟨item,member,mem_cons_self⟩

theorem injected_output {call : InputItem Value} {kind : ToolKind} {callId : Text} (member : call ∈ input) (same : itemKind call = .call kind)
    (found : getCallId call = some callId) (absent : callId ∉ collectOutputCallIds input) :
    cancelledOutput kind callId ∈ injectMissingToolOutputs input := by
  refine mem_flatMap.mpr ⟨call,member,mem_cons_of_mem _ ?_⟩
  unfold missingOutput
  rw [same,found]
  dsimp only
  rw [if_neg (mt contains_iff_mem.mp absent)]
  exact mem_singleton_self _

theorem calls_injected (kind : ToolKind) (callId : Text) : Calls (injectMissingToolOutputs input) kind callId ↔ Calls input kind callId := by
  constructor
  · rintro ⟨call,member,called,same,rest⟩
    rcases mem_injected member with before | ⟨source,-,made,id,-,-,-,rfl⟩
    · exact ⟨call,before,called,same,rest⟩
    · cases same.symm.trans (itemKind_cancelled made id)
  · rintro ⟨call,member,rest⟩
    exact ⟨call,injected_kept member,rest⟩

variable (stringify input)

def settle : List (InputItem Value) := injectMissingToolOutputs (normalizeOrphanedToolOutputs stringify input)

/-- Every output refers to a call that it answers. -/
def Referring (items : List (InputItem Value)) : Prop :=
  ∀ output ∈ items, ∀ kind, itemKind output = .output kind → ∃ callId, getCallId output = some callId ∧ Calls items kind callId

/-- Every call with an id has an output that answers it. -/
def Answering (items : List (InputItem Value)) : Prop :=
  ∀ call ∈ items, ∀ called callId, itemKind call = .call called → getCallId call = some callId →
    ∃ output ∈ items, ∃ kind, itemKind output = .output kind ∧ compatible kind called = true ∧ getCallId output = some callId

/-- One list comes from another by turning some outputs into messages and putting outputs
    behind some calls; all else stays, in order. -/
inductive Edited : List (InputItem Value) → List (InputItem Value) → Prop where
  | nil : Edited [] []
  | keep {item rest result} (kept : orphaned input item = false) : Edited rest result → Edited (item :: rest) (item :: result)
  | convert {item rest result} (orphan : orphaned input item = true) : Edited rest result →
      Edited (item :: rest) (convertOrphanedOutputToMessage stringify item (getCallId item) :: result)
  | answer {item rest result kind callId} (call : itemKind item = .call kind) (found : getCallId item = some callId) : Edited rest result →
      Edited (item :: rest) (item :: cancelledOutput kind callId :: result)

/-- No id of a call is that of an output of the input which answers another call but none that
    answers this one. -/
def Answered : Prop :=
  ∀ call ∈ input, ∀ called callId, itemKind call = .call called → getCallId call = some callId →
    (∃ output ∈ input, ∃ kind, itemKind output = .output kind ∧ getCallId output = some callId ∧ Calls input kind callId) →
    ∃ output ∈ input, ∃ kind, itemKind output = .output kind ∧ compatible kind called = true ∧ getCallId output = some callId

/-- What the two steps are to achieve. -/
structure Paired : Prop where
  referring : Referring (settle stringify input)
  answering : Answering (settle stringify input)
  edited : Edited stringify input input (settle stringify input)
  stable : settle stringify (settle stringify input) = settle stringify input

variable {stringify input}

theorem calls_settled (kind : ToolKind) (callId : Text) : Calls (settle stringify input) kind callId ↔ Calls input kind callId :=
  (calls_injected kind callId).trans (calls_normalized kind callId)

theorem settle_referring : Referring (settle stringify input) := by
  intro output member kind same
  rcases mem_injected member with before | ⟨call,there,made,callId,called,found,-,rfl⟩
  · rcases mem_normalized before with ⟨-,kept⟩ | other
    · obtain ⟨callId,found,calls⟩ := (orphaned_output same).mp kept
      exact ⟨callId,found,(calls_settled kind callId).mpr calls⟩
    · cases same.symm.trans other
  · cases (itemKind_cancelled made callId).symm.trans same
    refine ⟨callId,getCallId_cancelled kind found,(calls_injected kind callId).mpr ⟨call,there,kind,called,?_,found⟩⟩
    cases kind <;> rfl

theorem mem_outputIds_normalized {callId : Text} :
    callId ∈ collectOutputCallIds (normalizeOrphanedToolOutputs stringify input) ↔
      ∃ output ∈ input, ∃ kind, itemKind output = .output kind ∧ getCallId output = some callId ∧ Calls input kind callId := by
  rw [mem_collectOutputCallIds]
  constructor
  · rintro ⟨output,member,⟨kind,same⟩,found⟩
    rcases mem_normalized member with ⟨before,kept⟩ | other
    · obtain ⟨id,here,calls⟩ := (orphaned_output same).mp kept
      cases found.symm.trans here
      exact ⟨output,before,kind,same,found,calls⟩
    · cases same.symm.trans other
  · rintro ⟨output,member,kind,same,found,calls⟩
    exact ⟨output,normalized_kept member ((orphaned_output same).mpr ⟨callId,found,calls⟩),⟨kind,same⟩,found⟩

theorem settle_answering_iff : Answering (settle stringify input) ↔ Answered input := by
  constructor
  · intro answering call member called callId same found others
    have call_ : call ∈ settle stringify input := injected_kept (normalized_kept member (orphaned_call same))
    obtain ⟨output,there,kind,isOutput,fits,id⟩ := answering call call_ called callId same found
    rcases mem_injected there with before | ⟨source,-,made,other,-,sourceId,absent,rfl⟩
    · rcases mem_normalized before with ⟨original,-⟩ | other
      · exact ⟨output,original,kind,isOutput,fits,id⟩
      · cases isOutput.symm.trans other
    · cases (getCallId_cancelled made sourceId).symm.trans id
      exact absurd (mem_outputIds_normalized.mpr others) absent
  · intro answered call member called callId same found
    rcases mem_injected member with before | ⟨-,-,made,other,-,-,-,rfl⟩
    · rcases mem_normalized before with ⟨original,-⟩ | other
      · by_cases some_ : callId ∈ collectOutputCallIds (normalizeOrphanedToolOutputs stringify input)
        · obtain ⟨output,there,kind,isOutput,fits,id⟩ :=
            answered call original called callId same found (mem_outputIds_normalized.mp some_)
          have calls : Calls input kind callId := ⟨call,original,called,same,fits,found⟩
          exact ⟨output,injected_kept (normalized_kept there ((orphaned_output isOutput).mpr ⟨callId,id,calls⟩)),kind,isOutput,fits,id⟩
        · refine ⟨cancelledOutput called callId,injected_output before same found some_,called,itemKind_cancelled called callId,?_,
            getCallId_cancelled called found⟩
          cases called <;> rfl
      · cases same.symm.trans other
    · cases same.symm.trans (itemKind_cancelled made other)

theorem settle_edited : Edited stringify input input (settle stringify input) := by
  unfold settle injectMissingToolOutputs
  generalize collectOutputCallIds (normalizeOrphanedToolOutputs stringify input) = outputCallIds
  show Edited stringify input input ((input.map _).flatMap _)
  -- over the items, with the ids fixed
  suffices edited : ∀ items : List (InputItem Value), Edited stringify input items
      ((items.map (fun item => if orphaned input item then convertOrphanedOutputToMessage stringify item (getCallId item) else item)).flatMap
        (fun item => item :: missingOutput outputCallIds item)) from edited input
  intro items
  induction items with
  | nil => exact Edited.nil
  | cons item rest ih =>
    rw [map_cons,flatMap_cons]
    by_cases orphan : orphaned input item = true
    · rw [if_pos orphan]
      have none_ : missingOutput outputCallIds (convertOrphanedOutputToMessage stringify item (getCallId item)) = [] := by
        unfold missingOutput
        rw [itemKind_converted]
      rw [none_]
      exact Edited.convert orphan ih
    · rw [if_neg orphan]
      have kept : orphaned input item = false := Bool.eq_false_iff.mpr orphan
      unfold missingOutput
      split
      case h_1 kind callId same found =>
        split
        · exact Edited.keep kept ih
        · exact Edited.answer same found ih
      case h_2 => exact Edited.keep kept ih

theorem normalize_referring {items : List (InputItem Value)} (referring : Referring items) : normalizeOrphanedToolOutputs stringify items = items := by
  refine (map_congr_left fun item member => ?_).trans (map_id _)
  refine if_neg fun orphan => ?_
  obtain ⟨kind,same⟩ := orphaned_kind orphan
  have kept := (orphaned_output same).mpr (referring item member kind same)
  exact absurd (orphan.symm.trans kept) (by decide)

theorem inject_injected : injectMissingToolOutputs (injectMissingToolOutputs input) = injectMissingToolOutputs input := by
  have single : ∀ item ∈ injectMissingToolOutputs input,
      item :: missingOutput (collectOutputCallIds (injectMissingToolOutputs input)) item = [item] := by
    intro item member
    unfold missingOutput
    split
    case h_2 => rfl
    case h_1 kind callId same found =>
      refine congrArg (item :: ·) (if_pos (contains_iff_mem.mpr (mem_collectOutputCallIds.mpr ?_)))
      have original : item ∈ input := by
        rcases mem_injected member with before | ⟨-,-,made,other,-,-,-,rfl⟩
        · exact before
        · cases same.symm.trans (itemKind_cancelled made other)
      by_cases some_ : callId ∈ collectOutputCallIds input
      · obtain ⟨output,there,rest⟩ := mem_collectOutputCallIds.mp some_
        exact ⟨output,injected_kept there,rest⟩
      · exact ⟨_,injected_output original same found some_,⟨kind,itemKind_cancelled kind callId⟩,getCallId_cancelled kind found⟩
  calc injectMissingToolOutputs (injectMissingToolOutputs input)
      = (injectMissingToolOutputs input).flatMap (fun item => [item]) := flatMap_congr single
    _ = injectMissingToolOutputs input := flatMap_singleton' _

theorem settle_stable : settle stringify (settle stringify input) = settle stringify input := by
  have same : normalizeOrphanedToolOutputs stringify (settle stringify input) = settle stringify input := normalize_referring settle_referring
  calc settle stringify (settle stringify input)
      = injectMissingToolOutputs (settle stringify input) := congrArg injectMissingToolOutputs same
    _ = settle stringify input := inject_injected

end

/-- The two steps pair calls and outputs just when no id is answered for a call of one kind and
    not for one of another. -/
theorem paired_iff_answered {Value : Type} (stringify : Value → Text) (input : List (InputItem Value)) :
    Paired stringify input ↔ Answered input :=
  ⟨fun paired => settle_answering_iff.mp paired.answering,
    fun answered => ⟨settle_referring,settle_answering_iff.mpr answered,settle_edited,settle_stable⟩⟩

/-- A function and a custom tool are called with one id, and the custom tool has answered. -/
def sharedId : List (InputItem Empty) :=
  [{ type := .text (callType .function),call_id := .text (ascii "c") },{ type := .text (callType .custom),call_id := .text (ascii "c") },
    { type := .text (outputType .custom),call_id := .text (ascii "c"),output := .text (ascii "done") }]

/-- The call of the function gets no output. -/
theorem sharedId_unanswered : ¬Paired (fun value : Empty => nomatch value) sharedId := by
  intro paired
  obtain ⟨output,member,kind,same,fits,-⟩ :=
    paired.answering { type := .text (callType .function),call_id := .text (ascii "c") } (mem_cons_self) .function (ascii "c") (by decide) (by decide)
  have kinds : ∀ item ∈ settle (fun value : Empty => nomatch value) sharedId, itemKind item ≠ .output .function := by decide
  cases kind with
  | function => exact kinds output member same
  | localShell => cases fits
  | custom => cases fits

end CodexMultiAuth.ToolPairing
