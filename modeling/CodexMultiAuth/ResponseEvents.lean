import CodexMultiAuth.Identity
import Mathlib.Data.Rat.Floor

/-!
The events of a streamed response: what the parser keeps of each, the final
response it makes of them, and the token counts that an event reports. What is
only logged is left out. A callback that is given is recorded by its argument.
-/
namespace CodexMultiAuth.ResponseHandler

def MAX_SYNTHESIZED_EVENT_INDEX : Nat := 255

/-- A text that is not blank, as it is. -/
def getStringField (record : Record) (key : String) : Option String :=
  (record.text key).filter (fun value => decide (trim value ≠ ""))

/-- A text that is not empty. -/
def getDeltaField (record : Record) (key : String) : Option String := (record.text key).filter (fun value => decide (value ≠ ""))

/-- The index of an event's item or part, where it is one that may be filled in. -/
def validIndex (value : Option ℚ) : Option Nat :=
  value.bind (fun value =>
    if value.den = 1 ∧ 0 ≤ value ∧ value ≤ MAX_SYNTHESIZED_EVENT_INDEX then some value.num.toNat else none)

def isRecord : Json → Bool
  | .obj _ => true
  | _ => false

def cloneContentArray : Option Json → List Json
  | some (.arr items) => items.filter isRecord
  | _ => []

/-- `{ ...base, ...update }` -/
def spread (base update : Record) : Record := update.foldl (fun merged field => merged.put field.1 field.2) base

def mergeRecord (base : Option Record) (update : Record) : Record :=
  match base with
  | none => update
  | some base =>
    let merged := spread base update
    if (update.find "content").isSome ∨ (base.find "content").isSome then
      let updateContent := cloneContentArray (update.find "content")
      merged.put "content"
        (.arr (if updateContent ≠ [] ∨ (base.find "content").isNone then updateContent else cloneContentArray (base.find "content")))
    else merged

/-- A place in the output: an item and a part of its content or of its summary. -/
abbrev PartKey := Nat × Nat

/-- A phase that is named, trimmed. -/
def phaseName (phase : Option Json) : Option String :=
  (phase.bind Json.asText).bind (fun phase => nonEmpty (trim phase))

def getPartText (part : Option Json) : Option String := (part.bind Json.asRecord).bind (fun part => getStringField part "text")

structure ParsedResponseState where
  finalResponse : Option Record := none
  lastPhase : Option String := none
  outputItems : OrderedMap Nat Record := []
  outputText : OrderedMap PartKey String := []
  outputTextPhases : OrderedMap PartKey String := []
  phaseTextSegments : OrderedMap (String × PartKey) String := []
  phaseSegmentOrder : OrderedMap String (List PartKey) := []
  phaseText : OrderedMap String String := []
  reasoningSummaryText : OrderedMap PartKey String := []
  seenResponseIds : List String := []
  encounteredError : Bool := false

namespace ParsedResponseState

def capturePhase (state : ParsedResponseState) (phase : Option Json) : ParsedResponseState :=
  match phaseName phase with
  | some phase => { state with lastPhase := some phase }
  | none => state

def rememberPhaseSegmentOrder (state : ParsedResponseState) (phase : String) (key : PartKey) : ParsedResponseState :=
  let existingOrder := (state.phaseSegmentOrder.find phase).getD []
  if existingOrder.contains key then state
  else { state with phaseSegmentOrder := state.phaseSegmentOrder.put phase (existingOrder ++ [key]) }

def removePhaseSegmentOrder (state : ParsedResponseState) (phase : String) (key : PartKey) : ParsedResponseState :=
  match state.phaseSegmentOrder.find phase with
  | none => state
  | some existingOrder =>
    let nextOrder := existingOrder.filter (fun other => decide (other ≠ key))
    if nextOrder = [] then { state with phaseSegmentOrder := state.phaseSegmentOrder.remove phase }
    else { state with phaseSegmentOrder := state.phaseSegmentOrder.put phase nextOrder }

def rebuildPhaseText (state : ParsedResponseState) (phase : String) : ParsedResponseState :=
  let orderedKeys := (state.phaseSegmentOrder.find phase).getD []
  let text := String.join (orderedKeys.map (fun key => (state.phaseTextSegments.find (phase,key)).getD ""))
  if text = "" then { state with phaseText := state.phaseText.remove phase }
  else { state with phaseText := state.phaseText.put phase text }

/-- The phase that a part's text belongs to: the named one or the one before. -/
def partPhase (state : ParsedResponseState) (phase : Option Json) (key : PartKey) : Option String :=
  (phaseName phase) <|> (state.outputTextPhases.find key).bind nonEmpty

def enterPhase (state : ParsedResponseState) (phase : String) (key : PartKey) : ParsedResponseState :=
  { state with outputTextPhases := state.outputTextPhases.put key phase,lastPhase := some phase }

def setPhaseTextSegment (state : ParsedResponseState) (phase : Option Json) (key : PartKey) (text : Option String) : ParsedResponseState :=
  match state.partPhase phase key with
  | none => state
  | some normalizedPhase =>
    let entered := state.enterPhase normalizedPhase key
    match text.bind nonEmpty with
    | none =>
      let dropped := { entered with phaseTextSegments := entered.phaseTextSegments.remove (normalizedPhase,key) }
      (dropped.removePhaseSegmentOrder normalizedPhase key).rebuildPhaseText normalizedPhase
    | some text =>
      let ordered := entered.rememberPhaseSegmentOrder normalizedPhase key
      { ordered with phaseTextSegments := ordered.phaseTextSegments.put (normalizedPhase,key) text }.rebuildPhaseText normalizedPhase

def appendPhaseTextSegment (state : ParsedResponseState) (phase : Option Json) (key : PartKey) (delta : String) : ParsedResponseState :=
  match state.partPhase phase key with
  | none => state
  | some normalizedPhase =>
    let ordered := (state.enterPhase normalizedPhase key).rememberPhaseSegmentOrder normalizedPhase key
    let existing := (ordered.phaseTextSegments.find (normalizedPhase,key)).getD ""
    let appended := { ordered with phaseTextSegments := ordered.phaseTextSegments.put (normalizedPhase,key) (existing ++ delta) }
    if ((appended.phaseSegmentOrder.find normalizedPhase).getD []).getLast? = some key then
      { appended with phaseText := appended.phaseText.put normalizedPhase ((appended.phaseText.find normalizedPhase).getD "" ++ delta) }
    else appended.rebuildPhaseText normalizedPhase

def upsertOutputItem (state : ParsedResponseState) (outputIndex : Option ℚ) (item : Option Json) : ParsedResponseState :=
  match validIndex outputIndex,item.bind Json.asRecord with
  | some outputIndex,some item =>
    let merged := mergeRecord (state.outputItems.find outputIndex) item
    { state with outputItems := state.outputItems.put outputIndex merged }.capturePhase (merged.find "phase")
  | _,_ => state

/-- The key of a part, where both of its indexes may be filled in. -/
def partKey (outputIndex partIndex : Option ℚ) : Option PartKey :=
  (validIndex outputIndex).bind (fun output => (validIndex partIndex).map (fun part => (output,part)))

def setOutputTextValue (state : ParsedResponseState) (outputIndex contentIndex : Option ℚ) (text : Option String)
    (phase : Option Json) : ParsedResponseState :=
  match partKey outputIndex contentIndex with
  | none => state
  | some key =>
    match text with
    | none => { state with outputText := state.outputText.remove key }.setPhaseTextSegment phase key none
    | some text => { state with outputText := state.outputText.put key text }.setPhaseTextSegment phase key (some text)

def appendOutputTextValue (state : ParsedResponseState) (outputIndex contentIndex : Option ℚ) (delta : Option String)
    (phase : Option Json) : ParsedResponseState :=
  match delta,partKey outputIndex contentIndex with
  | some delta,some key =>
    { state with outputText := state.outputText.put key ((state.outputText.find key).getD "" ++ delta) }.appendPhaseTextSegment phase key delta
  | _,_ => state

def setReasoningSummaryValue (state : ParsedResponseState) (outputIndex summaryIndex : Option ℚ) (text : Option String) :
    ParsedResponseState :=
  match partKey outputIndex summaryIndex with
  | none => state
  | some key =>
    match text with
    | none => { state with reasoningSummaryText := state.reasoningSummaryText.remove key }
    | some text => { state with reasoningSummaryText := state.reasoningSummaryText.put key text }

def appendReasoningSummaryValue (state : ParsedResponseState) (outputIndex summaryIndex : Option ℚ) (delta : Option String) :
    ParsedResponseState :=
  match delta,partKey outputIndex summaryIndex with
  | some delta,some key =>
    { state with reasoningSummaryText := state.reasoningSummaryText.put key ((state.reasoningSummaryText.find key).getD "" ++ delta) }
  | _,_ => state

def extractResponseId (response : Option Json) : Option String :=
  ((response.bind Json.asRecord).bind (fun response => response.text "id")).bind (fun id => nonEmpty (trim id))

/-- An id that was not seen before is reported, if there is a callback. -/
def notifyResponseId (state : ParsedResponseState) (onResponseId : Bool) (response : Option Json) : ParsedResponseState × List String :=
  match extractResponseId response with
  | none => (state,[])
  | some responseId =>
    if !onResponseId || state.seenResponseIds.contains responseId then (state,[])
    else ({ state with seenResponseIds := state.seenResponseIds ++ [responseId] },[responseId])

def isFailure (type : Option Json) : Bool := type = some (.str "error") || type = some (.str "response.failed")

def isTerminal (type : Option Json) : Bool :=
  type = some (.str "response.done") || type = some (.str "response.completed") || type = some (.str "response.incomplete")

/-- What an event that neither fails nor ends the response adds to the state. -/
def captureProgress (state : ParsedResponseState) (event : Record) : ParsedResponseState :=
  let type := event.find "type"
  let outputIndex := event.number "output_index"
  let contentIndex := event.number "content_index"
  let summaryIndex := event.number "summary_index"
  if type = some (.str "response.output_item.added") ∨ type = some (.str "response.output_item.done") then
    state.upsertOutputItem outputIndex (event.find "item")
  else if type = some (.str "response.output_text.delta") then
    state.appendOutputTextValue outputIndex contentIndex (getDeltaField event "delta") (event.find "phase")
  else if type = some (.str "response.output_text.done") then
    state.setOutputTextValue outputIndex contentIndex (getStringField event "text") (event.find "phase")
  else if type = some (.str "response.content_part.added") ∨ type = some (.str "response.content_part.done") then
    match event.record "part" with
    | none => state
    | some part =>
      if getStringField part "type" = some "output_text" then
        state.setOutputTextValue outputIndex contentIndex (getStringField part "text") (part.find "phase")
      else state.capturePhase (part.find "phase")
  else if type = some (.str "response.reasoning_summary_text.delta") then
    state.appendReasoningSummaryValue outputIndex summaryIndex (getDeltaField event "delta")
  else if type = some (.str "response.reasoning_summary_text.done") then
    state.setReasoningSummaryValue outputIndex summaryIndex (getStringField event "text")
  else if type = some (.str "response.reasoning_summary_part.added") ∨ type = some (.str "response.reasoning_summary_part.done") then
    state.setReasoningSummaryValue outputIndex summaryIndex (getPartText (event.find "part"))
  else state.capturePhase (event.find "phase")

/-- The state after an event and the ids it reports. A value that is not an object is no event. -/
def maybeCaptureResponseEvent (state : ParsedResponseState) (data : Json) (onResponseId : Bool) : ParsedResponseState × List String :=
  match data with
  | .obj event =>
    let type := OrderedMap.find event "type"
    if isFailure type then ({ state with encounteredError := true },[])
    else if isTerminal type then
      let kept :=
        match Record.record event "response" with
        | some response => { state with finalResponse := some response }
        | none => state
      kept.notifyResponseId onResponseId (OrderedMap.find event "response")
    else (state.captureProgress event,[])
  | _ => (state,[])

/-! ### The final response -/

/-- The list with objects up to an index, and an object there. -/
def ensureRecordAt (items : List Json) (index : Nat) : List Json :=
  let padded := items ++ List.replicate (index + 1 - items.length) (.obj [])
  padded.modify index (fun current => if isRecord current then current else .obj [])

def itemsOf (record : Record) (key : String) : List Json := ((record.find key).bind Json.asItems).getD []

/-- The record at an index of a list that has one there. -/
def recordAt (items : List Json) (index : Nat) : Record := ((items[index]?).bind Json.asRecord).getD []

/-- Accumulated text goes to a part that has none of its own. -/
def applyOutputText (output : List Json) (state : ParsedResponseState) (entry : PartKey × String) : List Json × ParsedResponseState :=
  let output := ensureRecordAt output entry.1.1
  let item := recordAt output entry.1.1
  let content := ensureRecordAt (itemsOf item "content") entry.1.2
  let part := recordAt content entry.1.2
  let typed := if (getStringField part "type").isSome then part else part.put "type" (.str "output_text")
  let written := fun (part : Record) =>
    output.set entry.1.1 (.obj (item.put "content" (.arr (content.set entry.1.2 (.obj part)))))
  match part.text "text" with
  | some own => (written typed,state.setPhaseTextSegment (typed.find "phase") entry.1 (some own))
  | none => (written (typed.put "text" (.str entry.2)),state)

def applyAccumulatedOutputText (response : Record) (state : ParsedResponseState) : Record × ParsedResponseState :=
  if state.outputText = [] then (response,state)
  else
    let applied := state.outputText.foldl (fun done entry => applyOutputText done.1 done.2 entry) (itemsOf response "output",state)
    (if applied.1 = [] then response else response.put "output" (.arr applied.1),applied.2)

def mergeOutputItem (output : List Json) (entry : Nat × Record) : List Json :=
  let padded := output ++ List.replicate (entry.1 + 1 - output.length) (.obj [])
  padded.modify entry.1 (fun current => .obj (mergeRecord current.asRecord entry.2))

def mergeOutputItemsIntoResponse (response : Record) (state : ParsedResponseState) : Record :=
  if state.outputItems = [] then response
  else response.put "output" (.arr (state.outputItems.foldl mergeOutputItem (itemsOf response "output")))

def collectMessageOutputText (output : List Json) : String :=
  String.join ((output.filterMap Json.asRecord).map (fun item =>
    if item.find "type" ≠ some (.str "message") then ""
    else String.join (((itemsOf item "content").filterMap Json.asRecord).map (fun part =>
      if part.find "type" ≠ some (.str "output_text") then "" else (part.text "text").getD ""))))

def collectReasoningSummaryText (output : List Json) : String :=
  "\n\n".intercalate (((output.filterMap Json.asRecord).map (fun item =>
    if item.find "type" ≠ some (.str "reasoning") then ""
    else "\n\n".intercalate ((((itemsOf item "summary").filterMap Json.asRecord).map (fun part => (part.text "text").getD "")).filter
      (fun text => decide (text ≠ ""))))).filter (fun text => decide (text ≠ "")))

/-- Accumulated summaries go to parts that have no text of their own. -/
def applyReasoningSummary (output : List Json) (entry : PartKey × String) : List Json :=
  let output := ensureRecordAt output entry.1.1
  let item := recordAt output entry.1.1
  let summary := itemsOf item "summary" ++ List.replicate (entry.1.2 + 1 - (itemsOf item "summary").length) (.obj [])
  let nextPart := recordAt summary entry.1.2
  let typed := if (getStringField nextPart "type").isSome then nextPart else nextPart.put "type" (.str "summary_text")
  match nextPart.text "text" with
  | some _ => output
  | none =>
    let summarized := item.put "summary" (.arr (summary.set entry.1.2 (.obj (typed.put "text" (.str entry.2)))))
    output.set entry.1.1 (.obj (if (getStringField summarized "type").isSome then summarized else summarized.put "type" (.str "reasoning")))

def applyReasoningSummaries (response : Record) (state : ParsedResponseState) : Record :=
  if state.reasoningSummaryText = [] then response
  else
    let output := state.reasoningSummaryText.foldl applyReasoningSummary (itemsOf response "output")
    if output = [] then response else response.put "output" (.arr output)

/-- A field that is set unless it already holds a text. -/
def putText (response : Record) (key : String) (text : Option String) : Record :=
  match text,response.text key with
  | some text,none => response.put key (.str text)
  | _,_ => response

/-- The texts of the phases, and those of the commentary and the final answer by themselves. -/
def putPhases (response : Record) (phases : OrderedMap String String) : Record :=
  if phases = [] then response
  else
    let named := phases.foldl (fun response entry =>
      if entry.1 = "commentary" then response.put "commentary_text" (.str entry.2)
      else if entry.1 = "final_answer" then response.put "final_answer_text" (.str entry.2)
      else response) response
    named.put "phase_text" (.obj (phases.map (fun entry => (entry.1,.str entry.2))))

def finalizeParsedResponse (state : ParsedResponseState) : Option Record :=
  match state.finalResponse with
  | none => none
  | some finalResponse =>
    if state.encounteredError then none
    else
      let merged := mergeOutputItemsIntoResponse finalResponse state
      let applied := applyAccumulatedOutputText merged state
      let response := applyReasoningSummaries applied.1 applied.2
      let output := itemsOf response "output"
      let texted := putText response "output_text" (nonEmpty (collectMessageOutputText output))
      let summarized := putText texted "reasoning_summary_text" (nonEmpty (collectReasoningSummaryText output))
      let phased := putText summarized "phase" (applied.2.lastPhase.bind nonEmpty)
      some (putPhases phased applied.2.phaseText)

end ParsedResponseState

inductive UsageServiceTier where
  | standard
  | priority
  | flex
  | batch
  | scale
  | ultrafast
  | unknown
  deriving DecidableEq

structure UsageTokenCounts where
  inputTokens : Nat
  outputTokens : Nat
  cachedInputTokens : Nat
  reasoningTokens : Nat
  totalTokens : Nat
  serviceTier : Option UsageServiceTier := none
  deriving DecidableEq

def nonNegativeInteger (value : Option ℚ) : Nat := (value.map (fun value => ⌊value⌋.toNat)).getD 0

def extractUsageTokenCounts (usage : Option Json) : Option UsageTokenCounts :=
  match usage.bind Json.asRecord with
  | none => none
  | some usage =>
    if (usage.number "input_tokens").isNone ∧ (usage.number "output_tokens").isNone ∧ (usage.number "total_tokens").isNone then none
    else
      let inputTokens := nonNegativeInteger (usage.number "input_tokens")
      let rawOutputTokens := nonNegativeInteger (usage.number "output_tokens")
      let cachedInputTokens :=
        match usage.record "input_tokens_details" with
        | some details => min inputTokens (nonNegativeInteger (details.number "cached_tokens"))
        | none => 0
      let reasoningTokens :=
        match usage.record "output_tokens_details" with
        | some details => min rawOutputTokens (nonNegativeInteger (details.number "reasoning_tokens"))
        | none => 0
      some
        { inputTokens
          outputTokens := rawOutputTokens - reasoningTokens
          cachedInputTokens
          reasoningTokens
          totalTokens :=
            match usage.number "total_tokens" with
            | some total => nonNegativeInteger (some total)
            | none => inputTokens + rawOutputTokens }

def given (value : Option Json) : Option Json := value.filter (fun value => decide (value ≠ .null))

section
variable [Host]

def extractServiceTier (payload : Record) : Option UsageServiceTier :=
  let raw := (given (payload.find "service_tier")) <|> (payload.record "response").bind (fun response => response.find "service_tier")
  match (raw.bind Json.asText).map (fun raw => Host.toLowerCase (trim raw)) with
  | none => none
  | some normalized =>
    if normalized = "" then none
    else if normalized = "default" ∨ normalized = "standard" then some .standard
    else if normalized = "fast" ∨ normalized = "priority" then some .priority
    else if normalized = "flex" then some .flex
    else if normalized = "batch" then some .batch
    else if normalized = "scale" then some .scale
    else if normalized = "ultrafast" then some .ultrafast
    else some .unknown

def extractResponsesUsage (payload : Json) : Option UsageTokenCounts :=
  match payload with
  | .obj payload =>
    match extractUsageTokenCounts (OrderedMap.find payload "usage") with
    | some direct => some { direct with serviceTier := extractServiceTier payload }
    | none =>
      match Record.record payload "response" with
      | some response =>
        (extractUsageTokenCounts (OrderedMap.find response "usage")).map (fun nested => { nested with serviceTier := extractServiceTier payload })
      | none => none
  | _ => none

end
end CodexMultiAuth.ResponseHandler
