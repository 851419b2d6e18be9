import CodexMultiAuth.SseLaw

/-!
The events that end a part of a streamed response, which may repeat what the deltas of
the part came to. A blank text takes away what the deltas brought
(`done_events_redundant_iff`).
-/
namespace CodexMultiAuth.ResponseHandler
open List
open ConfigToml (Line splitLines)
open ParsedResponseState (Kept isFailure isTerminal partKey)

/-- A part of an item's content or of its summary. -/
inductive Place where
  | content (key : PartKey)
  | summary (key : PartKey)
  deriving DecidableEq

/-- What an event brings to the text of a part, as the event has it. -/
inductive Change where
  | delta (text : Option String)
  | added (text : Option String)
  | done (text : Option String)
  deriving DecidableEq

/-- A text that the setters keep. -/
def unlessBlank (text : Option String) : Option String := text.filter (fun text => decide (trim text ≠ ""))

theorem getStringField_eq (record : Record) (key : String) : getStringField record key = unlessBlank (record.text key) := rfl

def Change.applied (change : Change) (current : Option String) : Option String :=
  match change with
  | .delta text =>
    match text.filter (fun text => decide (text ≠ "")) with
    | some piece => some (current.getD "" ++ piece)
    | none => current
  | .added text => unlessBlank text
  | .done text => unlessBlank text

def contentPlace (event : Record) : Option Place :=
  (partKey (event.number "output_index") (event.number "content_index")).map Place.content

def summaryPlace (event : Record) : Option Place :=
  (partKey (event.number "output_index") (event.number "summary_index")).map Place.summary

def outputPart (event : Record) : Option (Option String) :=
  match event.record "part" with
  | none => none
  | some part => if getStringField part "type" = some "output_text" then some (part.text "text") else none

def summaryPart (event : Record) : Option String := (event.record "part").bind (fun part => part.text "text")

/-- The part that an event is about, and what it brings. -/
def changeOf (event : Record) : Option (Place × Change) :=
  let type := event.find "type"
  if type = some (.str "response.output_text.delta") then (contentPlace event).map (fun place => (place,.delta (event.text "delta")))
  else if type = some (.str "response.output_text.done") then (contentPlace event).map (fun place => (place,.done (event.text "text")))
  else if type = some (.str "response.content_part.added") then
    (outputPart event).bind (fun text => (contentPlace event).map (fun place => (place,.added text)))
  else if type = some (.str "response.content_part.done") then
    (outputPart event).bind (fun text => (contentPlace event).map (fun place => (place,.done text)))
  else if type = some (.str "response.reasoning_summary_text.delta") then
    (summaryPlace event).map (fun place => (place,.delta (event.text "delta")))
  else if type = some (.str "response.reasoning_summary_text.done") then
    (summaryPlace event).map (fun place => (place,.done (event.text "text")))
  else if type = some (.str "response.reasoning_summary_part.added") then
    (summaryPlace event).map (fun place => (place,.added (summaryPart event)))
  else if type = some (.str "response.reasoning_summary_part.done") then
    (summaryPlace event).map (fun place => (place,.done (summaryPart event)))
  else none

def doneTypes : List String :=
  ["response.output_text.done","response.content_part.done","response.reasoning_summary_text.done","response.reasoning_summary_part.done"]

/-- An event that ends a part. -/
def isDone : Json → Bool
  | .obj event => doneTypes.any (fun type => decide (OrderedMap.find event "type" = some (.str type)))
  | _ => false

/-! ### The state without its phases -/

namespace ParsedResponseState.Kept

def textAt (kept : Kept) : Place → Option String
  | .content key => kept.outputText.find key
  | .summary key => kept.reasoningSummaryText.find key

def assign (kept : Kept) (place : Place) (text : Option String) : Kept :=
  match place with
  | .content key => { kept with outputText := kept.outputText.assign key text }
  | .summary key => { kept with reasoningSummaryText := kept.reasoningSummaryText.assign key text }

theorem assign_textAt (kept : Kept) (place : Place) : kept.assign place (kept.textAt place) = kept := by
  cases place with
  | content key =>
    show { kept with outputText := kept.outputText.assign key (kept.outputText.find key) } = kept
    rw [OrderedMap.assign_find]
  | summary key =>
    show { kept with reasoningSummaryText := kept.reasoningSummaryText.assign key (kept.reasoningSummaryText.find key) } = kept
    rw [OrderedMap.assign_find]

theorem textAt_assign (kept : Kept) (place other : Place) (text : Option String) :
    (kept.assign place text).textAt other = if place = other then text else kept.textAt other := by
  cases place with
  | content key =>
    cases other with
    | content other => simp [assign,textAt]
    | summary other => simp [assign,textAt]
  | summary key =>
    cases other with
    | content other => simp [assign,textAt]
    | summary other => simp [assign,textAt]

def change (kept : Kept) (place : Place) (change : Change) : Kept := kept.assign place (change.applied (kept.textAt place))

def upsert (kept : Kept) (outputIndex : Option ℚ) (item : Option Json) : Kept :=
  match validIndex outputIndex,item.bind Json.asRecord with
  | some outputIndex,some item =>
    { kept with outputItems := kept.outputItems.put outputIndex (mergeRecord (kept.outputItems.find outputIndex) item) }
  | _,_ => kept

def progress (kept : Kept) (event : Record) : Kept :=
  let type := event.find "type"
  if type = some (.str "response.output_item.added") ∨ type = some (.str "response.output_item.done") then
    kept.upsert (event.number "output_index") (event.find "item")
  else
    match changeOf event with
    | some (place,change) => kept.change place change
    | none => kept

def capture (kept : Kept) (data : Json) : Kept :=
  match data with
  | .obj event =>
    if isFailure (OrderedMap.find event "type") then { kept with encounteredError := true }
    else if isTerminal (OrderedMap.find event "type") then
      match Record.record event "response" with
      | some response => { kept with finalResponse := some response }
      | none => kept
    else kept.progress event
  | _ => kept

end ParsedResponseState.Kept

namespace ParsedResponseState

variable (state : ParsedResponseState)

theorem kept_setOutputTextValue (outputIndex contentIndex : Option ℚ) (text : Option String) (phase : Option Json)
    (change : Change) (sets : ∀ current, change.applied current = text) :
    (state.setOutputTextValue outputIndex contentIndex text phase).kept =
      match (partKey outputIndex contentIndex).map Place.content with
      | some place => state.kept.change place change
      | none => state.kept := by
  unfold setOutputTextValue
  cases partKey outputIndex contentIndex with
  | none => rfl
  | some key =>
    cases text with
    | none =>
      dsimp only [Option.map_some]
      rw [kept_setPhaseTextSegment,Kept.change,sets]
      rfl
    | some text =>
      dsimp only [Option.map_some]
      rw [kept_setPhaseTextSegment,Kept.change,sets]
      rfl

theorem kept_setReasoningSummaryValue (outputIndex summaryIndex : Option ℚ) (text : Option String)
    (change : Change) (sets : ∀ current, change.applied current = text) :
    (state.setReasoningSummaryValue outputIndex summaryIndex text).kept =
      match (partKey outputIndex summaryIndex).map Place.summary with
      | some place => state.kept.change place change
      | none => state.kept := by
  unfold setReasoningSummaryValue
  cases partKey outputIndex summaryIndex with
  | none => rfl
  | some key =>
    dsimp only [Option.map_some]
    rw [Kept.change,sets]
    cases text <;> rfl

theorem kept_appendOutputTextValue (outputIndex contentIndex : Option ℚ) (text : Option String)
    (phase : Option Json) :
    (state.appendOutputTextValue outputIndex contentIndex (text.filter (fun text => decide (text ≠ ""))) phase).kept =
      match (partKey outputIndex contentIndex).map Place.content with
      | some place => state.kept.change place (.delta text)
      | none => state.kept := by
  unfold appendOutputTextValue
  cases partKey outputIndex contentIndex with
  | none => split <;> trivial
  | some key =>
    dsimp only [Option.map_some,Kept.change,Change.applied]
    cases text.filter (fun text => decide (text ≠ "")) with
    | none => exact (Kept.assign_textAt state.kept (.content key)).symm
    | some delta =>
      dsimp only
      rw [kept_appendPhaseTextSegment]
      rfl

theorem kept_appendReasoningSummaryValue (outputIndex summaryIndex : Option ℚ) (text : Option String) :
    (state.appendReasoningSummaryValue outputIndex summaryIndex (text.filter (fun text => decide (text ≠ "")))).kept =
      match (partKey outputIndex summaryIndex).map Place.summary with
      | some place => state.kept.change place (.delta text)
      | none => state.kept := by
  unfold appendReasoningSummaryValue
  cases partKey outputIndex summaryIndex with
  | none => split <;> trivial
  | some key =>
    dsimp only [Option.map_some,Kept.change,Change.applied]
    cases text.filter (fun text => decide (text ≠ "")) with
    | none => exact (Kept.assign_textAt state.kept (.summary key)).symm
    | some delta => rfl

theorem kept_upsertOutputItem (outputIndex : Option ℚ) (item : Option Json) :
    (state.upsertOutputItem outputIndex item).kept = state.kept.upsert outputIndex item := by
  unfold upsertOutputItem Kept.upsert
  cases validIndex outputIndex with
  | none => rfl
  | some index =>
    cases item.bind Json.asRecord with
    | none => rfl
    | some item =>
      dsimp only
      rw [kept_capturePhase]
      rfl

theorem kept_captureProgress (event : Record) :
    (state.captureProgress event).kept = state.kept.progress event := by
  unfold captureProgress Kept.progress changeOf
  dsimp only
  generalize event.find "type" = type
  by_cases item : type = some (.str "response.output_item.added") ∨ type = some (.str "response.output_item.done")
  · rw [if_pos item,if_pos item,kept_upsertOutputItem]
  rw [if_neg item,if_neg item]
  by_cases delta : type = some (.str "response.output_text.delta")
  · rw [if_pos delta,if_pos delta,getDeltaField,kept_appendOutputTextValue,contentPlace]
    cases partKey (event.number "output_index") (event.number "content_index") <;> rfl
  rw [if_neg delta,if_neg delta]
  by_cases done : type = some (.str "response.output_text.done")
  · rw [if_pos done,if_pos done,getStringField_eq,
      kept_setOutputTextValue state _ _ (unlessBlank (event.text "text")) _ (.done (event.text "text")) (fun _ => rfl),contentPlace]
    cases partKey (event.number "output_index") (event.number "content_index") <;> rfl
  rw [if_neg done,if_neg done]
  have ofPart (change : Option String → Change) (sets : ∀ text current, (change text).applied current = unlessBlank text) :
      (match event.record "part" with
        | none => state
        | some part =>
          if getStringField part "type" = some "output_text" then
            state.setOutputTextValue (event.number "output_index") (event.number "content_index") (getStringField part "text") (part.find "phase")
          else state.capturePhase (part.find "phase")).kept =
        match (outputPart event).bind (fun text => (contentPlace event).map (fun place => (place,change text))) with
        | some (place,change) => state.kept.change place change
        | none => state.kept := by
    unfold outputPart
    cases event.record "part" with
    | none => rfl
    | some part =>
      dsimp only
      split_ifs with texts
      · rw [getStringField_eq part "text",kept_setOutputTextValue state _ _ _ _ (change (part.text "text")) (sets _),contentPlace]
        cases partKey (event.number "output_index") (event.number "content_index") <;> rfl
      · exact kept_capturePhase state _
  by_cases partAdded : type = some (.str "response.content_part.added")
  · rw [if_pos (Or.inl partAdded),if_pos partAdded]
    exact ofPart .added (fun _ _ => rfl)
  rw [if_neg partAdded]
  by_cases partDone : type = some (.str "response.content_part.done")
  · rw [if_pos (Or.inr partDone),if_pos partDone]
    exact ofPart .done (fun _ _ => rfl)
  rw [if_neg (by tauto),if_neg partDone]
  by_cases summaryDelta : type = some (.str "response.reasoning_summary_text.delta")
  · rw [if_pos summaryDelta,if_pos summaryDelta,getDeltaField,kept_appendReasoningSummaryValue,summaryPlace]
    cases partKey (event.number "output_index") (event.number "summary_index") <;> rfl
  rw [if_neg summaryDelta,if_neg summaryDelta]
  by_cases summaryDone : type = some (.str "response.reasoning_summary_text.done")
  · rw [if_pos summaryDone,if_pos summaryDone,getStringField_eq,
      kept_setReasoningSummaryValue state _ _ (unlessBlank (event.text "text")) (.done (event.text "text")) (fun _ => rfl),summaryPlace]
    cases partKey (event.number "output_index") (event.number "summary_index") <;> rfl
  rw [if_neg summaryDone,if_neg summaryDone]
  have ofSummary (change : Change) (sets : ∀ current, change.applied current = unlessBlank (summaryPart event)) :
      (state.setReasoningSummaryValue (event.number "output_index") (event.number "summary_index") (getPartText (event.find "part"))).kept =
        match (summaryPlace event).map (fun place => (place,change)) with
        | some (place,change) => state.kept.change place change
        | none => state.kept := by
    have text : getPartText (event.find "part") = unlessBlank (summaryPart event) := by
      unfold getPartText summaryPart Record.record unlessBlank
      cases (event.find "part").bind Json.asRecord <;> rfl
    rw [text,kept_setReasoningSummaryValue state _ _ _ change sets,summaryPlace]
    cases partKey (event.number "output_index") (event.number "summary_index") <;> rfl
  by_cases added : type = some (.str "response.reasoning_summary_part.added")
  · rw [if_pos (Or.inl added),if_pos added]
    exact ofSummary (.added (summaryPart event)) (fun _ => rfl)
  rw [if_neg added]
  by_cases summaryPartDone : type = some (.str "response.reasoning_summary_part.done")
  · rw [if_pos (Or.inr summaryPartDone),if_pos summaryPartDone]
    exact ofSummary (.done (summaryPart event)) (fun _ => rfl)
  rw [if_neg (by tauto),if_neg summaryPartDone]
  exact kept_capturePhase state _

theorem kept_notifyResponseId (onResponseId : Bool) (response : Option Json) :
    (state.notifyResponseId onResponseId response).1.kept = state.kept := by
  unfold notifyResponseId
  split
  · rfl
  · split <;> rfl

theorem kept_maybeCaptureResponseEvent (data : Json) (onResponseId : Bool) :
    (state.maybeCaptureResponseEvent data onResponseId).1.kept = state.kept.capture data := by
  cases data with
  | obj event =>
    unfold maybeCaptureResponseEvent Kept.capture
    dsimp only
    split_ifs
    · rfl
    · rw [kept_notifyResponseId]
      cases Record.record event "response" <;> rfl
    · exact kept_captureProgress state event
  | _ => rfl

end ParsedResponseState

/-- The output of a response, its text and its summaries. -/
def outputTexts (response : Record) : Option Json × Option Json × Option Json :=
  (response.find "output",response.find "output_text",response.find "reasoning_summary_text")

namespace ParsedResponseState

theorem applyOutputText_fst (output : List Json) (state other : ParsedResponseState) (entry : PartKey × String) :
    (applyOutputText output state entry).1 = (applyOutputText output other entry).1 := by
  unfold applyOutputText
  dsimp only
  split <;> rfl

theorem applyOutputText_kept (output : List Json) (state : ParsedResponseState) (entry : PartKey × String) :
    (applyOutputText output state entry).2.kept = state.kept := by
  unfold applyOutputText
  dsimp only
  split
  · exact kept_setPhaseTextSegment _ _ _ _
  · rfl

theorem foldl_applyOutputText (entries : List (PartKey × String)) (output : List Json) (state other : ParsedResponseState) :
    (entries.foldl (fun done entry => applyOutputText done.1 done.2 entry) (output,state)).1 =
        (entries.foldl (fun done entry => applyOutputText done.1 done.2 entry) (output,other)).1 ∧
      (entries.foldl (fun done entry => applyOutputText done.1 done.2 entry) (output,state)).2.kept = state.kept := by
  induction entries generalizing output state other with
  | nil => exact ⟨rfl,rfl⟩
  | cons entry entries ih =>
    rw [foldl_cons,foldl_cons]
    obtain ⟨first,kept⟩ := ih (applyOutputText output state entry).1 (applyOutputText output state entry).2 (applyOutputText output other entry).2
    refine ⟨?_,kept.trans (applyOutputText_kept output state entry)⟩
    have pair : applyOutputText output other entry = ((applyOutputText output state entry).1,(applyOutputText output other entry).2) :=
      Prod.ext (applyOutputText_fst output other state entry) rfl
    dsimp only
    rw [pair]
    exact first

theorem applyAccumulatedOutputText_same {state other : ParsedResponseState} (same : state.kept = other.kept) (response : Record) :
    (applyAccumulatedOutputText response state).1 = (applyAccumulatedOutputText response other).1 ∧
      (applyAccumulatedOutputText response state).2.kept = state.kept := by
  have texts : state.outputText = other.outputText := congrArg Kept.outputText same
  obtain ⟨first,kept⟩ := foldl_applyOutputText other.outputText (itemsOf response "output") state other
  unfold applyAccumulatedOutputText
  rw [texts]
  split_ifs
  · exact ⟨rfl,rfl⟩
  · dsimp only
    rw [first]
    exact ⟨rfl,kept⟩

theorem outputTexts_finalizeParsedResponse {state other : ParsedResponseState} (same : state.kept = other.kept) :
    state.finalizeParsedResponse.map outputTexts = other.finalizeParsedResponse.map outputTexts := by
  have brought : state.finalResponse = other.finalResponse := congrArg Kept.finalResponse same
  have items : state.outputItems = other.outputItems := congrArg Kept.outputItems same
  have failed : state.encounteredError = other.encounteredError := congrArg Kept.encounteredError same
  unfold finalizeParsedResponse
  rw [brought,failed]
  cases other.finalResponse with
  | none => rfl
  | some response =>
    dsimp only
    split_ifs
    · rfl
    have merged : mergeOutputItemsIntoResponse response state = mergeOutputItemsIntoResponse response other := by
      unfold mergeOutputItemsIntoResponse
      rw [items]
    rw [merged]
    generalize mergeOutputItemsIntoResponse response other = merged
    obtain ⟨first,kept⟩ := applyAccumulatedOutputText_same same merged
    have keptOther := (applyAccumulatedOutputText_same rfl merged : _ ∧ (applyAccumulatedOutputText merged other).2.kept = other.kept).2
    have summaries : (applyAccumulatedOutputText merged state).2.reasoningSummaryText =
        (applyAccumulatedOutputText merged other).2.reasoningSummaryText :=
      congrArg Kept.reasoningSummaryText (kept.trans (same.trans keptOther.symm))
    have summarized : applyReasoningSummaries (applyAccumulatedOutputText merged state).1 (applyAccumulatedOutputText merged state).2 =
        applyReasoningSummaries (applyAccumulatedOutputText merged other).1 (applyAccumulatedOutputText merged other).2 := by
      unfold applyReasoningSummaries
      rw [first,summaries]
    rw [summarized]
    simp only [Option.map_some,outputTexts,find_putPhases _ _ (by decide : "commentary_text" ≠ "output") (by decide) (by decide),
      find_putPhases _ _ (by decide : "commentary_text" ≠ "output_text") (by decide) (by decide),
      find_putPhases _ _ (by decide : "commentary_text" ≠ "reasoning_summary_text") (by decide) (by decide),
      find_putText _ (by decide : "phase" ≠ "output"),find_putText _ (by decide : "phase" ≠ "output_text"),
      find_putText _ (by decide : "phase" ≠ "reasoning_summary_text")]

end ParsedResponseState

section
variable (onResponseId : Bool)

def captureEvents : List Json → ParsedResponseState → ParsedResponseState
  | [],state => state
  | data :: events,state =>
    let next := (state.maybeCaptureResponseEvent data onResponseId).1
    if next.encounteredError then next else captureEvents events next

def synthesize (events : List Json) : Option Record := (captureEvents onResponseId events {}).finalizeParsedResponse

theorem parseLines_eq (parse : List Char → Option Json) (lines : List Line) (parsed : ParsedResponseState × List String) :
    (parseLines parse onResponseId lines parsed).1 = captureEvents onResponseId (lines.filterMap (dataOf parse)) parsed.1 := by
  induction lines generalizing parsed with
  | nil => rfl
  | cons line lines ih =>
    rw [parseLines,filterMap_cons]
    cases dataOf parse line with
    | none => exact ih parsed
    | some data =>
      dsimp only
      rw [captureEvents]
      split_ifs
      · rfl
      · exact ih _

theorem parseSseStream_finalResponse (parse : List Char → Option Json) (sseText : List Char) :
    (parseSseStream parse sseText onResponseId).finalResponse = synthesize onResponseId (eventsOf parse sseText) := by
  unfold parseSseStream synthesize eventsOf
  rw [← parseLines_eq onResponseId parse (splitLines sseText) ({},[])]
  dsimp only
  split_ifs with failed
  · unfold ParsedResponseState.finalizeParsedResponse
    cases (parseLines parse onResponseId (splitLines sseText) ({},[])).1.finalResponse with
    | none => rfl
    | some response => exact (if_pos failed).symm
  · rfl

theorem encounteredError_maybeCapture {state : ParsedResponseState} (running : state.encounteredError = false) (data : Json) :
    (state.maybeCaptureResponseEvent data onResponseId).1.encounteredError = fails data := by
  rw [(outcome_maybeCaptureResponseEvent state data onResponseId).1,running,Bool.false_or]

theorem captureEvents_append {before : List Json} (fine : ∀ earlier ∈ before, fails earlier = false) (after : List Json)
    {state : ParsedResponseState} (running : state.encounteredError = false) :
    captureEvents onResponseId (before ++ after) state = captureEvents onResponseId after (captureEvents onResponseId before state) := by
  induction before generalizing state with
  | nil => rfl
  | cons data before ih =>
    have stays : (state.maybeCaptureResponseEvent data onResponseId).1.encounteredError = false :=
      (encounteredError_maybeCapture onResponseId running data).trans (fine data mem_cons_self)
    rw [cons_append,captureEvents,captureEvents,stays]
    exact ih (fun earlier member => fine earlier (mem_cons_of_mem _ member)) stays

theorem captureEvents_singleton (data : Json) (state : ParsedResponseState) :
    captureEvents onResponseId [data] state = (state.maybeCaptureResponseEvent data onResponseId).1 := by
  unfold captureEvents
  dsimp only
  split_ifs <;> rfl

end

/-! ### What the events say -/

def changeOfData : Json → Option (Place × Change)
  | .obj event => changeOf event
  | _ => none

/-- The text of a part when nothing ends it: what it was added with, then its deltas. -/
def Change.spoken (change : Change) (current : String) : String :=
  match change with
  | .delta text => current ++ text.getD ""
  | .added text => (unlessBlank text).getD ""
  | .done _ => current

def spokenAfter (place : Place) (current : String) (data : Json) : String :=
  match changeOfData data with
  | some (other,change) => if other = place then change.spoken current else current
  | none => current

def spoken (place : Place) (events : List Json) : String := events.foldl (spokenAfter place) ""

theorem spoken_concat (place : Place) (events : List Json) (data : Json) :
    spoken place (events ++ [data]) = spokenAfter place (spoken place events) data := foldl_concat _ _ _ _

/-- The types of the events that change a text. -/
def changeTypes : List String :=
  ["response.output_text.delta","response.content_part.added","response.reasoning_summary_text.delta",
    "response.reasoning_summary_part.added"] ++ doneTypes

theorem changeTypes_plain : ∀ type ∈ changeTypes, isFailure (some (.str type)) = false ∧ isTerminal (some (.str type)) = false ∧
    type ≠ "response.output_item.added" ∧ type ≠ "response.output_item.done" := by
  decide

variable {event : Record}

theorem changeOf_type {found : Place × Change} (changes : changeOf event = some found) :
    ∃ type ∈ changeTypes, event.find "type" = some (.str type) := by
  unfold changeOf at changes
  dsimp only at changes
  split_ifs at changes with delta done added partDone summaryDelta summaryDone summaryAdded summaryPartDone
  · exact ⟨_,by decide,delta⟩
  · exact ⟨_,by decide,done⟩
  · exact ⟨_,by decide,added⟩
  · exact ⟨_,by decide,partDone⟩
  · exact ⟨_,by decide,summaryDelta⟩
  · exact ⟨_,by decide,summaryDone⟩
  · exact ⟨_,by decide,summaryAdded⟩
  · exact ⟨_,by decide,summaryPartDone⟩

theorem capture_plain {type : String} (member : type ∈ changeTypes) (found : event.find "type" = some (.str type)) (kept : Kept) :
    kept.capture (.obj event) =
      match changeOf event with
      | some (place,change) => kept.change place change
      | none => kept := by
  obtain ⟨fine,continues,notAdded,notDone⟩ := changeTypes_plain type member
  have notItem : ¬(some (Json.str type) = some (.str "response.output_item.added") ∨ some (Json.str type) = some (.str "response.output_item.done")) := by
    simp [notAdded,notDone]
  unfold Kept.capture Kept.progress
  dsimp only
  rw [found,fine,continues,if_neg Bool.false_ne_true,if_neg Bool.false_ne_true,if_neg notItem]

theorem isDone_iff : isDone (.obj event) = true ↔ ∃ type ∈ doneTypes, event.find "type" = some (.str type) := by
  simp [isDone]

theorem isDone_of_changeOf {place : Place} {text : Option String} (changes : changeOf event = some (place,.done text)) :
    isDone (.obj event) = true := by
  rw [isDone_iff]
  unfold changeOf at changes
  dsimp only at changes
  split_ifs at changes with delta done added partDone summaryDelta summaryDone summaryAdded summaryPartDone
  · obtain ⟨_,-,same⟩ := Option.map_eq_some_iff.mp changes
    exact nomatch congrArg Prod.snd same
  · exact ⟨_,by decide,done⟩
  · obtain ⟨_,-,same⟩ := Option.bind_eq_some_iff.mp changes
    obtain ⟨_,-,same⟩ := Option.map_eq_some_iff.mp same
    exact nomatch congrArg Prod.snd same
  · exact ⟨_,by decide,partDone⟩
  · obtain ⟨_,-,same⟩ := Option.map_eq_some_iff.mp changes
    exact nomatch congrArg Prod.snd same
  · exact ⟨_,by decide,summaryDone⟩
  · obtain ⟨_,-,same⟩ := Option.map_eq_some_iff.mp changes
    exact nomatch congrArg Prod.snd same
  · exact ⟨_,by decide,summaryPartDone⟩

theorem done_of_isDone (ends : isDone (.obj event) = true) {place : Place} {change : Change}
    (changes : changeOf event = some (place,change)) : ∃ text, change = .done text := by
  obtain ⟨type,member,found⟩ := isDone_iff.mp ends
  unfold changeOf at changes
  rw [found] at changes
  simp only [doneTypes,mem_cons,not_mem_nil,or_false] at member
  rcases member with rfl | rfl | rfl | rfl
  all_goals
    simp only [Option.some.injEq,Json.str.injEq,reduceIte,String.reduceEq] at changes
  · obtain ⟨_,-,same⟩ := Option.map_eq_some_iff.mp changes
    exact ⟨_,(congrArg Prod.snd same).symm⟩
  · obtain ⟨_,-,same⟩ := Option.bind_eq_some_iff.mp changes
    obtain ⟨_,-,same⟩ := Option.map_eq_some_iff.mp same
    exact ⟨_,(congrArg Prod.snd same).symm⟩
  · obtain ⟨_,-,same⟩ := Option.map_eq_some_iff.mp changes
    exact ⟨_,(congrArg Prod.snd same).symm⟩
  · obtain ⟨_,-,same⟩ := Option.map_eq_some_iff.mp changes
    exact ⟨_,(congrArg Prod.snd same).symm⟩

/-! ### Redundant events -/

structure Reaches (events before : List Json) (data : Json) : Prop where
  place : ∃ after, events = before ++ data :: after
  running : ∀ earlier ∈ before, fails earlier = false

/-- Every event that ends a part carries what the part's deltas came to. -/
def Restates (events : List Json) : Prop :=
  ∀ before data place text, Reaches events before data → changeOfData data = some (place,.done text) → text = some (spoken place before)

/-- Every event that ends a part leaves the part with the text it carries. -/
def DoneExactly (onResponseId : Bool) (events : List Json) : Prop :=
  ∀ before data place text, Reaches events before data → changeOfData data = some (place,.done (some text)) →
    ((captureEvents onResponseId (before ++ [data]) {}).kept.textAt place).getD "" = text

/-- No event that ends a part carries white space alone. -/
def Unblank (events : List Json) : Prop :=
  ∀ before data place text, Reaches events before data → changeOfData data = some (place,.done (some text)) → trim text = "" → text = ""

/-- The text of each part is what was spoken of it. -/
def Speaks (kept : Kept) (events : List Json) : Prop := ∀ place, kept.textAt place = nonEmpty (spoken place events)

theorem trim_empty : trim "" = "" := by decide

theorem nonEmpty_getD (text : String) : (nonEmpty text).getD "" = text := by
  unfold nonEmpty
  split_ifs with empty
  · exact empty.symm
  · rfl

theorem unlessBlank_some (text : String) : unlessBlank (some text) = if trim text = "" then none else some text := by
  unfold unlessBlank
  rw [Option.filter_some]
  by_cases blank : trim text = "" <;> simp [blank]

theorem filter_nonEmpty (text : String) : (some text).filter (fun text => decide (text ≠ "")) = nonEmpty text := by
  unfold nonEmpty
  rw [Option.filter_some]
  by_cases empty : text = "" <;> simp [empty]

theorem ne_empty_of_trim {text : String} (printed : trim text ≠ "") : text ≠ "" := fun empty => printed (empty ▸ trim_empty)

theorem unlessBlank_eq (text : Option String) : unlessBlank text = nonEmpty ((unlessBlank text).getD "") := by
  cases text with
  | none => rfl
  | some text =>
    rw [unlessBlank_some]
    split_ifs with blank
    · rfl
    · exact (if_neg (ne_empty_of_trim blank)).symm

theorem Change.applied_nonEmpty {change : Change} (goesOn : ∀ text, change ≠ .done text) (current : String) :
    change.applied (nonEmpty current) = nonEmpty (change.spoken current) := by
  cases change with
  | delta text =>
    unfold Change.applied Change.spoken
    cases text with
    | none => simp
    | some text =>
      dsimp only
      rw [filter_nonEmpty,nonEmpty_getD,Option.getD_some]
      by_cases empty : text = ""
      · rw [empty,String.append_empty]
        rfl
      · have longer : current ++ text ≠ "" := by simp [empty]
        rw [show nonEmpty text = some text from if_neg empty]
        exact (if_neg longer).symm
  | added text => exact unlessBlank_eq text
  | done text => exact absurd rfl (goesOn text)

theorem textAt_capture_other {kept : Kept} {data : Json} (changes : changeOfData data = none) (place : Place) :
    (kept.capture data).textAt place = kept.textAt place := by
  cases data with
  | obj event =>
    have quiet : changeOf event = none := changes
    unfold Kept.capture Kept.progress
    dsimp only
    rw [quiet]
    split_ifs
    · cases place <;> rfl
    · split <;> cases place <;> rfl
    · unfold Kept.upsert
      split <;> cases place <;> rfl
    · rfl
  | _ => rfl

theorem textAt_change (kept : Kept) (place other : Place) (change : Change) :
    (kept.change place change).textAt other = if place = other then change.applied (kept.textAt other) else kept.textAt other := by
  unfold Kept.change
  rw [Kept.textAt_assign]
  split_ifs with same
  · rw [same]
  · rfl

theorem Speaks.capture {kept : Kept} {before : List Json} (speaks : Speaks kept before) {data : Json} (goesOn : isDone data = false) :
    Speaks (kept.capture data) (before ++ [data]) := by
  intro other
  rw [spoken_concat,spokenAfter]
  cases changes : changeOfData data with
  | none =>
    rw [textAt_capture_other changes]
    exact speaks other
  | some found =>
    obtain ⟨place,change⟩ := found
    cases data with
    | obj event =>
      obtain ⟨type,member,typed⟩ := changeOf_type changes
      rw [capture_plain member typed,show changeOf event = some (place,change) from changes]
      dsimp only
      rw [textAt_change,speaks other]
      split_ifs with same
      · refine Change.applied_nonEmpty (fun text ends => ?_) _
        rw [ends] at changes
        exact absurd ((isDone_of_changeOf changes).symm.trans goesOn) (by decide)
      · rfl
    | _ => cases changes

theorem Speaks.done {kept : Kept} {before : List Json} (speaks : Speaks kept before) {data : Json} (ends : isDone data = true)
    (restates : ∀ place text, changeOfData data = some (place,.done text) → text = some (spoken place before))
    (unblank : ∀ place text, changeOfData data = some (place,.done (some text)) → trim text = "" → text = "") :
    kept.capture data = kept ∧ Speaks kept (before ++ [data]) := by
  cases data with
  | obj event =>
    have quiet : Speaks kept (before ++ [.obj event]) := by
      intro other
      rw [speaks other,spoken_concat,spokenAfter]
      split
      · next place change changes =>
        obtain ⟨text,rfl⟩ := done_of_isDone ends changes
        exact (ite_self _).symm ▸ rfl
      · rfl
    refine ⟨?_,quiet⟩
    obtain ⟨type,member,typed⟩ := isDone_iff.mp ends
    rw [capture_plain (mem_append_right _ member) typed]
    split
    · next place change changes =>
      obtain ⟨text,rfl⟩ := done_of_isDone ends changes
      obtain rfl := restates place text changes
      have kept_text : Change.applied (.done (some (spoken place before))) (kept.textAt place) = kept.textAt place := by
        rw [speaks place]
        show unlessBlank (some (spoken place before)) = nonEmpty (spoken place before)
        rw [unlessBlank_some]
        split_ifs with blank
        · rw [unblank place _ changes blank]
          rfl
        · exact (if_neg (ne_empty_of_trim blank)).symm
      rw [Kept.change,kept_text,Kept.assign_textAt]
    · rfl
  | _ => cases ends

section
variable (onResponseId : Bool)

theorem captureEvents_filter {events : List Json} (restates : Restates events) (unblank : Unblank events) {before after : List Json}
    (place : events = before ++ after) (fine : ∀ earlier ∈ before, fails earlier = false) {state other : ParsedResponseState}
    (running : state.encounteredError = false) (same : state.kept = other.kept) (speaks : Speaks state.kept before) :
    (captureEvents onResponseId after state).kept = (captureEvents onResponseId (after.filter (fun data => !isDone data)) other).kept := by
  induction after generalizing before state other with
  | nil => exact same
  | cons data after ih =>
    have reaches : Reaches events before data := ⟨⟨after,place⟩,fine⟩
    have shifted : events = (before ++ [data]) ++ after := by rw [place,append_assoc]; rfl
    have captured := ParsedResponseState.kept_maybeCaptureResponseEvent state data onResponseId
    have failed := encounteredError_maybeCapture onResponseId running data
    cases ends : isDone data with
    | true =>
      obtain ⟨unchanged,onwards⟩ := speaks.done ends (fun place text => restates before data place text reaches)
        (fun place text => unblank before data place text reaches)
      rw [unchanged] at captured
      have stays : (state.maybeCaptureResponseEvent data onResponseId).1.encounteredError = false :=
        (congrArg Kept.encounteredError captured).trans running
      have further : ∀ earlier ∈ before ++ [data], fails earlier = false :=
        forall_mem_append.mpr ⟨fine,forall_mem_singleton.mpr (failed.symm.trans stays)⟩
      rw [filter_cons_of_neg (by simp [ends]),captureEvents]
      rw [stays,if_neg Bool.false_ne_true]
      exact ih shifted further stays (captured.trans same) (captured ▸ onwards)
    | false =>
      have onwards := speaks.capture ends
      have capturedOther := ParsedResponseState.kept_maybeCaptureResponseEvent other data onResponseId
      have alike : (state.maybeCaptureResponseEvent data onResponseId).1.kept = (other.maybeCaptureResponseEvent data onResponseId).1.kept := by
        rw [captured,capturedOther,same]
      have failedOther : (other.maybeCaptureResponseEvent data onResponseId).1.encounteredError = fails data :=
        (congrArg Kept.encounteredError alike).symm.trans failed
      rw [filter_cons_of_pos (by simp [ends]),captureEvents,captureEvents]
      rw [failed,failedOther]
      cases stops : fails data with
      | true => exact alike
      | false =>
        have further : ∀ earlier ∈ before ++ [data], fails earlier = false :=
          forall_mem_append.mpr ⟨fine,forall_mem_singleton.mpr stops⟩
        exact ih shifted further (failed.trans stops) alike (captured ▸ onwards)

theorem outputTexts_synthesize {events : List Json} (restates : Restates events) (unblank : Unblank events) :
    (synthesize onResponseId events).map outputTexts = (synthesize onResponseId (events.filter (fun data => !isDone data))).map outputTexts :=
  ParsedResponseState.outputTexts_finalizeParsedResponse
    (captureEvents_filter onResponseId restates unblank (nil_append events).symm (forall_mem_nil _) rfl rfl
      (fun place => by cases place <;> rfl))

theorem textAt_done {events before : List Json} {data : Json} (reaches : Reaches events before data) {place : Place} {text : String}
    (changes : changeOfData data = some (place,.done (some text))) :
    (captureEvents onResponseId (before ++ [data]) {}).kept.textAt place = if trim text = "" then none else some text := by
  rw [captureEvents_append onResponseId reaches.running [data] rfl,captureEvents_singleton,
    ParsedResponseState.kept_maybeCaptureResponseEvent]
  cases data with
  | obj event =>
    obtain ⟨type,member,typed⟩ := changeOf_type changes
    rw [capture_plain member typed,show changeOf event = some (place,.done (some text)) from changes]
    dsimp only
    rw [textAt_change,if_pos rfl]
    exact unlessBlank_some text
  | _ => cases changes

theorem doneExactly_iff (events : List Json) : DoneExactly onResponseId events ↔ Unblank events := by
  constructor
  · intro exactly before data place text reaches changes blank
    have read := exactly before data place text reaches changes
    rw [textAt_done onResponseId reaches changes,if_pos blank] at read
    exact read.symm
  · intro unblank before data place text reaches changes
    rw [textAt_done onResponseId reaches changes]
    split_ifs with blank
    · exact (unblank before data place text reaches changes blank).symm
    · rfl

/-- Two sequences that differ in the events that end parts alone: each such event leaves its part
    with its text, and the output is the same wherever they repeat the deltas, just when none
    of them carries white space alone. -/
theorem done_events_redundant_iff (events others : List Json)
    (same : others.filter (fun data => !isDone data) = events.filter (fun data => !isDone data)) :
    (DoneExactly onResponseId events ∧ DoneExactly onResponseId others ∧
        (Restates events → Restates others →
          (synthesize onResponseId others).map outputTexts = (synthesize onResponseId events).map outputTexts)) ↔
      Unblank events ∧ Unblank others := by
  rw [doneExactly_iff,doneExactly_iff]
  constructor
  · exact fun ⟨unblank,unblankOthers,_⟩ => ⟨unblank,unblankOthers⟩
  · rintro ⟨unblank,unblankOthers⟩
    refine ⟨unblank,unblankOthers,fun restates restatesOthers => ?_⟩
    rw [outputTexts_synthesize onResponseId restates unblank,outputTexts_synthesize onResponseId restatesOthers unblankOthers,same]

end

/-- A part with one delta, and the event that ends it. -/
def partStream (text : String) : List Json :=
  let event := fun (type field : String) => Json.obj [("type",.str type),("output_index",.num 0),("content_index",.num 0),(field,.str text)]
  [event "response.output_text.delta" "delta",event "response.output_text.done" "text",
    .obj [("type",.str "response.done"),("response",.obj [("id",.str "resp_1")])]]

def blankStream : List Json := partStream " "

theorem partStream_unblank {events : List Json} (sub : events ⊆ partStream "hi") : Unblank events := by
  intro before data place text reaches changes blank
  obtain ⟨after,whole⟩ := reaches.place
  have member : data ∈ partStream "hi" := sub (by simp [whole])
  have among := mem_map_of_mem (f := changeOfData) member
  rw [changes,show (partStream "hi").map changeOfData = [some (.content (0,0),.delta (some "hi")),some (.content (0,0),.done (some "hi")),none] by decide] at among
  obtain ⟨-,rfl⟩ : place = .content (0,0) ∧ text = "hi" := by simpa using among
  exact absurd blank (by decide)

/-- The event that repeats the delta of its part makes no difference. -/
theorem partStream_redundant :
    DoneExactly false (partStream "hi") ∧ DoneExactly false ((partStream "hi").filter (fun data => !isDone data)) ∧
      (Restates (partStream "hi") → Restates ((partStream "hi").filter (fun data => !isDone data)) →
        (synthesize false ((partStream "hi").filter (fun data => !isDone data))).map outputTexts = (synthesize false (partStream "hi")).map outputTexts) :=
  (done_events_redundant_iff false (partStream "hi") ((partStream "hi").filter (fun data => !isDone data)) (by rw [filter_filter]; simp)).mpr
    ⟨partStream_unblank (List.Subset.refl _),partStream_unblank filter_sublist.subset⟩

/-- The event takes the blank away that the delta brought. -/
theorem blankStream_loses_text : ¬∀ events others : List Json,
    others.filter (fun data => !isDone data) = events.filter (fun data => !isDone data) →
      DoneExactly false events ∧ DoneExactly false others ∧
        (Restates events → Restates others →
          (synthesize false others).map outputTexts = (synthesize false events).map outputTexts) := by
  intro all
  obtain ⟨exactly,-,-⟩ := all blankStream blankStream rfl
  have reaches : Reaches blankStream (blankStream.take 1) (blankStream.getD 1 .null) := by
    refine ⟨⟨blankStream.drop 2,rfl⟩,?_⟩
    decide
  have read := exactly _ _ (.content (0,0)) " " reaches (by decide)
  exact absurd read (by decide)

end CodexMultiAuth.ResponseHandler
