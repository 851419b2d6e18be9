import CodexMultiAuth.SseCapture

/-!
What the callbacks of a stream are told depends on its bytes alone, and agrees with the
parse of the whole text.
-/
namespace CodexMultiAuth.ResponseHandler
open List ParsedResponseState
open ConfigToml (Line splitLines)
open ParsedResponseState (isFailure isTerminal)
open Utf8 (decodeAll)

namespace ParsedResponseState

/-- What a state keeps apart from the phases. -/
structure Kept where
  finalResponse : Option Record
  outputItems : OrderedMap Nat Record
  outputText : OrderedMap PartKey String
  reasoningSummaryText : OrderedMap PartKey String
  encounteredError : Bool

def kept (state : ParsedResponseState) : Kept :=
  ⟨state.finalResponse,state.outputItems,state.outputText,state.reasoningSummaryText,state.encounteredError⟩

variable (state : ParsedResponseState)
variable (phase : Option Json)

@[simp] theorem kept_capturePhase : (state.capturePhase phase).kept = state.kept := by
  unfold capturePhase
  split <;> rfl

@[simp] theorem kept_rememberPhaseSegmentOrder (phase : String) (key : PartKey) :
    (state.rememberPhaseSegmentOrder phase key).kept = state.kept := by
  unfold rememberPhaseSegmentOrder
  dsimp only
  split <;> rfl

@[simp] theorem kept_removePhaseSegmentOrder (phase : String) (key : PartKey) :
    (state.removePhaseSegmentOrder phase key).kept = state.kept := by
  unfold removePhaseSegmentOrder
  split
  · rfl
  · dsimp only
    split <;> rfl

@[simp] theorem kept_rebuildPhaseText (phase : String) :
    (state.rebuildPhaseText phase).kept = state.kept := by
  unfold rebuildPhaseText
  dsimp only
  split <;> rfl

@[simp] theorem kept_setPhaseTextSegment (key : PartKey) (text : Option String) :
    (state.setPhaseTextSegment phase key text).kept = state.kept := by
  unfold setPhaseTextSegment
  split
  · rfl
  · next name _ =>
    dsimp only
    split
    · rw [kept_rebuildPhaseText,kept_removePhaseSegmentOrder]
      rfl
    · rw [kept_rebuildPhaseText]
      exact kept_rememberPhaseSegmentOrder (state.enterPhase name key) name key

@[simp] theorem kept_appendPhaseTextSegment (key : PartKey) (delta : String) :
    (state.appendPhaseTextSegment phase key delta).kept = state.kept := by
  unfold appendPhaseTextSegment
  split
  · rfl
  · next name _ =>
    have ordered := kept_rememberPhaseSegmentOrder (state.enterPhase name key) name key
    dsimp only
    split
    · exact ordered
    · rw [kept_rebuildPhaseText]
      exact ordered

def outcome (state : ParsedResponseState) : Option Record × Bool := (state.finalResponse,state.encounteredError)

theorem outcome_eq_of_kept {state other : ParsedResponseState} (same : state.kept = other.kept) : state.outcome = other.outcome :=
  congrArg (fun kept : Kept => (kept.finalResponse,kept.encounteredError)) same

@[simp] theorem outcome_capturePhase : (state.capturePhase phase).outcome = state.outcome :=
  outcome_eq_of_kept (kept_capturePhase state phase)

@[simp] theorem outcome_setPhaseTextSegment (key : PartKey) (text : Option String) :
    (state.setPhaseTextSegment phase key text).outcome = state.outcome :=
  outcome_eq_of_kept (kept_setPhaseTextSegment state phase key text)

@[simp] theorem outcome_appendPhaseTextSegment (key : PartKey) (delta : String) :
    (state.appendPhaseTextSegment phase key delta).outcome = state.outcome :=
  outcome_eq_of_kept (kept_appendPhaseTextSegment state phase key delta)

@[simp] theorem outcome_upsertOutputItem (outputIndex : Option ℚ) (item : Option Json) :
    (state.upsertOutputItem outputIndex item).outcome = state.outcome := by
  unfold upsertOutputItem
  split
  · rw [outcome_capturePhase]
    rfl
  · rfl

@[simp] theorem outcome_setOutputTextValue (outputIndex contentIndex : Option ℚ) (text : Option String)
    (phase : Option Json) : (state.setOutputTextValue outputIndex contentIndex text phase).outcome = state.outcome := by
  unfold setOutputTextValue
  split
  · rfl
  · split <;> (rw [outcome_setPhaseTextSegment]; rfl)

@[simp] theorem outcome_appendOutputTextValue (outputIndex contentIndex : Option ℚ) (delta : Option String)
    (phase : Option Json) : (state.appendOutputTextValue outputIndex contentIndex delta phase).outcome = state.outcome := by
  unfold appendOutputTextValue
  split
  · rw [outcome_appendPhaseTextSegment]
    rfl
  · rfl

@[simp] theorem outcome_setReasoningSummaryValue (outputIndex summaryIndex : Option ℚ) (text : Option String) :
    (state.setReasoningSummaryValue outputIndex summaryIndex text).outcome = state.outcome := by
  unfold setReasoningSummaryValue
  split
  · rfl
  · split <;> rfl

@[simp] theorem outcome_appendReasoningSummaryValue (outputIndex summaryIndex : Option ℚ)
    (delta : Option String) : (state.appendReasoningSummaryValue outputIndex summaryIndex delta).outcome = state.outcome := by
  unfold appendReasoningSummaryValue
  split <;> rfl

theorem outcome_captureProgress (event : Record) : (state.captureProgress event).outcome = state.outcome := by
  unfold captureProgress
  dsimp only
  repeat' split
  all_goals simp

theorem outcome_notifyResponseId (onResponseId : Bool) (response : Option Json) :
    (state.notifyResponseId onResponseId response).1.outcome = state.outcome := by
  unfold notifyResponseId
  split
  · rfl
  · split <;> rfl

end ParsedResponseState

def fails : Json → Bool
  | .obj event => isFailure (OrderedMap.find event "type")
  | _ => false

def brings : Json → Option Record
  | .obj event => if isTerminal (OrderedMap.find event "type") then Record.record event "response" else none
  | _ => none

theorem outcome_maybeCaptureResponseEvent (state : ParsedResponseState) (data : Json) (onResponseId : Bool) :
    (state.maybeCaptureResponseEvent data onResponseId).1.encounteredError = (state.encounteredError || fails data) ∧
      (fails data = false → (state.maybeCaptureResponseEvent data onResponseId).1.finalResponse = (brings data <|> state.finalResponse)) := by
  cases data with
  | obj event =>
    simp only [maybeCaptureResponseEvent,fails,brings]
    cases failed : isFailure (OrderedMap.find event "type") with
    | true => simp
    | false =>
      simp only [Bool.false_eq_true,if_false,Bool.or_false,forall_const]
      cases ends : isTerminal (OrderedMap.find event "type") with
      | true =>
        simp only [if_true]
        have kept := fun state => outcome_notifyResponseId state onResponseId (OrderedMap.find event "response")
        refine ⟨(congrArg Prod.snd (kept _)).trans ?_,(congrArg Prod.fst (kept _)).trans ?_⟩
        · cases Record.record event "response" <;> rfl
        · cases Record.record event "response" <;> rfl
      | false =>
        simp only [Bool.false_eq_true,if_false]
        have kept := outcome_captureProgress state event
        exact ⟨congrArg Prod.snd kept,congrArg Prod.fst kept⟩
  | null => simp [maybeCaptureResponseEvent,fails,brings]
  | bool value => simp [maybeCaptureResponseEvent,fails,brings]
  | num value => simp [maybeCaptureResponseEvent,fails,brings]
  | str value => simp [maybeCaptureResponseEvent,fails,brings]
  | arr items => simp [maybeCaptureResponseEvent,fails,brings]

/-- The fields that finalizing a response may set. -/
def finalizedKeys : List String :=
  ["output","output_text","reasoning_summary_text","phase","commentary_text","final_answer_text","phase_text"]

section
variable {key : String}

theorem find_putText (response : Record) {other : String} (apart : other ≠ key) (text : Option String) :
    (putText response other text).find key = response.find key := by
  unfold putText
  split
  · rw [OrderedMap.find_put,if_neg apart]
  · rfl

theorem find_putPhases (response : Record) (phases : OrderedMap String String) (commentary : "commentary_text" ≠ key)
    (answer : "final_answer_text" ≠ key) (texts : "phase_text" ≠ key) :
    (putPhases response phases).find key = response.find key := by
  unfold putPhases
  split
  · rfl
  · rw [OrderedMap.find_put,if_neg texts]
    generalize phases = entries
    induction entries generalizing response with
    | nil => rfl
    | cons entry entries ih =>
      rw [foldl_cons,ih]
      split
      · rw [OrderedMap.find_put,if_neg commentary]
      · split
        · rw [OrderedMap.find_put,if_neg answer]
        · rfl

theorem find_finalizeParsedResponse {state : ParsedResponseState} {brought final : Record} (kept : state.finalResponse = some brought)
    (finalized : state.finalizeParsedResponse = some final) (other : key ∉ finalizedKeys) : final.find key = brought.find key := by
  simp only [finalizedKeys,mem_cons,not_mem_nil,or_false,not_or] at other
  obtain ⟨output,text,summary,phase,commentary,answer,texts⟩ := other
  unfold finalizeParsedResponse at finalized
  rw [kept] at finalized
  dsimp only at finalized
  split at finalized
  · cases finalized
  · obtain rfl := Option.some.inj finalized
    rw [find_putPhases _ _ (Ne.symm commentary) (Ne.symm answer) (Ne.symm texts),find_putText _ (Ne.symm phase),
      find_putText _ (Ne.symm summary),find_putText _ (Ne.symm text)]
    have put_output : ∀ (response : Record) (value : Json), (response.put "output" value).find key = response.find key := by
      intro response value
      rw [OrderedMap.find_put,if_neg (Ne.symm output)]
    have merged : (mergeOutputItemsIntoResponse brought state).find key = brought.find key := by
      unfold mergeOutputItemsIntoResponse
      split
      · rfl
      · exact put_output _ _
    have applied : ∀ (response : Record), (applyAccumulatedOutputText response state).1.find key = response.find key := by
      intro response
      unfold applyAccumulatedOutputText
      split
      · rfl
      · dsimp only
        split
        · rfl
        · exact put_output _ _
    refine Eq.trans ?_ ((applied _).trans merged)
    unfold applyReasoningSummaries
    split
    · rfl
    · dsimp only
      split
      · rfl
      · exact put_output _ _

end

def responseIdsOf (reports : List Report) : List String :=
  reports.filterMap (fun | .responseId id => some id | .usage _ => none)

def usagesOf (reports : List Report) : List UsageTokenCounts :=
  reports.filterMap (fun | .responseId _ => none | .usage usage => some usage)

section
variable [Host] (parse : List Char → Option Json) (callbacks : Callbacks)

theorem responseIdsOf_observe (observed : Observed) (data : Json) (given : callbacks.onResponseId = true) :
    responseIdsOf (observe callbacks observed data).reports =
      responseIdsOf observed.reports ++ (observed.state.maybeCaptureResponseEvent data true).2 := by
  have usages : ∀ counts : List UsageTokenCounts, responseIdsOf (counts.map Report.usage) = [] := by
    intro counts
    simp [responseIdsOf,filterMap_map]
  have ids : ∀ ids : List String, responseIdsOf (ids.map Report.responseId) = ids := by
    intro ids
    simp [responseIdsOf,filterMap_map]
  simp only [observe,given,if_true]
  unfold responseIdsOf at usages ids ⊢
  rw [filterMap_append,filterMap_append,usages,ids,append_nil]

theorem usagesOf_observe (observed : Observed) (data : Json) (given : callbacks.onUsage = true) :
    usagesOf (observe callbacks observed data).reports = usagesOf observed.reports ++ (extractResponsesUsage data).toList := by
  have usages : ∀ counts : List UsageTokenCounts, usagesOf (counts.map Report.usage) = counts := by
    intro counts
    simp [usagesOf,filterMap_map]
  have ids : ∀ ids : List String, usagesOf (ids.map Report.responseId) = [] := by
    intro ids
    simp [usagesOf,filterMap_map]
  simp only [observe,given,if_true]
  unfold usagesOf at usages ids ⊢
  rw [filterMap_append,filterMap_append,usages,ids,append_nil]

/-- With both at the same state, the stream and the parse of the whole text go on alike. -/
theorem processLines_parse (given : callbacks.onResponseId = true) (lines : List Line) (observed : Observed) :
    ((processLines parse callbacks lines observed).state,responseIdsOf (processLines parse callbacks lines observed).reports) =
      parseLines parse true lines (observed.state,responseIdsOf observed.reports) := by
  induction lines generalizing observed with
  | nil => rfl
  | cons line lines ih =>
    cases found : dataOf parse line with
    | none =>
      simp only [processLines,parseLines,found]
      exact ih observed
    | some data =>
      have state : (observe callbacks observed data).state = (observed.state.maybeCaptureResponseEvent data true).1 := by
        simp only [observe,given,if_true]
      simp only [processLines,parseLines,found]
      rw [← state,← responseIdsOf_observe callbacks observed data given]
      split
      · rfl
      · exact ih _

theorem encounteredError_observe (observed : Observed) {data : Json} (running : observed.state.encounteredError = false)
    (fine : fails data = false) : (observe callbacks observed data).state.encounteredError = false := by
  simp only [observe]
  split
  · rw [(outcome_maybeCaptureResponseEvent observed.state data true).1,running,fine]
    rfl
  · exact running

theorem processLines_eq_foldl (lines : List Line) {observed : Observed} (running : observed.state.encounteredError = false)
    (fine : ∀ data ∈ lines.filterMap (dataOf parse), fails data = false) :
    processLines parse callbacks lines observed = (lines.filterMap (dataOf parse)).foldl (observe callbacks) observed := by
  induction lines generalizing observed with
  | nil => rfl
  | cons line lines ih =>
    cases found : dataOf parse line with
    | none =>
      simp only [filterMap_cons,found] at fine ⊢
      simp only [processLines,found]
      exact ih running fine
    | some data =>
      simp only [filterMap_cons,found,forall_mem_cons] at fine ⊢
      have next := encounteredError_observe callbacks observed running fine.1
      simp only [processLines,found,next,Bool.false_eq_true,if_false,foldl_cons]
      exact ih next fine.2

theorem usagesOf_foldl (given : callbacks.onUsage = true) (events : List Json) (observed : Observed) :
    usagesOf (events.foldl (observe callbacks) observed).reports =
      usagesOf observed.reports ++ events.filterMap extractResponsesUsage := by
  induction events generalizing observed with
  | nil => simp
  | cons data events ih =>
    rw [foldl_cons,ih,usagesOf_observe callbacks observed data given,filterMap_cons,append_assoc]
    cases extractResponsesUsage data <;> rfl

theorem outcome_foldl (given : callbacks.onResponseId = true) (events : List Json) (observed : Observed)
    (running : observed.state.encounteredError = false) (fine : ∀ data ∈ events, fails data = false) :
    (events.foldl (observe callbacks) observed).state.outcome =
      (((events.filterMap brings).getLast? <|> observed.state.finalResponse),false) := by
  induction events generalizing observed with
  | nil => simp [outcome,running]
  | cons data events ih =>
    rw [forall_mem_cons] at fine
    have next := encounteredError_observe callbacks observed running fine.1
    rw [foldl_cons,ih (observe callbacks observed data) next fine.2]
    have kept : (observe callbacks observed data).state.finalResponse = (brings data <|> observed.state.finalResponse) := by
      simp only [observe,given,if_true]
      exact (outcome_maybeCaptureResponseEvent observed.state data true).2 fine.1
    rw [kept,filterMap_cons]
    cases brings data with
    | none => rfl
    | some response =>
      rw [List.getLast?_cons]
      cases (events.filterMap brings).getLast? <;> rfl

/-- An event that ends a response and counts its tokens in the response alone. -/
structure Closes (event response : Record) : Prop where
  brings : brings (.obj event) = some response
  /-- The event has no counts and no tier beside those of the response. -/
  usage : extractUsageTokenCounts (event.find "usage") = none
  tier : given (event.find "service_tier") = none
  counts : (extractUsageTokenCounts (response.find "usage")).isSome
  nested : response.record "response" = none

theorem Closes.extractResponsesUsage_eq {event response final : Record} (closes : Closes event response)
    (kept : ∀ key, key ∉ finalizedKeys → final.find key = response.find key) :
    extractResponsesUsage (.obj event) = extractResponsesUsage (.obj final) ∧ (extractResponsesUsage (.obj final)).isSome := by
  obtain ⟨counts,found⟩ := Option.isSome_iff_exists.mp closes.counts
  have response_record : Record.record event "response" = some response := by
    have brought := closes.brings
    simp only [ResponseHandler.brings] at brought
    split at brought
    · exact brought
    · cases brought
  have usage : final.find "usage" = response.find "usage" := kept "usage" (by decide)
  have tier : final.find "service_tier" = response.find "service_tier" := kept "service_tier" (by decide)
  have nested : Record.record final "response" = none := by
    unfold Record.record
    rw [kept "response" (by decide)]
    exact closes.nested
  have tiers : extractServiceTier event = extractServiceTier final := by
    have texts : ((none : Option Json) <|> (some response).bind (fun response => response.find "service_tier")).bind Json.asText =
        (given (response.find "service_tier") <|> (none : Option Record).bind (fun response => response.find "service_tier")).bind Json.asText := by
      cases stored : response.find "service_tier" with
      | none => simp [stored,given]
      | some raw => cases raw <;> simp [stored,given,Option.filter,Json.asText]
    unfold extractServiceTier
    rw [closes.tier,response_record,nested,tier]
    dsimp only
    rw [texts]
  simp only [extractResponsesUsage,closes.usage,response_record,found,usage,Option.map_some,tiers,Option.isSome_some,and_self]

/-- A stream that was cut into chunks anyhow passes its bytes on and reports what
    it reports of any other cut. What it reports of ids and of the end is what the
    parse of the whole text finds; its token counts are those of the events up to
    a failure, and where an event closes the response and none after it reports
    counts, the last of them are those of the final response. -/
theorem sse_capture_agrees (chunks cut : List (List UInt8)) (same : cut.flatten = chunks.flatten) :
    (createResponseIdCapturingStream parse callbacks chunks).enqueued.flatten = chunks.flatten ∧
    (createResponseIdCapturingStream parse callbacks cut).enqueued.flatten = chunks.flatten ∧
    (createResponseIdCapturingStream parse callbacks cut).observed = (createResponseIdCapturingStream parse callbacks chunks).observed ∧
    (callbacks.onResponseId = true →
      let stream := (createResponseIdCapturingStream parse callbacks chunks).observed
      let whole := parseSseStream parse (decodeAll chunks.flatten) true
      responseIdsOf stream.reports = whole.responseIds ∧ stream.state.encounteredError = whole.encounteredError ∧
        stream.state.finalizeParsedResponse = whole.finalResponse ∧
        (callbacks.onUsage = true → ∀ before event after response, Closes event response →
          eventsOf parse (decodeAll chunks.flatten) = before ++ .obj event :: after →
          (∀ data ∈ before, fails data = false) → (∀ data ∈ after, fails data = false ∧ brings data = none ∧ extractResponsesUsage data = none) →
          ∃ final counts, whole.finalResponse = some final ∧ extractResponsesUsage (.obj final) = some counts ∧
            (usagesOf stream.reports).getLast? = some counts)) := by
  obtain ⟨passed,observed⟩ := createResponseIdCapturingStream_spec parse callbacks chunks
  obtain ⟨cut_passed,cut_observed⟩ := createResponseIdCapturingStream_spec parse callbacks cut
  refine ⟨by rw [passed],by rw [cut_passed,same],by rw [cut_observed,observed,same],?_⟩
  intro given
  dsimp only
  have parsed := processLines_parse parse callbacks given (splitLines (decodeAll chunks.flatten)) {}
  rw [← observed] at parsed
  have state : (createResponseIdCapturingStream parse callbacks chunks).observed.state =
      (parseLines parse true (splitLines (decodeAll chunks.flatten)) ({},[])).1 := congrArg Prod.fst parsed
  have ids : responseIdsOf (createResponseIdCapturingStream parse callbacks chunks).observed.reports =
      (parseLines parse true (splitLines (decodeAll chunks.flatten)) ({},[])).2 := congrArg Prod.snd parsed
  have final : (parseSseStream parse (decodeAll chunks.flatten) true).finalResponse =
      (createResponseIdCapturingStream parse callbacks chunks).observed.state.finalizeParsedResponse := by
    rw [state]
    unfold parseSseStream
    dsimp only
    split
    · next failed =>
      unfold finalizeParsedResponse
      rw [failed]
      split <;> rfl
    · rfl
  refine ⟨?_,?_,final.symm,?_⟩
  · rw [ids]
    unfold parseSseStream
    dsimp only
    split <;> rfl
  · rw [state]
    unfold parseSseStream
    dsimp only
    split
    · next failed => exact failed
    · rfl
  · intro counted before event after response closes events fine quiet
    have no_failure : ∀ data ∈ before ++ .obj event :: after, fails data = false := by
      intro data member
      rcases mem_append.mp member with earlier | later
      · exact fine data earlier
      · rcases mem_cons.mp later with rfl | later
        · have brought := closes.brings
          simp only [brings,fails] at brought ⊢
          split at brought
          · next ends =>
            simp only [isTerminal,isFailure,Bool.or_eq_true,decide_eq_true_eq] at ends ⊢
            rcases ends with (done | completed) | incomplete
            · simp [done]
            · simp [completed]
            · simp [incomplete]
          · cases brought
        · exact (quiet data later).1
    have folded := processLines_eq_foldl parse callbacks (splitLines (decodeAll chunks.flatten)) (show ({} : Observed).state.encounteredError = false from rfl) (by
      change ∀ data ∈ eventsOf parse (decodeAll chunks.flatten),_
      rw [events]
      exact no_failure)
    rw [← observed] at folded
    change _ = (eventsOf parse (decodeAll chunks.flatten)).foldl _ _ at folded
    rw [events] at folded
    have quiet_usage : after.filterMap extractResponsesUsage = [] := filterMap_eq_nil_iff.mpr (fun data member => (quiet data member).2.2)
    have quiet_response : after.filterMap brings = [] := filterMap_eq_nil_iff.mpr (fun data member => (quiet data member).2.1)
    have outcome := outcome_foldl callbacks given (before ++ .obj event :: after) {} rfl no_failure
    rw [← folded,filterMap_append,filterMap_cons,closes.brings,quiet_response,List.getLast?_concat] at outcome
    have brought : (createResponseIdCapturingStream parse callbacks chunks).observed.state.finalResponse = some response :=
      congrArg Prod.fst outcome
    have running : (createResponseIdCapturingStream parse callbacks chunks).observed.state.encounteredError = false :=
      congrArg Prod.snd outcome
    obtain ⟨finalized,is_final⟩ : ∃ finalized,
        (createResponseIdCapturingStream parse callbacks chunks).observed.state.finalizeParsedResponse = some finalized := by
      unfold finalizeParsedResponse
      rw [brought,running]
      exact ⟨_,rfl⟩
    have kept : ∀ key, key ∉ finalizedKeys → finalized.find key = response.find key :=
      fun key other => find_finalizeParsedResponse brought is_final other
    obtain ⟨alike,counts⟩ := closes.extractResponsesUsage_eq kept
    obtain ⟨counts,found⟩ := Option.isSome_iff_exists.mp counts
    refine ⟨finalized,counts,final.trans is_final,found,?_⟩
    rw [folded,usagesOf_foldl callbacks counted,filterMap_append,filterMap_cons,alike,found,quiet_usage]
    simp [usagesOf]

end

section
attribute [local instance] asciiHost

def asciiBytes (text : String) : List UInt8 := text.toList.map (fun c => UInt8.ofNat c.toNat)

/-- An event with the counts of its response. -/
def countedEvent (type : String) : Record :=
  [("type",.str type),("response",.obj [("id",.str "r"),("usage",.obj [("input_tokens",.num 5)])])]

/-- `JSON.parse` on the text of such an event. -/
def parseEvent (type text : String) (payload : List Char) : Option Json :=
  if payload = text.toList then some (.obj (countedEvent type)) else none

def completedText : String :=
  "\x7b\"type\":\"response.completed\",\"response\":\x7b\"id\":\"r\",\"usage\":\x7b\"input_tokens\":5\x7d\x7d\x7d"

def failedText : String :=
  "\x7b\"type\":\"response.failed\",\"response\":\x7b\"id\":\"r\",\"usage\":\x7b\"input_tokens\":5\x7d\x7d\x7d"

/-- A response that is cut inside its line end reports its id and its counts. -/
theorem completed_stream_agrees :
    let whole := [asciiBytes "data: ",asciiBytes completedText,[13,10]]
    let cut := [asciiBytes "data: " ++ asciiBytes completedText ++ [13],[10]]
    let stream := createResponseIdCapturingStream (parseEvent "response.completed" completedText) ⟨true,true⟩ cut
    stream.observed = (createResponseIdCapturingStream (parseEvent "response.completed" completedText) ⟨true,true⟩ whole).observed ∧
      ∃ final counts, (parseSseStream (parseEvent "response.completed" completedText) (decodeAll cut.flatten) true).finalResponse = some final ∧
        extractResponsesUsage (.obj final) = some counts ∧ (usagesOf stream.observed.reports).getLast? = some counts := by
  have closes : Closes (countedEvent "response.completed") [("id",.str "r"),("usage",.obj [("input_tokens",.num 5)])] :=
    ⟨by decide,by decide,by decide,by decide,by decide⟩
  obtain ⟨_,_,same,_⟩ := sse_capture_agrees (parseEvent "response.completed" completedText) ⟨true,true⟩
    [asciiBytes "data: ",asciiBytes completedText,[13,10]] [asciiBytes "data: " ++ asciiBytes completedText ++ [13],[10]] (by decide)
  obtain ⟨_,_,_,agrees⟩ := sse_capture_agrees (parseEvent "response.completed" completedText) ⟨true,true⟩
    [asciiBytes "data: " ++ asciiBytes completedText ++ [13],[10]] [asciiBytes "data: " ++ asciiBytes completedText ++ [13],[10]] rfl
  exact ⟨same,(agrees rfl).2.2.2 rfl [] _ [] _ closes (by decide) (by simp) (by simp)⟩

/-- The counts of a response are beside it. -/
def besideText : String :=
  "\x7b\"type\":\"response.completed\",\"response\":\x7b\"id\":\"r\"\x7d,\"usage\":\x7b\"input_tokens\":5\x7d\x7d"

def parseBeside (payload : List Char) : Option Json :=
  if payload = besideText.toList then
    some (.obj [("type",.str "response.completed"),("response",.obj [("id",.str "r")]),("usage",.obj [("input_tokens",.num 5)])])
  else none

/-- The last counts that the stream reports are those of the parsed response. -/
def UsageAgrees (parse : List Char → Option Json) (text : String) : Prop :=
  (usagesOf (createResponseIdCapturingStream parse ⟨true,true⟩ [asciiBytes text]).observed.reports).getLast? =
    (parseSseStream parse (decodeAll (asciiBytes text)) true).finalResponse.bind (fun final => extractResponsesUsage (.obj final))

instance (parse : List Char → Option Json) (text : String) : Decidable (UsageAgrees parse text) := inferInstanceAs (Decidable (_ = _))

/-- The counts of a response that failed are reported, and so are those beside a response; the
    parse has no response to read them from, or one without them. -/
theorem failed_stream_counts : ¬ UsageAgrees (parseEvent "response.failed" failedText) ("data: " ++ failedText) ∧
    ¬ UsageAgrees parseBeside ("data: " ++ besideText) := by
  constructor <;> decide +kernel

end
end CodexMultiAuth.ResponseHandler
