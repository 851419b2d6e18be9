import CodexMultiAuth.ResponseEvents
import CodexMultiAuth.ConfigLines
import CodexMultiAuth.Utf8Stream

/-!
A stream of server-sent events that is passed on while its lines are read. The
text that has no line end yet is carried over from chunk to chunk, so the lines
that are read are those of the whole text, wherever the chunks were cut.
-/
namespace CodexMultiAuth.ResponseHandler
open List
open ConfigToml (Line splitLines trimText splitLines_ne_nil)
open Utf8 (TextDecoder decodeAll)

theorem splitLines_eq_singleton {text line : List Char} (split : splitLines text = [line]) : line = text := by
  induction text generalizing line with
  | nil =>
    rw [splitLines] at split
    exact (singleton_inj.mp split).symm
  | cons c rest ih =>
    rw [splitLines] at split
    split_ifs at split with feed ends
    · exact absurd (List.cons.inj split).2 (splitLines_ne_nil rest)
    · obtain ⟨-,head⟩ := ends
      cases rest with
      | nil => cases head
      | cons d more =>
        obtain rfl : d = '\n' := Option.some.inj head
        rw [splitLines,if_pos rfl] at split
        exact absurd (List.cons.inj split).2 (splitLines_ne_nil more)
    · cases found : splitLines rest with
      | nil => exact absurd found (splitLines_ne_nil rest)
      | cons first lines =>
        rw [found] at split
        obtain ⟨rfl,rfl⟩ := List.cons.inj split
        rw [ih found]

variable (first second : List Char)

theorem splitLines_append :
    splitLines (first ++ second) =
      (splitLines first).dropLast ++ splitLines ((splitLines first).getLast (splitLines_ne_nil first) ++ second) := by
  induction first with
  | nil => simp [splitLines]
  | cons c rest ih =>
    have rest_lines := splitLines_ne_nil rest
    by_cases feed : c = '\n'
    · subst feed
      have split : splitLines ('\n' :: rest) = [] :: splitLines rest := by rw [splitLines,if_pos rfl]
      simp only [split,dropLast_cons_of_ne_nil rest_lines,getLast_cons rest_lines]
      rw [cons_append,splitLines,if_pos rfl,ih,cons_append]
    · by_cases ends : c = '\r' ∧ rest.head? = some '\n'
      · have split : splitLines (c :: rest) = splitLines rest := by rw [splitLines,if_neg feed,if_pos ends]
        have still : c = '\r' ∧ (rest ++ second).head? = some '\n' := ⟨ends.1,by rw [List.head?_append,ends.2]; rfl⟩
        simp only [split]
        rw [cons_append,splitLines,if_neg feed,if_pos still,ih]
      · cases found : splitLines rest with
        | nil => exact absurd found rest_lines
        | cons line lines =>
          have split : splitLines (c :: rest) = (c :: line) :: lines := ConfigToml.splitLines_cons feed ends found
          cases lines with
          | nil =>
            have whole := splitLines_eq_singleton split
            simp only [split,dropLast_singleton,getLast_singleton,nil_append]
            rw [whole]
          | cons next more =>
            have some_rest : rest ≠ [] := by
              rintro rfl
              simp [splitLines] at found
            have still : ¬ (c = '\r' ∧ (rest ++ second).head? = some '\n') := by
              rw [List.head?_append_of_ne_nil _ some_rest]
              exact ends
            simp only [found,dropLast_cons_cons,getLast_cons_cons,cons_append] at ih
            simp only [split,dropLast_cons_cons,getLast_cons_cons,cons_append]
            exact ConfigToml.splitLines_cons feed still ih

theorem dropLast_splitLines_append :
    (splitLines (first ++ second)).dropLast =
      (splitLines first).dropLast ++ (splitLines ((splitLines first).getLast (splitLines_ne_nil first) ++ second)).dropLast := by
  rw [splitLines_append,dropLast_append_of_ne_nil (splitLines_ne_nil _)]

theorem getLast_splitLines_append :
    (splitLines (first ++ second)).getLast (splitLines_ne_nil _) =
      (splitLines ((splitLines first).getLast (splitLines_ne_nil first) ++ second)).getLast (splitLines_ne_nil _) := by
  simp only [splitLines_append first second]
  exact getLast_append_of_ne_nil _ (splitLines_ne_nil _)

theorem getLast_splitLines_congr {first second : List Char} (same : first = second) :
    (splitLines first).getLast (splitLines_ne_nil first) = (splitLines second).getLast (splitLines_ne_nil second) := by
  subst same
  rfl

/-- What follows `data:` in a line, unless it is blank or the end mark. -/
def payloadOf (rawLine : Line) : Option (List Char) :=
  let trimmedLine := trimText rawLine
  if "data:".toList <+: trimmedLine then
    let payload := trimText (trimmedLine.drop 5)
    if payload = [] ∨ payload = "[DONE]".toList then none else some payload
  else none

/-- What a stream reports to its callbacks. -/
inductive Report where
  | responseId (responseId : String)
  | usage (usage : UsageTokenCounts)

/-- Which callbacks are given. -/
structure Callbacks where
  onResponseId : Bool
  onUsage : Bool

/-- The state of the events so far and what was reported of them. -/
structure Observed where
  state : ParsedResponseState := {}
  reports : List Report := []

section
variable [Host]
/- `JSON.parse`, with no value where it throws. -/
variable (parse : List Char → Option Json)

def dataOf (rawLine : Line) : Option Json := (payloadOf rawLine).bind parse

def eventsOf (text : List Char) : List Json := (splitLines text).filterMap (dataOf parse)

/-- The result of a parse, with the response ids it reported. -/
structure ParsedStream where
  finalResponse : Option Record
  encounteredError : Bool
  responseIds : List String

/-- Reads lines until an event fails. -/
def parseLines (onResponseId : Bool) : List Line → ParsedResponseState × List String → ParsedResponseState × List String
  | [],parsed => parsed
  | line :: lines,parsed =>
    match dataOf parse line with
    | none => parseLines onResponseId lines parsed
    | some data =>
      let captured := parsed.1.maybeCaptureResponseEvent data onResponseId
      let next := (captured.1,parsed.2 ++ captured.2)
      if captured.1.encounteredError then next else parseLines onResponseId lines next

def parseSseStream (sseText : List Char) (onResponseId : Bool) : ParsedStream :=
  let parsed := parseLines parse onResponseId (splitLines sseText) ({},[])
  if parsed.1.encounteredError then ⟨none,true,parsed.2⟩
  else ⟨parsed.1.finalizeParsedResponse,parsed.1.encounteredError,parsed.2⟩

variable (callbacks : Callbacks)

def observe (observed : Observed) (data : Json) : Observed :=
  let captured :=
    if callbacks.onResponseId then observed.state.maybeCaptureResponseEvent data true else (observed.state,[])
  let usage := if callbacks.onUsage then (extractResponsesUsage data).toList else []
  ⟨captured.1,observed.reports ++ captured.2.map Report.responseId ++ usage.map Report.usage⟩

def processLines : List Line → Observed → Observed
  | [],observed => observed
  | line :: lines,observed =>
    match dataOf parse line with
    | none => processLines lines observed
    | some data =>
      let next := observe callbacks observed data
      if next.state.encounteredError then next else processLines lines next

structure CapturingStream where
  decoder : TextDecoder := {}
  bufferedText : List Char := []
  observed : Observed := {}
  /-- The chunks that were passed on. -/
  enqueued : List (List UInt8) := []

def processBufferedLines (stream : CapturingStream) (flush : Bool) : CapturingStream :=
  if stream.observed.state.encounteredError then stream
  else
    let lines := splitLines stream.bufferedText
    if flush then { stream with bufferedText := [],observed := processLines parse callbacks lines stream.observed }
    else
      { stream with
        bufferedText := lines.getLastD []
        observed := processLines parse callbacks lines.dropLast stream.observed }

def transform (stream : CapturingStream) (chunk : List UInt8) : CapturingStream :=
  let decoded := stream.decoder.decode chunk
  let next := processBufferedLines parse callbacks
    { stream with decoder := decoded.1,bufferedText := stream.bufferedText ++ decoded.2 } false
  { next with enqueued := next.enqueued ++ [chunk] }

def flush (stream : CapturingStream) : CapturingStream :=
  processBufferedLines parse callbacks { stream with bufferedText := stream.bufferedText ++ stream.decoder.finish } true

def createResponseIdCapturingStream (chunks : List (List UInt8)) : CapturingStream :=
  flush parse callbacks (chunks.foldl (transform parse callbacks) {})

theorem processLines_append (first second : List Line) {observed : Observed} (running : observed.state.encounteredError = false) :
    processLines parse callbacks (first ++ second) observed =
      if (processLines parse callbacks first observed).state.encounteredError then processLines parse callbacks first observed
      else processLines parse callbacks second (processLines parse callbacks first observed) := by
  induction first generalizing observed with
  | nil => simp [processLines,running]
  | cons line lines ih =>
    rw [cons_append]
    cases found : dataOf parse line with
    | none =>
      simp only [processLines,found]
      exact ih running
    | some data =>
      simp only [processLines,found]
      cases failed : (observe callbacks observed data).state.encounteredError with
      | true => simp only [if_true,failed]
      | false =>
        simp only [Bool.false_eq_true,if_false]
        exact ih failed

/-- What a stream is after some bytes, however they came. -/
structure After (stream : CapturingStream) (chunks : List (List UInt8)) : Prop where
  decoder : stream.decoder = (({} : TextDecoder).decode chunks.flatten).1
  observed : stream.observed =
    processLines parse callbacks (splitLines (({} : TextDecoder).decode chunks.flatten).2).dropLast {}
  buffered : stream.observed.state.encounteredError = false →
    stream.bufferedText = (splitLines (({} : TextDecoder).decode chunks.flatten).2).getLast (splitLines_ne_nil _)
  enqueued : stream.enqueued = chunks

theorem After.start : After parse callbacks {} [] := ⟨rfl,rfl,fun _ => rfl,rfl⟩

theorem After.transform {stream : CapturingStream} {chunks : List (List UInt8)} (after : After parse callbacks stream chunks)
    (chunk : List UInt8) : After parse callbacks (transform parse callbacks stream chunk) (chunks ++ [chunk]) := by
  have bytes : (chunks ++ [chunk]).flatten = chunks.flatten ++ chunk := by simp
  have decoded := TextDecoder.decode_append {} chunks.flatten chunk
  rw [← after.decoder] at decoded
  have text : (({} : TextDecoder).decode (chunks ++ [chunk]).flatten).2 =
      (({} : TextDecoder).decode chunks.flatten).2 ++ (stream.decoder.decode chunk).2 := by rw [bytes,decoded]
  have whole := processLines_append parse callbacks (splitLines (({} : TextDecoder).decode chunks.flatten).2).dropLast
    (splitLines ((splitLines (({} : TextDecoder).decode chunks.flatten).2).getLast (splitLines_ne_nil _) ++
      (stream.decoder.decode chunk).2)).dropLast (show ({} : Observed).state.encounteredError = false from rfl)
  rw [← dropLast_splitLines_append,← after.observed] at whole
  unfold ResponseHandler.transform processBufferedLines
  dsimp only
  cases failed : stream.observed.state.encounteredError with
  | true =>
    refine ⟨by rw [bytes,decoded]; simp,?_,?_,by simp [after.enqueued]⟩
    · rw [text,whole,failed]
      simp
    · intro running
      simp [failed] at running
  | false =>
    refine ⟨by rw [bytes,decoded]; simp,?_,?_,by simp [after.enqueued]⟩
    · rw [text,whole,failed]
      simp [after.buffered failed]
    · intro _
      refine Eq.trans ?_ ((getLast_splitLines_congr text).trans (getLast_splitLines_append _ _)).symm
      simp only [Bool.false_eq_true,if_false,getLastD_eq_getLast?,List.getLast?_eq_some_getLast (splitLines_ne_nil _),Option.getD_some]
      exact getLast_splitLines_congr (by rw [after.buffered failed])

theorem After.all (chunks : List (List UInt8)) : After parse callbacks (chunks.foldl (ResponseHandler.transform parse callbacks) {}) chunks := by
  induction chunks using List.reverseRecOn with
  | nil => exact After.start parse callbacks
  | append_singleton chunks chunk ih =>
    rw [foldl_append]
    exact ih.transform parse callbacks chunk

theorem createResponseIdCapturingStream_spec (chunks : List (List UInt8)) :
    (createResponseIdCapturingStream parse callbacks chunks).enqueued = chunks ∧
      (createResponseIdCapturingStream parse callbacks chunks).observed =
        processLines parse callbacks (splitLines (decodeAll chunks.flatten)) {} := by
  have after := After.all parse callbacks chunks
  have text : decodeAll chunks.flatten = (({} : TextDecoder).decode chunks.flatten).2 ++
      (chunks.foldl (ResponseHandler.transform parse callbacks) {}).decoder.finish := by
    rw [after.decoder]
    rfl
  have whole := processLines_append parse callbacks (splitLines (({} : TextDecoder).decode chunks.flatten).2).dropLast
    (splitLines ((splitLines (({} : TextDecoder).decode chunks.flatten).2).getLast (splitLines_ne_nil _) ++
      (chunks.foldl (ResponseHandler.transform parse callbacks) {}).decoder.finish)) (show ({} : Observed).state.encounteredError = false from rfl)
  rw [← splitLines_append,← text,← after.observed] at whole
  unfold createResponseIdCapturingStream flush processBufferedLines
  dsimp only
  cases failed : (chunks.foldl (ResponseHandler.transform parse callbacks) {}).observed.state.encounteredError with
  | true =>
    rw [whole,failed]
    simp [after.enqueued]
  | false =>
    rw [whole,failed]
    simp [after.enqueued,after.buffered failed]

end
end CodexMultiAuth.ResponseHandler
