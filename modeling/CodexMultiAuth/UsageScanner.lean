import CodexMultiAuth.ResponseEvents
import CodexMultiAuth.ConfigLines
import CodexMultiAuth.RoutePolicy
import CodexMultiAuth.Utf8Stream

/-!
The scanner that reads the token counts off a response while it is passed on.
It decides whether the body is a stream of events from its first bytes, then
either reads the events line by line or keeps the body and parses it at the end.
-/
namespace CodexMultiAuth.LineFeed
open Transducer

/-- Reads a text into the line that is not ended yet, and writes the lines that are. -/
def step (line : List Char) (c : Char) : List Char × List (List Char) := if c = '\n' then ([],[line]) else (line ++ [c],[])

def split (text : List Char) : List Char × List (List Char) := run step [] text

def lines (text : List Char) : List (List Char) := (split text).2 ++ [(split text).1]

theorem run_unended {text : List Char} (unended : '\n' ∉ text) (line : List Char) : run step line text = (line ++ text,[]) := by
  induction text generalizing line with
  | nil => simp
  | cons c rest ih =>
    have other : c ≠ '\n' := fun feed => unended (feed ▸ List.mem_cons_self)
    have later : '\n' ∉ rest := fun member => unended (List.mem_cons_of_mem c member)
    rw [run_cons,step,if_neg other,ih later]
    simp

theorem unended_run {line : List Char} (unended : '\n' ∉ line) (text : List Char) : '\n' ∉ (run step line text).1 := by
  induction text generalizing line with
  | nil => exact unended
  | cons c rest ih =>
    rw [run_cons]
    apply ih
    rw [step]
    split_ifs with feed
    · exact List.not_mem_nil
    · intro member
      obtain old | new := List.mem_append.mp member
      · exact unended old
      · exact feed (List.mem_singleton.mp new).symm

theorem unended_split (text : List Char) : '\n' ∉ (split text).1 := unended_run List.not_mem_nil text

theorem split_carried (text more : List Char) : split ((split text).1 ++ more) = run step (split text).1 more := by
  have carried := run_unended (unended_split text) []
  rw [split,run_append,carried]
  simp

theorem split_append (first second : List Char) :
    split (first ++ second) = ((split ((split first).1 ++ second)).1,(split first).2 ++ (split ((split first).1 ++ second)).2) := by
  rw [split_carried]
  exact run_append _ _ _ _

theorem split_append_unended (text : List Char) {more : List Char} (unended : '\n' ∉ more) :
    split (text ++ more) = ((split text).1 ++ more,(split text).2) := by
  rw [split_append,split_carried,run_unended unended]
  simp

theorem exists_extended (line text : List Char) :
    ∃ extended ∈ (run step line text).2 ++ [(run step line text).1], line <+: extended := by
  induction text generalizing line with
  | nil => exact ⟨line,by simp,List.prefix_rfl⟩
  | cons c rest ih =>
    rw [run_cons]
    by_cases feed : c = '\n'
    · refine ⟨line,?_,List.prefix_rfl⟩
      rw [step,if_pos feed]
      simp
    · obtain ⟨extended,member,inside⟩ := ih (line ++ [c])
      rw [step,if_neg feed]
      exact ⟨extended,by simpa using member,(List.prefix_append line [c]).trans inside⟩

theorem exists_line (first second : List Char) : ∃ line ∈ lines (first ++ second), (split first).1 <+: line := by
  obtain ⟨line,member,inside⟩ := exists_extended (split first).1 second
  refine ⟨line,?_,inside⟩
  rw [lines,split_append,split_carried]
  simp only [List.mem_append] at member ⊢
  tauto

end CodexMultiAuth.LineFeed

namespace CodexMultiAuth.UsageScan
open ConfigToml (Line trimText)
open ResponseHandler (UsageTokenCounts extractResponsesUsage)
open RoutePolicy (utf16Length)
open Utf8 (TextDecoder decodeAll)

def MAX_BUFFERED_BYTES : Nat := 1048576

def MAX_SNIFF_BYTES : Nat := 4096

def TERMINAL_EVENT_TYPES : List String := ["response.completed","response.incomplete","response.failed","response.done"]

/-- What a line of a stream of events begins with: a comment or a field. -/
def fields : List (List Char) :=
  [[':'],['d','a','t','a',':'],['e','v','e','n','t',':'],['i','d',':'],['r','e','t','r','y',':']]

/-- `(?:\r?\n)*` -/
def skipLineEnds : List Char → List Char
  | '\n' :: rest => skipLineEnds rest
  | '\r' :: '\n' :: rest => skipLineEnds rest
  | text => text

/-- `/^(?:\r?\n)*(?::|(?:data|event|id|retry):)/` -/
def looksLikeSse (text : List Char) : Bool := fields.any (fun field => decide (field <+: skipLineEnds text))

/-- `text.trimStart()[0]` -/
def firstMark (text : List Char) : Option Char := (text.dropWhile isWhiteSpace).head?

section
variable [Host]

def declaresSse (contentType : Option String) : Bool :=
  decide ("text/event-stream".toList <:+: (Host.toLowerCase (contentType.getD "")).toList)

/-- The event that is being read, and what the events so far came to. -/
structure EventScan where
  latest : Option UsageTokenCounts := none
  eventData : List Line := []
  eventSize : Nat := 0
  droppingEvent : Bool := false
  observed : List Json := []

def isTerminal (parsed : Json) : Bool :=
  match parsed with
  | .obj event =>
    match Record.text event "type" with
    | some type => TERMINAL_EVENT_TYPES.contains type
    | none => false
  | _ => false

/-- An event is reported, and its counts are kept if it is terminal or the first with any. -/
def EventScan.observe (scan : EventScan) (parsed : Json) : EventScan :=
  { scan with
    observed := scan.observed ++ [parsed]
    latest :=
      match extractResponsesUsage parsed with
      | some counts => if isTerminal parsed || scan.latest.isNone then some counts else scan.latest
      | none => scan.latest }

/- `JSON.parse`, with no value where it throws. -/
variable (parse : List Char → Option Json)

/-- The event whose data are these lines, if they are one. -/
def parseEvent (eventData : List Line) : Option Json :=
  let payload := List.intercalate ['\n'] eventData
  if payload = [] ∨ payload = ['[','D','O','N','E',']'] then none else parse payload

def EventScan.consumeEvent (scan : EventScan) : EventScan :=
  if scan.droppingEvent then { scan with droppingEvent := false,eventData := [],eventSize := 0 }
  else
    let emptied := { scan with eventData := [],eventSize := 0 }
    match parseEvent parse scan.eventData with
    | none => emptied
    | some parsed => emptied.observe parsed

def stripReturn (raw : Line) : Line := if raw.getLast? = some '\r' then raw.dropLast else raw

def dataValue (line : Line) : Option Line :=
  if ['d','a','t','a',':'] <+: line then
    match line.drop 5 with
    | ' ' :: value => some value
    | value => some value
  else none

def EventScan.consumeLine (scan : EventScan) (raw : Line) : EventScan :=
  let line := stripReturn raw
  if line = [] then scan.consumeEvent parse
  else if scan.droppingEvent then scan
  else
    match dataValue line with
    | none => scan
    | some value =>
      let eventSize := scan.eventSize + (utf16Length value + 1)
      if MAX_BUFFERED_BYTES < eventSize then { scan with droppingEvent := true,eventData := [],eventSize := 0 }
      else { scan with eventSize,eventData := scan.eventData ++ [value] }

structure UsageStreamScanner where
  sse : Bool
  sniffing : Bool
  sniffedBytes : Nat := 0
  sniffPrefix : List Char := []
  sniffDecoder : TextDecoder := {}
  decoder : TextDecoder := {}
  pending : List Char := []
  bufferedBytes : Nat := 0
  overflowed : Bool := false
  droppingLine : Bool := false
  events : EventScan := {}

def createUsageStreamScanner (contentType : Option String) : UsageStreamScanner :=
  { sse := declaresSse contentType,sniffing := !declaresSse contentType }

namespace UsageStreamScanner

def sniffFormat (scanner : UsageStreamScanner) (chunk : List UInt8) : UsageStreamScanner :=
  if scanner.sniffing then
    let taken := chunk.take (MAX_SNIFF_BYTES - scanner.sniffedBytes)
    let sniffedBytes := scanner.sniffedBytes + taken.length
    let decoded := scanner.sniffDecoder.decode taken
    let sniffPrefix := scanner.sniffPrefix ++ decoded.2
    let sse := looksLikeSse sniffPrefix
    if sse = true ∨ firstMark sniffPrefix = some '{' ∨ firstMark sniffPrefix = some '[' ∨ MAX_SNIFF_BYTES ≤ sniffedBytes then
      { scanner with sse,sniffedBytes,sniffDecoder := decoded.1,sniffing := false,sniffPrefix := [] }
    else { scanner with sse,sniffedBytes,sniffDecoder := decoded.1,sniffPrefix }
  else scanner

/-- A line that ended: the end of one that was dropped is not read. -/
def readLine (scanner : UsageStreamScanner) (line : Line) : UsageStreamScanner :=
  if scanner.droppingLine then { scanner with droppingLine := false }
  else { scanner with events := scanner.events.consumeLine parse line }

/-- Reads the lines that ended and keeps the rest, unless it is too long to be a line. -/
def readLines (scanner : UsageStreamScanner) : UsageStreamScanner :=
  let parts := LineFeed.split scanner.pending
  let read := parts.2.foldl (readLine parse) { scanner with pending := parts.1 }
  if MAX_BUFFERED_BYTES < utf16Length read.pending ∨ read.droppingLine = true then
    { read with
      droppingLine := true
      pending := []
      events := { read.events with droppingEvent := true,eventData := [],eventSize := 0 } }
  else read

def push (scanner : UsageStreamScanner) (chunk : List UInt8) : UsageStreamScanner :=
  if scanner.overflowed = true ∨ chunk = [] then scanner
  else
    let sniffed := scanner.sniffFormat chunk
    let decoded := sniffed.decoder.decode chunk
    let fed :=
      { sniffed with
        bufferedBytes := sniffed.bufferedBytes + chunk.length
        decoder := decoded.1
        pending := sniffed.pending ++ decoded.2 }
    if fed.sse then fed.readLines parse
    else if MAX_BUFFERED_BYTES < fed.bufferedBytes then { fed with overflowed := true,pending := [] }
    else fed

/-- The scanner after a call of `result`, and what it returned. The decoder begins
    again once it is told that nothing follows. -/
def result (scanner : UsageStreamScanner) : UsageStreamScanner × Option UsageTokenCounts :=
  if scanner.overflowed then (scanner,scanner.events.latest)
  else
    let flushed := { scanner with decoder := {},pending := scanner.pending ++ scanner.decoder.finish }
    if scanner.sse then
      let last := if flushed.pending = [] then flushed.events else flushed.events.consumeLine parse flushed.pending
      let events := last.consumeEvent parse
      ({ flushed with pending := [],events },events.latest)
    else if trimText flushed.pending = [] then (flushed,flushed.events.latest)
    else
      match parse flushed.pending with
      | none => (flushed,flushed.events.latest)
      | some parsed =>
        let latest := (extractResponsesUsage parsed) <|> flushed.events.latest
        ({ flushed with pending := [],events := { flushed.events with observed := flushed.events.observed ++ [parsed],latest } },latest)

end UsageStreamScanner

/-- The format of a body: declared, or that of its first bytes. -/
def isSseBody (contentType : Option String) (body : List UInt8) : Bool :=
  declaresSse contentType || looksLikeSse ((({} : TextDecoder).decode (body.take MAX_SNIFF_BYTES)).2)

/-- The data of the events that lines are of: an empty line ends one. -/
def eventBlocks : List Line → List (List Line)
  | [] => [[]]
  | raw :: rest =>
    if stripReturn raw = [] then [] :: eventBlocks rest
    else
      match eventBlocks rest with
      | [] => [(dataValue (stripReturn raw)).toList]
      | block :: blocks => ((dataValue (stripReturn raw)).toList ++ block) :: blocks

def blockSize (block : List Line) : Nat := (block.map (fun value => utf16Length value + 1)).sum

/-- The events of a body. One that is not a stream is a single event, if it is not too large. -/
def bodyEvents (contentType : Option String) (body : List UInt8) : List Json :=
  if isSseBody contentType body then (eventBlocks (LineFeed.lines (decodeAll body))).filterMap (parseEvent parse)
  else if MAX_BUFFERED_BYTES < body.length ∨ trimText (decodeAll body) = [] then []
  else (parse (decodeAll body)).toList

def usageOf (events : List Json) : Option UsageTokenCounts :=
  ((events.filter isTerminal).filterMap extractResponsesUsage).getLast? <|> (events.filterMap extractResponsesUsage).head?

/-- No line and no event of a stream is larger than what the scanner keeps. -/
structure WithinLimits (body : List UInt8) : Prop where
  lines : ∀ line ∈ LineFeed.lines (decodeAll body), utf16Length line ≤ MAX_BUFFERED_BYTES
  events : ∀ block ∈ eventBlocks (LineFeed.lines (decodeAll body)), blockSize block ≤ MAX_BUFFERED_BYTES

end
end CodexMultiAuth.UsageScan
