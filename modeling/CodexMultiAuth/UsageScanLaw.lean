import CodexMultiAuth.UsageScanner

/-!
What the scanner finds depends on the bytes of a body alone. Until the format is
decided everything is kept, so a body that turns out to be a stream is read from
its first line; from then on the text that is kept is the line that is not ended.
-/
namespace CodexMultiAuth.UsageScan
open List LineFeed
open ConfigToml (Line trimText)
open ResponseHandler (UsageTokenCounts extractResponsesUsage)
open RoutePolicy (utf16Length)
open Utf8 (TextDecoder decodeAll)
set_option linter.unusedSectionVars false

theorem isWhiteSpace_lineEnd : isWhiteSpace '\n' = true ∧ isWhiteSpace '\r' = true := by decide

theorem firstMark_skipLineEnds (text : List Char) : firstMark (skipLineEnds text) = firstMark text := by
  induction text using skipLineEnds.induct with
  | case1 rest ih =>
    rw [skipLineEnds,ih,firstMark,firstMark,dropWhile_cons_of_pos isWhiteSpace_lineEnd.1]
  | case2 rest ih =>
    rw [skipLineEnds,ih,firstMark,firstMark,dropWhile_cons_of_pos isWhiteSpace_lineEnd.2,
      dropWhile_cons_of_pos isWhiteSpace_lineEnd.1]
  | case3 text _ _ => rw [skipLineEnds] <;> assumption

variable {text : List Char}

theorem firstMark_append {mark : Char} (first : firstMark text = some mark) (more : List Char) :
    firstMark (text ++ more) = some mark := by
  unfold firstMark at first ⊢
  have some_left : text.dropWhile isWhiteSpace ≠ [] := by
    intro empty
    rw [empty] at first
    cases first
  rw [dropWhile_append,if_neg (by simpa using some_left),List.head?_append,first]
  rfl

theorem fields_marked : ∀ field ∈ fields, (field.head?.any fun c => !isWhiteSpace c && c != '{' && c != '[') = true := by decide

theorem exists_mark {field : List Char} (member : field ∈ fields) :
    ∃ c rest, field = c :: rest ∧ isWhiteSpace c = false ∧ c ≠ '{' ∧ c ≠ '[' := by
  have marked := fields_marked field member
  cases field with
  | nil => cases marked
  | cons c rest =>
    refine ⟨c,rest,rfl,?_⟩
    simpa [and_assoc] using marked

theorem firstMark_of_looksLikeSse (looks : looksLikeSse text = true) :
    firstMark text ≠ some '{' ∧ firstMark text ≠ some '[' := by
  obtain ⟨field,member,begins⟩ := any_eq_true.mp looks
  obtain ⟨c,rest,rfl,dark,other⟩ := exists_mark member
  obtain ⟨tail,whole⟩ := of_decide_eq_true begins
  rw [← firstMark_skipLineEnds,← whole,firstMark,cons_append,dropWhile_cons_of_neg (by simp [dark])]
  simpa using other

theorem skipLineEnds_append {c : Char} {rest : List Char} (skipped : skipLineEnds text = c :: rest) (ordinary : c ≠ '\r')
    (more : List Char) : skipLineEnds (text ++ more) = c :: rest ++ more := by
  induction text using skipLineEnds.induct with
  | case1 text ih =>
    rw [skipLineEnds] at skipped
    rw [cons_append,skipLineEnds]
    exact ih skipped
  | case2 text ih =>
    rw [skipLineEnds] at skipped
    rw [cons_append,cons_append,skipLineEnds]
    exact ih skipped
  | case3 text feed ended =>
    rw [skipLineEnds.eq_3 text feed ended] at skipped
    subst skipped
    apply skipLineEnds.eq_3
    · intro later same
      obtain ⟨same,-⟩ := List.cons.inj same
      exact feed rest (by rw [same])
    · intro later same
      exact ordinary (List.cons.inj same).1

theorem looksLikeSse_append (looks : looksLikeSse text = true) (more : List Char) : looksLikeSse (text ++ more) = true := by
  obtain ⟨field,member,begins⟩ := any_eq_true.mp looks
  obtain ⟨c,rest,rfl,dark,-⟩ := exists_mark member
  obtain ⟨tail,whole⟩ := of_decide_eq_true begins
  have ordinary : c ≠ '\r' := by
    rintro rfl
    rw [isWhiteSpace_lineEnd.2] at dark
    cases dark
  refine any_eq_true.mpr ⟨c :: rest,member,decide_eq_true ?_⟩
  rw [skipLineEnds_append whole.symm ordinary more]
  exact ⟨tail ++ more,by simp⟩

section
variable [Host] {contentType : Option String}

theorem isSseBody_append {bytes : List UInt8} (looks : looksLikeSse ((({} : TextDecoder).decode (bytes.take MAX_SNIFF_BYTES)).2) = true)
    (more : List UInt8) : isSseBody contentType (bytes ++ more) = true := by
  rw [isSseBody,take_append,TextDecoder.decode_append,looksLikeSse_append looks,Bool.or_true]

theorem not_isSseBody_append {bytes : List UInt8} (undeclared : declaresSse contentType = false)
    (looks : looksLikeSse ((({} : TextDecoder).decode (bytes.take MAX_SNIFF_BYTES)).2) = false)
    (decided : firstMark ((({} : TextDecoder).decode (bytes.take MAX_SNIFF_BYTES)).2) = some '{' ∨
      firstMark ((({} : TextDecoder).decode (bytes.take MAX_SNIFF_BYTES)).2) = some '[' ∨ MAX_SNIFF_BYTES ≤ bytes.length)
    (more : List UInt8) : isSseBody contentType (bytes ++ more) = false := by
  rw [isSseBody,undeclared,Bool.false_or]
  obtain marked | marked | long := decided
  · rw [take_append,TextDecoder.decode_append]
    by_contra found
    exact (firstMark_of_looksLikeSse (Bool.eq_true_of_not_eq_false found)).1 (firstMark_append marked _)
  · rw [take_append,TextDecoder.decode_append]
    by_contra found
    exact (firstMark_of_looksLikeSse (Bool.eq_true_of_not_eq_false found)).2 (firstMark_append marked _)
  · rw [take_append_of_le_length long]
    exact looks

/-! ### Events of lines -/

variable (parse : List Char → Option Json)

theorem eventBlocks_ne_nil (lines : List Line) : eventBlocks lines ≠ [] := by
  cases lines with
  | nil => simp [eventBlocks]
  | cons raw rest =>
    rw [eventBlocks]
    split
    · simp
    · split <;> simp

namespace EventScan

/-- The scan at the start of an event. -/
def emptied (scan : EventScan) : EventScan := { scan with droppingEvent := false,eventData := [],eventSize := 0 }

theorem consumeEvent_emptied (scan : EventScan) : scan.emptied.consumeEvent parse = scan.emptied := rfl

theorem consumeEvent_idle (scan : EventScan) : (scan.consumeEvent parse).emptied = scan.consumeEvent parse := by
  unfold consumeEvent
  split
  · rfl
  · next keeps =>
    have keeps : scan.droppingEvent = false := Bool.eq_false_of_not_eq_true keeps
    split <;> simp [emptied,observe,keeps]

theorem consumeEvent_kept {scan : EventScan} (keeps : scan.droppingEvent = false) :
    scan.consumeEvent parse = (parseEvent parse scan.eventData).toList.foldl observe scan.emptied := by
  have same : ({ scan with eventData := [],eventSize := 0 } : EventScan) = scan.emptied := by rw [emptied,keeps]
  rw [consumeEvent,if_neg (by simp [keeps]),same]
  cases parseEvent parse scan.eventData <;> rfl

theorem consumeLines {scan : EventScan} {lines : List Line} {block : List Line} {blocks : List (List Line)}
    (split : eventBlocks lines = block :: blocks) (keeps : scan.droppingEvent = false) (size : scan.eventSize = blockSize scan.eventData)
    (within : ∀ data ∈ (scan.eventData ++ block) :: blocks, blockSize data ≤ MAX_BUFFERED_BYTES) :
    (lines.foldl (consumeLine parse) scan).consumeEvent parse =
      (((scan.eventData ++ block) :: blocks).filterMap (parseEvent parse)).foldl observe scan.emptied := by
  induction lines generalizing scan block blocks with
  | nil =>
    obtain ⟨rfl,rfl⟩ := List.cons.inj split
    rw [append_nil,foldl_nil,consumeEvent_kept parse keeps]
    cases found : parseEvent parse scan.eventData <;> simp [found]
  | cons raw rest ih =>
    rw [foldl_cons]
    rw [eventBlocks] at split
    split_ifs at split with ends
    · -- The event ends: the next one begins with the scan emptied.
      obtain ⟨rfl,rfl⟩ := List.cons.inj split
      obtain ⟨next,later,found⟩ := exists_cons_of_ne_nil (eventBlocks_ne_nil rest)
      have consumed : scan.consumeLine parse raw = scan.consumeEvent parse := by rw [consumeLine,if_pos ends]
      have idle := consumeEvent_idle parse scan
      have empty : (scan.consumeEvent parse).eventData = [] := by rw [← idle]; rfl
      have read := ih found (show (scan.consumeEvent parse).droppingEvent = false by rw [← idle]; rfl) (by rw [← idle]; rfl) (by
        rw [empty]
        exact fun data member => within data (mem_cons_of_mem _ (found ▸ member)))
      rw [consumed,read,idle,empty,nil_append,← found,consumeEvent_kept parse keeps,← foldl_append,append_nil,
        filterMap_cons]
      cases parseEvent parse scan.eventData <;> rfl
    · obtain ⟨next,later,found⟩ := exists_cons_of_ne_nil (eventBlocks_ne_nil rest)
      rw [found] at split
      obtain ⟨rfl,rfl⟩ := List.cons.inj split
      cases read_value : dataValue (stripReturn raw) with
      | none =>
        have consumed : scan.consumeLine parse raw = scan := by
          rw [consumeLine,if_neg ends,if_neg (by simp [keeps]),read_value]
        rw [read_value] at within
        rw [consumed]
        exact ih found keeps size within
      | some value =>
        rw [read_value] at within
        have whole := within _ mem_cons_self
        have total : blockSize (scan.eventData ++ (value :: next)) = scan.eventSize + (utf16Length value + 1) + blockSize next := by
          rw [size,blockSize,blockSize,blockSize,map_append,sum_append,map_cons,sum_cons]
          omega
        have fits : ¬ MAX_BUFFERED_BYTES < scan.eventSize + (utf16Length value + 1) := by
          rw [Option.toList_some,singleton_append,total] at whole
          omega
        have consumed : scan.consumeLine parse raw =
            { scan with eventSize := scan.eventSize + (utf16Length value + 1),eventData := scan.eventData ++ [value] } := by
          rw [consumeLine,if_neg ends,if_neg (by simp [keeps]),read_value]
          exact if_neg fits
        have grown : scan.eventSize + (utf16Length value + 1) = blockSize (scan.eventData ++ [value]) := by
          rw [size,blockSize,blockSize,map_append,sum_append]
          simp
        have read := ih found (show (scan.consumeLine parse raw).droppingEvent = false by rw [consumed]; exact keeps)
          (by rw [consumed]; exact grown) (by
            rw [consumed]
            simpa using within)
        rw [consumed] at read ⊢
        rw [read]
        simp [emptied]

theorem foldl_observe (events : List Json) (scan : EventScan) :
    (events.foldl observe scan).observed = scan.observed ++ events := by
  induction events generalizing scan with
  | nil => simp
  | cons parsed events ih =>
    rw [foldl_cons,ih]
    simp [observe]

/-- The counts that are kept are those of the last terminal event, or else of the first. -/
theorem latest_foldl_observe (events : List Json) : (events.foldl observe {}).latest = usageOf events := by
  induction events using List.reverseRecOn with
  | nil => rfl
  | append_singleton events parsed ih =>
    rw [foldl_append,foldl_cons,foldl_nil,observe,ih]
    cases counts : extractResponsesUsage parsed with
    | none =>
      cases ends : isTerminal parsed <;> simp [usageOf,filter_append,filterMap_append,counts,ends]
    | some counts =>
      cases ends : isTerminal parsed with
      | true => simp [usageOf,filter_append,filterMap_append,counts,ends]
      | false =>
        cases terminal : ((events.filter isTerminal).filterMap extractResponsesUsage).getLast? <;>
          cases first : (events.filterMap extractResponsesUsage).head? <;>
            simp [usageOf,filter_append,filterMap_append,counts,ends,terminal,first]

end EventScan

/-! ### Scanning -/

namespace UsageStreamScanner

/-- The format is not decided and nothing is read yet. -/
structure Undecided (contentType : Option String) (scanner : UsageStreamScanner) (bytes : List UInt8) : Prop where
  undeclared : declaresSse contentType = false
  sse : scanner.sse = false
  sniffing : scanner.sniffing = true
  short : bytes.length < MAX_SNIFF_BYTES
  looks : looksLikeSse ((({} : TextDecoder).decode bytes).2) = false
  sniffedBytes : scanner.sniffedBytes = bytes.length
  sniffDecoder : scanner.sniffDecoder = (({} : TextDecoder).decode bytes).1
  sniffPrefix : scanner.sniffPrefix = (({} : TextDecoder).decode bytes).2
  decoder : scanner.decoder = (({} : TextDecoder).decode bytes).1
  pending : scanner.pending = (({} : TextDecoder).decode bytes).2
  bufferedBytes : scanner.bufferedBytes = bytes.length
  overflowed : scanner.overflowed = false
  droppingLine : scanner.droppingLine = false
  events : scanner.events = {}

/-- The body is no stream and is kept, unless it is too large. -/
structure Buffering (contentType : Option String) (scanner : UsageStreamScanner) (bytes : List UInt8) : Prop where
  decided : ∀ more, isSseBody contentType (bytes ++ more) = false
  sse : scanner.sse = false
  sniffing : scanner.sniffing = false
  kept : scanner.overflowed = false → scanner.decoder = (({} : TextDecoder).decode bytes).1 ∧
    scanner.pending = (({} : TextDecoder).decode bytes).2 ∧ scanner.bufferedBytes = bytes.length
  overflowed : scanner.overflowed = true ↔ MAX_BUFFERED_BYTES < bytes.length
  events : scanner.events = {}

/-- The body is a stream whose ended lines are read. -/
structure Streaming (contentType : Option String) (scanner : UsageStreamScanner) (bytes : List UInt8) : Prop where
  decided : ∀ more, isSseBody contentType (bytes ++ more) = true
  sse : scanner.sse = true
  sniffing : scanner.sniffing = false
  decoder : scanner.decoder = (({} : TextDecoder).decode bytes).1
  pending : scanner.pending = (split (({} : TextDecoder).decode bytes).2).1
  overflowed : scanner.overflowed = false
  droppingLine : scanner.droppingLine = false
  events : scanner.events = (split (({} : TextDecoder).decode bytes).2).2.foldl (EventScan.consumeLine parse) {}

variable {scanner : UsageStreamScanner}

theorem foldl_readLine (lines : List Line) (reads : scanner.droppingLine = false) :
    lines.foldl (readLine parse) scanner = { scanner with events := lines.foldl (EventScan.consumeLine parse) scanner.events } := by
  induction lines generalizing scanner with
  | nil => rfl
  | cons line lines ih =>
    have read : readLine parse scanner line = { scanner with events := scanner.events.consumeLine parse line } := by
      rw [readLine,if_neg (by simp [reads])]
    rw [foldl_cons,read]
    exact ih reads

theorem readLines_eq (reads : scanner.droppingLine = false)
    (within : utf16Length (split scanner.pending).1 ≤ MAX_BUFFERED_BYTES) :
    scanner.readLines parse = { scanner with
      pending := (split scanner.pending).1
      events := (split scanner.pending).2.foldl (EventScan.consumeLine parse) scanner.events } := by
  have read := foldl_readLine parse (split scanner.pending).2
    (show ({ scanner with pending := (split scanner.pending).1 } : UsageStreamScanner).droppingLine = false from reads)
  unfold readLines
  dsimp only
  rw [read,if_neg]
  simp [reads,Nat.not_lt.mpr within]

theorem sniffFormat_same (scanner : UsageStreamScanner) (chunk : List UInt8) :
    (scanner.sniffFormat chunk).decoder = scanner.decoder ∧ (scanner.sniffFormat chunk).pending = scanner.pending ∧
      (scanner.sniffFormat chunk).bufferedBytes = scanner.bufferedBytes ∧ (scanner.sniffFormat chunk).overflowed = scanner.overflowed ∧
      (scanner.sniffFormat chunk).droppingLine = scanner.droppingLine ∧ (scanner.sniffFormat chunk).events = scanner.events := by
  unfold sniffFormat
  dsimp only
  split_ifs <;> simp

theorem sniffFormat_decided (decided : scanner.sniffing = false) (chunk : List UInt8) :
    scanner.sniffFormat chunk = scanner := by
  rw [sniffFormat,if_neg (by simp [decided])]

variable {bytes chunk : List UInt8}

theorem push_streaming {ended : List Line}
    (decided : ∀ more, isSseBody contentType (bytes ++ chunk ++ more) = true)
    (some_chunk : chunk ≠ []) (sse : (scanner.sniffFormat chunk).sse = true) (sniffing : (scanner.sniffFormat chunk).sniffing = false)
    (decoder : scanner.decoder = (({} : TextDecoder).decode bytes).1) (running : scanner.overflowed = false)
    (reads : scanner.droppingLine = false) (events : scanner.events = ended.foldl (EventScan.consumeLine parse) {})
    (text : split (({} : TextDecoder).decode (bytes ++ chunk)).2 =
      ((split (scanner.pending ++ (scanner.decoder.decode chunk).2)).1,
        ended ++ (split (scanner.pending ++ (scanner.decoder.decode chunk).2)).2))
    (within : utf16Length (split (({} : TextDecoder).decode (bytes ++ chunk)).2).1 ≤ MAX_BUFFERED_BYTES) :
    Streaming parse contentType (scanner.push parse chunk) (bytes ++ chunk) := by
  obtain ⟨same_decoder,same_pending,-,same_running,same_reads,same_events⟩ := sniffFormat_same scanner chunk
  have decoded : (({} : TextDecoder).decode (bytes ++ chunk)).1 = (scanner.decoder.decode chunk).1 := by
    rw [TextDecoder.decode_append,decoder]
  rw [text] at within
  unfold push
  rw [if_neg (by simp [running,some_chunk])]
  dsimp only
  rw [if_pos sse,readLines_eq parse (by rw [same_reads,reads]) (by rw [same_pending,same_decoder]; exact within)]
  rw [same_pending,same_decoder]
  refine ⟨decided,sse,sniffing,decoded.symm,?_,?_,?_,?_⟩
  · rw [text]
  · rw [same_running,running]
  · rw [same_reads,reads]
  · rw [text,same_events,events,foldl_append]

theorem push_nil (scanner : UsageStreamScanner) : scanner.push parse [] = scanner := by
  rw [push,if_pos (Or.inr rfl)]

theorem push_buffering
    (decided : ∀ more, isSseBody contentType (bytes ++ chunk ++ more) = false)
    (some_chunk : chunk ≠ []) (sse : (scanner.sniffFormat chunk).sse = false) (sniffing : (scanner.sniffFormat chunk).sniffing = false)
    (decoder : scanner.decoder = (({} : TextDecoder).decode bytes).1) (pending : scanner.pending = (({} : TextDecoder).decode bytes).2)
    (bufferedBytes : scanner.bufferedBytes = bytes.length) (running : scanner.overflowed = false) (events : scanner.events = {}) :
    Buffering contentType (scanner.push parse chunk) (bytes ++ chunk) := by
  obtain ⟨same_decoder,same_pending,same_bytes,same_running,-,same_events⟩ := sniffFormat_same scanner chunk
  have decoded := TextDecoder.decode_append {} bytes chunk
  unfold push
  rw [if_neg (by simp [running,some_chunk])]
  dsimp only
  rw [if_neg (by simp [sse]),same_decoder,same_pending,same_bytes,bufferedBytes,← length_append,decoder,pending]
  split_ifs with large
  · exact ⟨decided,sse,sniffing,fun kept => absurd kept (by simp),iff_of_true rfl large,by rw [same_events,events]⟩
  · exact ⟨decided,sse,sniffing,fun _ => ⟨by rw [decoded],by rw [decoded],rfl⟩,iff_of_false (by simp [same_running,running]) large,by rw [same_events,events]⟩

theorem Streaming.push (streaming : Streaming parse contentType scanner bytes)
    (within : utf16Length (split (({} : TextDecoder).decode (bytes ++ chunk)).2).1 ≤ MAX_BUFFERED_BYTES) :
    Streaming parse contentType (scanner.push parse chunk) (bytes ++ chunk) := by
  by_cases some_chunk : chunk = []
  · subst some_chunk
    rw [push_nil,append_nil]
    exact streaming
  have sniffed := sniffFormat_decided streaming.sniffing chunk
  apply push_streaming parse _ some_chunk _ _ streaming.decoder streaming.overflowed streaming.droppingLine streaming.events _ within
  · intro more
    rw [append_assoc]
    exact streaming.decided _
  · rw [sniffed,streaming.sse]
  · rw [sniffed,streaming.sniffing]
  · rw [TextDecoder.decode_append,split_append,streaming.pending,streaming.decoder]

theorem Buffering.push {bytes : List UInt8} (buffering : Buffering contentType scanner bytes)
    (chunk : List UInt8) : Buffering contentType (scanner.push parse chunk) (bytes ++ chunk) := by
  by_cases some_chunk : chunk = []
  · subst some_chunk
    rw [push_nil,append_nil]
    exact buffering
  have decided : ∀ more, isSseBody contentType (bytes ++ chunk ++ more) = false := by
    intro more
    rw [append_assoc]
    exact buffering.decided _
  cases running : scanner.overflowed with
  | true =>
    have large := buffering.overflowed.mp running
    rw [UsageStreamScanner.push,if_pos (Or.inl running)]
    refine ⟨decided,buffering.sse,buffering.sniffing,fun kept => ?_,?_,buffering.events⟩
    · rw [running] at kept
      cases kept
    · rw [length_append]
      exact iff_of_true running (by omega)
  | false =>
    obtain ⟨decoder,pending,bufferedBytes⟩ := buffering.kept running
    have sniffed := sniffFormat_decided buffering.sniffing chunk
    apply push_buffering parse decided some_chunk _ _ decoder pending bufferedBytes running buffering.events
    · rw [sniffed,buffering.sse]
    · rw [sniffed,buffering.sniffing]

theorem Undecided.sniffFormat {bytes : List UInt8} (undecided : Undecided contentType scanner bytes)
    (chunk : List UInt8) :
    let seen := ({} : TextDecoder).decode ((bytes ++ chunk).take MAX_SNIFF_BYTES)
    scanner.sniffFormat chunk =
      if looksLikeSse seen.2 = true ∨ firstMark seen.2 = some '{' ∨ firstMark seen.2 = some '[' ∨
          MAX_SNIFF_BYTES ≤ ((bytes ++ chunk).take MAX_SNIFF_BYTES).length then
        { scanner with
          sse := looksLikeSse seen.2
          sniffedBytes := ((bytes ++ chunk).take MAX_SNIFF_BYTES).length
          sniffDecoder := seen.1
          sniffing := false
          sniffPrefix := [] }
      else
        { scanner with
          sse := looksLikeSse seen.2
          sniffedBytes := ((bytes ++ chunk).take MAX_SNIFF_BYTES).length
          sniffDecoder := seen.1
          sniffPrefix := seen.2 } := by
  have taken : (bytes ++ chunk).take MAX_SNIFF_BYTES = bytes ++ chunk.take (MAX_SNIFF_BYTES - bytes.length) := by
    rw [take_append,take_of_length_le undecided.short.le]
  have decoded := TextDecoder.decode_append {} bytes (chunk.take (MAX_SNIFF_BYTES - bytes.length))
  dsimp only
  rw [taken,decoded,length_append,UsageStreamScanner.sniffFormat,if_pos undecided.sniffing]
  rw [undecided.sniffedBytes,undecided.sniffDecoder,undecided.sniffPrefix]

theorem Undecided.push (undecided : Undecided contentType scanner bytes)
    (within : (∀ more, isSseBody contentType (bytes ++ chunk ++ more) = true) →
      utf16Length (split (({} : TextDecoder).decode (bytes ++ chunk)).2).1 ≤ MAX_BUFFERED_BYTES) :
    Undecided contentType (scanner.push parse chunk) (bytes ++ chunk) ∨ Buffering contentType (scanner.push parse chunk) (bytes ++ chunk) ∨
      Streaming parse contentType (scanner.push parse chunk) (bytes ++ chunk) := by
  by_cases some_chunk : chunk = []
  · subst some_chunk
    rw [push_nil,append_nil]
    exact Or.inl undecided
  have sniffed := undecided.sniffFormat chunk
  dsimp only at sniffed
  cases looks : looksLikeSse (({} : TextDecoder).decode ((bytes ++ chunk).take MAX_SNIFF_BYTES)).2 with
  | true =>
    have decided : ∀ more, isSseBody contentType (bytes ++ chunk ++ more) = true := isSseBody_append looks
    rw [if_pos (Or.inl looks)] at sniffed
    refine Or.inr (Or.inr (push_streaming parse decided some_chunk ?_ ?_ undecided.decoder undecided.overflowed undecided.droppingLine
      (show _ = List.foldl _ _ [] from undecided.events) ?_ (within decided)))
    · rw [sniffed,looks]
    · rw [sniffed]
    · rw [TextDecoder.decode_append,undecided.pending,undecided.decoder,nil_append]
  | false =>
    by_cases decided : firstMark (({} : TextDecoder).decode ((bytes ++ chunk).take MAX_SNIFF_BYTES)).2 = some '{' ∨
        firstMark (({} : TextDecoder).decode ((bytes ++ chunk).take MAX_SNIFF_BYTES)).2 = some '[' ∨
        MAX_SNIFF_BYTES ≤ (bytes ++ chunk).length
    · rw [if_pos] at sniffed
      · refine Or.inr (Or.inl (push_buffering parse (not_isSseBody_append undecided.undeclared looks decided) some_chunk ?_ ?_
          undecided.decoder undecided.pending undecided.bufferedBytes undecided.overflowed undecided.events))
        · rw [sniffed,looks]
        · rw [sniffed]
      · refine Or.inr (decided.imp_right (Or.imp_right fun long => ?_))
        rw [length_take]
        omega
    · have short : (bytes ++ chunk).length < MAX_SNIFF_BYTES := by
        by_contra long
        exact decided (Or.inr (Or.inr (Nat.not_lt.mp long)))
      have taken : (bytes ++ chunk).take MAX_SNIFF_BYTES = bytes ++ chunk := take_of_length_le short.le
      rw [taken] at looks decided sniffed
      rw [if_neg (by rw [looks]; simpa using decided)] at sniffed
      have decoded := TextDecoder.decode_append {} bytes chunk
      have small : ¬ MAX_BUFFERED_BYTES < bytes.length + chunk.length := by
        rw [length_append] at short
        unfold MAX_SNIFF_BYTES at short
        unfold MAX_BUFFERED_BYTES
        omega
      have pushed : scanner.push parse chunk =
          { scanner with
            sse := false
            sniffedBytes := (bytes ++ chunk).length
            sniffDecoder := (({} : TextDecoder).decode (bytes ++ chunk)).1
            sniffPrefix := (({} : TextDecoder).decode (bytes ++ chunk)).2
            bufferedBytes := (bytes ++ chunk).length
            decoder := (({} : TextDecoder).decode (bytes ++ chunk)).1
            pending := (({} : TextDecoder).decode (bytes ++ chunk)).2 } := by
        rw [UsageStreamScanner.push,if_neg (by simp [undecided.overflowed,some_chunk]),sniffed]
        dsimp only
        rw [looks,if_neg Bool.false_ne_true,undecided.bufferedBytes,if_neg small,undecided.decoder,undecided.pending,decoded,length_append]
      rw [pushed]
      exact Or.inl ⟨undecided.undeclared,rfl,undecided.sniffing,short,looks,rfl,rfl,rfl,rfl,rfl,rfl,undecided.overflowed,
        undecided.droppingLine,undecided.events⟩

/-- A scanner as it may be after some bytes. -/
def Scans (contentType : Option String) (scanner : UsageStreamScanner) (bytes : List UInt8) : Prop :=
  Undecided contentType scanner bytes ∨ Buffering contentType scanner bytes ∨ Streaming parse contentType scanner bytes

theorem Scans.start (contentType : Option String) : Scans parse contentType (createUsageStreamScanner contentType) [] := by
  cases declared : declaresSse contentType with
  | true =>
    exact Or.inr (Or.inr ⟨fun more => by rw [isSseBody,declared,Bool.true_or],declared,by simp [createUsageStreamScanner,declared],
      rfl,rfl,rfl,rfl,rfl⟩)
  | false =>
    exact Or.inl ⟨declared,declared,by simp [createUsageStreamScanner,declared],by decide,by decide,rfl,rfl,rfl,rfl,rfl,rfl,rfl,rfl,rfl⟩

theorem utf16Length_le {first second : List Char} (inside : first <+: second) : utf16Length first ≤ utf16Length second := by
  obtain ⟨more,rfl⟩ := inside
  rw [utf16Length,utf16Length,map_append,sum_append]
  exact Nat.le_add_right _ _

theorem decodeAll_append (bytes more : List UInt8) :
    decodeAll (bytes ++ more) = (({} : TextDecoder).decode bytes).2 ++
      (((({} : TextDecoder).decode bytes).1.decode more).2 ++ ((({} : TextDecoder).decode bytes).1.decode more).1.finish) := by
  rw [decodeAll,TextDecoder.decode_append,append_assoc]

theorem within_limits {bytes more : List UInt8} (fits : WithinLimits (bytes ++ more)) :
    utf16Length (split (({} : TextDecoder).decode bytes).2).1 ≤ MAX_BUFFERED_BYTES := by
  have lines := fits.lines
  rw [decodeAll_append] at lines
  obtain ⟨line,member,inside⟩ := exists_line (({} : TextDecoder).decode bytes).2
    (((({} : TextDecoder).decode bytes).1.decode more).2 ++ ((({} : TextDecoder).decode bytes).1.decode more).1.finish)
  exact (utf16Length_le inside).trans (lines line member)

theorem Scans.push {bytes chunk more : List UInt8} (scans : Scans parse contentType scanner bytes)
    (fits : isSseBody contentType (bytes ++ chunk ++ more) = true → WithinLimits (bytes ++ chunk ++ more)) :
    Scans parse contentType (scanner.push parse chunk) (bytes ++ chunk) := by
  obtain undecided | buffering | streaming := scans
  · exact undecided.push parse (fun decided => within_limits (fits (decided more)))
  · exact Or.inr (Or.inl (buffering.push parse chunk))
  · refine Or.inr (Or.inr (streaming.push parse (within_limits (fits ?_))))
    rw [append_assoc]
    exact streaming.decided _

theorem Scans.all (chunks : List (List UInt8)) (more : List UInt8)
    (fits : isSseBody contentType (chunks.flatten ++ more) = true → WithinLimits (chunks.flatten ++ more)) :
    Scans parse contentType (chunks.foldl (UsageStreamScanner.push parse) (createUsageStreamScanner contentType)) chunks.flatten := by
  induction chunks using List.reverseRecOn generalizing more with
  | nil => exact Scans.start parse contentType
  | append_singleton chunks chunk ih =>
    have bytes : (chunks ++ [chunk]).flatten = chunks.flatten ++ chunk := by simp
    rw [bytes] at fits ⊢
    rw [foldl_append]
    apply Scans.push parse (ih (chunk ++ more) _) fits
    rw [← append_assoc]
    exact fits

/-! ### The end of a body -/

theorem finish_unended (decoder : TextDecoder) : '\n' ∉ decoder.finish := by
  unfold TextDecoder.finish Utf8.flush Utf8.serialize
  split_ifs <;> decide

theorem consumeEvent_consumeEvent (scan : EventScan) : (scan.consumeEvent parse).consumeEvent parse = scan.consumeEvent parse := by
  rw [← EventScan.consumeEvent_idle parse scan,EventScan.consumeEvent_emptied]

theorem consumeEvent_lastLine (scan : EventScan) (line : Line) :
    (if line = [] then scan else scan.consumeLine parse line).consumeEvent parse = (scan.consumeLine parse line).consumeEvent parse := by
  split_ifs with empty
  · have consumed : scan.consumeLine parse line = scan.consumeEvent parse := by rw [empty]; rfl
    rw [consumed,consumeEvent_consumeEvent]
  · rfl

theorem result_stream (running : scanner.overflowed = false) (sse : scanner.sse = true) :
    scanner.result parse =
      ({ scanner with
          decoder := {}
          pending := []
          events := (scanner.events.consumeLine parse (scanner.pending ++ scanner.decoder.finish)).consumeEvent parse },
        ((scanner.events.consumeLine parse (scanner.pending ++ scanner.decoder.finish)).consumeEvent parse).latest) := by
  rw [← consumeEvent_lastLine,result,if_neg (by simp [running])]
  dsimp only
  rw [if_pos sse]

theorem result_body (running : scanner.overflowed = false) (sse : scanner.sse = false) :
    scanner.result parse =
      if trimText (scanner.pending ++ scanner.decoder.finish) = [] then
        ({ scanner with decoder := {},pending := scanner.pending ++ scanner.decoder.finish },scanner.events.latest)
      else
        match parse (scanner.pending ++ scanner.decoder.finish) with
        | none => ({ scanner with decoder := {},pending := scanner.pending ++ scanner.decoder.finish },scanner.events.latest)
        | some parsed =>
          ({ scanner with
              decoder := {}
              pending := []
              events := { scanner.events with
                observed := scanner.events.observed ++ [parsed]
                latest := (extractResponsesUsage parsed) <|> scanner.events.latest } },
            (extractResponsesUsage parsed) <|> scanner.events.latest) := by
  rw [result,if_neg (by simp [running])]
  dsimp only
  refine (if_neg (by simp [sse])).trans ?_
  cases parse (scanner.pending ++ scanner.decoder.finish) <;> rfl

theorem result_result (scanner : UsageStreamScanner) : (scanner.result parse).1.result parse = scanner.result parse := by
  have finished : (({} : TextDecoder)).finish = [] := rfl
  cases running : scanner.overflowed with
  | true =>
    have same : scanner.result parse = (scanner,scanner.events.latest) := by rw [result,if_pos running]
    rw [same]
    exact same
  | false =>
    cases sse : scanner.sse with
    | true =>
      rw [result_stream parse running sse]
      dsimp only
      rw [result_stream parse]
      · dsimp only
        have consumed (scan : EventScan) : scan.consumeLine parse ([] ++ ({} : TextDecoder).finish) = scan.consumeEvent parse := rfl
        simp only [consumed,consumeEvent_consumeEvent]
      · exact running
      · exact sse
    | false =>
      rw [result_body parse running sse]
      split_ifs with blank
      · dsimp only
        rw [result_body parse]
        · dsimp only
          rw [finished,append_nil,if_pos blank]
        · exact running
        · exact sse
      · cases parsed : parse (scanner.pending ++ scanner.decoder.finish) with
        | none =>
          dsimp only
          rw [result_body parse]
          · dsimp only
            rw [finished,append_nil,if_neg blank,parsed]
          · exact running
          · exact sse
        | some event =>
          dsimp only
          rw [result_body parse]
          · dsimp only
            rw [finished,append_nil,if_pos (show trimText [] = [] from rfl)]
          · exact running
          · exact sse

/-- What the scanner tells of a body. -/
structure Tells (contentType : Option String) (body : List UInt8) (scanner : UsageStreamScanner) : Prop where
  sse : scanner.sse = isSseBody contentType body
  observed : (scanner.result parse).1.events.observed = bodyEvents parse contentType body
  usage : (scanner.result parse).2 = usageOf (bodyEvents parse contentType body)

variable {body : List UInt8}

theorem Streaming.tells (streaming : Streaming parse contentType scanner body)
    (fits : WithinLimits body) : Tells parse contentType body scanner := by
  have decided : isSseBody contentType body = true := append_nil body ▸ streaming.decided []
  have lines : LineFeed.lines (decodeAll body) = (split (({} : TextDecoder).decode body).2).2 ++ [scanner.pending ++ scanner.decoder.finish] := by
    rw [LineFeed.lines,decodeAll,split_append_unended _ (finish_unended _),streaming.pending,streaming.decoder]
  obtain ⟨block,blocks,found⟩ := exists_cons_of_ne_nil (eventBlocks_ne_nil (LineFeed.lines (decodeAll body)))
  have read := EventScan.consumeLines parse (show eventBlocks (LineFeed.lines (decodeAll body)) = block :: blocks from found)
    (show ({} : EventScan).droppingEvent = false from rfl) rfl (found ▸ fits.events)
  have events : bodyEvents parse contentType body = (block :: blocks).filterMap (parseEvent parse) := by
    rw [bodyEvents,if_pos decided,found]
  have whole : (scanner.events.consumeLine parse (scanner.pending ++ scanner.decoder.finish)).consumeEvent parse =
      (bodyEvents parse contentType body).foldl EventScan.observe {} := by
    rw [lines,foldl_append,← streaming.events] at read
    rw [events]
    exact read
  have ended := result_stream parse streaming.overflowed streaming.sse
  rw [whole] at ended
  refine ⟨by rw [streaming.sse,decided],?_,?_⟩
  · rw [ended]
    exact EventScan.foldl_observe _ _
  · rw [ended]
    exact EventScan.latest_foldl_observe _

theorem tells_kept (decided : isSseBody contentType body = false)
    (sse : scanner.sse = false) (running : scanner.overflowed = false) (small : ¬ MAX_BUFFERED_BYTES < body.length)
    (text : scanner.pending ++ scanner.decoder.finish = decodeAll body) (events : scanner.events = {}) :
    Tells parse contentType body scanner := by
  have whole := result_body parse running sse
  rw [text,events] at whole
  have single : bodyEvents parse contentType body = if trimText (decodeAll body) = [] then [] else (parse (decodeAll body)).toList := by
    rw [bodyEvents,if_neg (by simp [decided])]
    simp only [small,false_or]
  refine ⟨by rw [sse,decided],?_,?_⟩
  · rw [whole,single]
    split_ifs with blank
    · rfl
    · cases parse (decodeAll body) <;> rfl
  · rw [whole,single]
    split_ifs with blank
    · rfl
    · cases parse (decodeAll body) with
      | none => rfl
      | some parsed =>
        cases ends : isTerminal parsed <;> cases counts : extractResponsesUsage parsed <;> simp [usageOf,ends,counts]

theorem Undecided.tells (undecided : Undecided contentType scanner body) :
    Tells parse contentType body scanner := by
  have short := undecided.short
  apply tells_kept parse _ undecided.sse undecided.overflowed _ _ undecided.events
  · rw [isSseBody,undecided.undeclared,take_of_length_le short.le,undecided.looks]
    rfl
  · unfold MAX_SNIFF_BYTES at short
    unfold MAX_BUFFERED_BYTES
    omega
  · rw [undecided.pending,undecided.decoder]
    rfl

theorem Buffering.tells (buffering : Buffering contentType scanner body) :
    Tells parse contentType body scanner := by
  have decided : isSseBody contentType body = false := append_nil body ▸ buffering.decided []
  cases running : scanner.overflowed with
  | true =>
    have none_left : bodyEvents parse contentType body = [] := by
      rw [bodyEvents,if_neg (by simp [decided]),if_pos (Or.inl (buffering.overflowed.mp running))]
    have ended : scanner.result parse = (scanner,scanner.events.latest) := by rw [result,if_pos running]
    refine ⟨by rw [buffering.sse,decided],?_,?_⟩
    · rw [ended,buffering.events,none_left]
    · rw [ended,buffering.events,none_left]
      rfl
  | false =>
    obtain ⟨decoder,pending,-⟩ := buffering.kept running
    apply tells_kept parse decided buffering.sse running _ _ buffering.events
    · intro large
      have over_limit := buffering.overflowed.mpr large
      rw [running] at over_limit
      cases over_limit
    · rw [pending,decoder]
      rfl

/-- The format, the events and the counts are those of the body, however it was cut,
    and asking for the counts again changes nothing. -/
theorem scan_independent_of_chunks (contentType : Option String) (body : List UInt8)
    (fits : isSseBody contentType body = true → WithinLimits body) (chunks : List (List UInt8)) (cut : chunks.flatten = body) :
    let scanner := chunks.foldl (UsageStreamScanner.push parse) (createUsageStreamScanner contentType)
    Tells parse contentType body scanner ∧ (scanner.result parse).1.result parse = scanner.result parse := by
  intro scanner
  refine ⟨?_,result_result parse scanner⟩
  have whole : chunks.flatten ++ [] = body := by rw [append_nil,cut]
  have scans := Scans.all parse chunks [] (by rw [whole]; exact fits)
  rw [cut] at scans
  obtain undecided | buffering | streaming := scans
  · exact undecided.tells parse
  · exact buffering.tells parse
  · exact streaming.tells parse (fits (append_nil body ▸ streaming.decided []))

end UsageStreamScanner
end

section
attribute [local instance] asciiHost

def endedEvent : List UInt8 := [0x64,0x61,0x74,0x61,0x3A,0x31,0x0D,0x0A,0x0D,0x0A]

def parseOne (text : List Char) : Option Json :=
  if text = ['1'] then some (.obj [("type",.str "response.done"),("usage",.obj [("total_tokens",.num 3)])]) else none

/-- A cut in the field name and one in a line end change nothing. -/
theorem cut_line_end_same :
    UsageStreamScanner.Tells parseOne none endedEvent
      ([endedEvent.take 2,(endedEvent.drop 2).take 5,[],endedEvent.drop 7].foldl (UsageStreamScanner.push parseOne)
        (createUsageStreamScanner none)) :=
  (UsageStreamScanner.scan_independent_of_chunks parseOne none endedEvent (fun _ => ⟨by decide,by decide⟩) _ (by decide)).1

end
end CodexMultiAuth.UsageScan
