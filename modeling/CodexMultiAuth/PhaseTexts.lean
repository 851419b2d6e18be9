import CodexMultiAuth.DoneEvents
import CodexMultiAuth.Segments

/-!
The texts of the phases of a streamed response. A phase keeps the texts of its parts in
the order in which they began there, and beside them their whole, which a delta of the
last part grows without joining them again.
-/
namespace CodexMultiAuth.ResponseHandler
open List
open OrderedMap (joined extend joined_extend keys_mapKeys put_mapKeys remove_mapKeys find_assign assign_find)
open ParsedResponseState (partKey isFailure isTerminal)

/-- The text that names a part. -/
def outputTextKey (key : PartKey) : String := key.1.repr ++ ":" ++ key.2.repr

def makePhaseTextSegmentKey (phase outputTextKey : String) : String := phase ++ "\x00" ++ outputTextKey

theorem toList_outputTextKey (key : PartKey) :
    (outputTextKey key).toList = Nat.toDigits 10 key.1 ++ ':' :: Nat.toDigits 10 key.2 := by
  simp [outputTextKey,Nat.toList_repr]

private theorem absent_of_digits {c : Char} (other : c.isDigit = false) (n : Nat) : c ∉ Nat.toDigits 10 n := by
  intro member
  have digit := Nat.isDigit_of_mem_toDigits (by decide) (by decide) member
  exact absurd (digit.symm.trans other) (by decide)

theorem outputTextKey_injective : Function.Injective outputTextKey := by
  intro key other same
  have texts := congrArg String.toList same
  rw [toList_outputTextKey,toList_outputTextKey,
    append_cons_inj_of_notMem (absent_of_digits (by decide) _) (absent_of_digits (by decide) _)] at texts
  have digits : ∀ n m : Nat, Nat.toDigits 10 n = Nat.toDigits 10 m → n = m := by
    intro n m equal
    have read := congrArg (fun digits => Nat.ofDigitChars 10 digits 0) equal
    simpa using read
  exact Prod.ext (digits _ _ texts.1) (digits _ _ texts.2.2)

private theorem nothing_between {key other : PartKey} {between : List Char}
    (same : '\x00' :: (outputTextKey key).toList = between ++ '\x00' :: (outputTextKey other).toList) : between = [] := by
  cases between with
  | nil => rfl
  | cons c between =>
    have member : '\x00' ∈ (outputTextKey key).toList := by
      rw [(List.cons.inj same).2]
      exact mem_append_right _ mem_cons_self
    rw [toList_outputTextKey,mem_append,mem_cons] at member
    rcases member with digit | colon | digit
    · exact absurd digit (absent_of_digits (by decide) _)
    · exact absurd colon (by decide)
    · exact absurd digit (absent_of_digits (by decide) _)

/-- A phase may hold any character, yet the text of a segment's key names one phase and one part. -/
theorem makePhaseTextSegmentKey_iff (phase other : String) (key otherKey : PartKey) :
    makePhaseTextSegmentKey phase (outputTextKey key) = makePhaseTextSegmentKey other (outputTextKey otherKey) ↔
      phase = other ∧ key = otherKey := by
  constructor
  · intro same
    have texts := congrArg String.toList same
    simp only [makePhaseTextSegmentKey,String.toList_append,append_assoc] at texts
    rcases append_eq_append_iff.mp texts with ⟨between,phases,keys⟩ | ⟨between,phases,keys⟩
    all_goals
      obtain rfl := nothing_between keys
      rw [append_nil,String.toList_inj] at phases
      have names := outputTextKey_injective (String.toList_inj.mp (List.cons.inj keys).2)
    · exact ⟨phases.symm,names⟩
    · exact ⟨phases,names.symm⟩
  · rintro ⟨rfl,rfl⟩
    rfl

/-! ### The segments of a phase -/

namespace ParsedResponseState
variable (state : ParsedResponseState) (phase name other : String) (named : Option Json) (key : PartKey)

def segmentOrder : List PartKey := (state.phaseSegmentOrder.find phase).getD []

/-- The parts that spoke in a phase, in the order of its segments, with what each said there.
    A part that goes on in another phase leaves its segment as it is. -/
def segments : OrderedMap PartKey String :=
  (state.segmentOrder phase).map (fun key => (key,(state.phaseTextSegments.find (phase,key)).getD ""))

/-- The texts of the segments, in their order. -/
def segmentsText : String := String.join ((state.segments phase).map Prod.snd)

/-- What is cached for each phase is the text of its segments. -/
def Cached : Prop := ∀ phase, state.phaseText.find phase = nonEmpty (state.segmentsText phase)

/-- The order of a phase names each of its segments once, and no text is kept beside them. -/
structure Filed : Prop where
  distinct : ∀ phase, (state.segments phase).keys.Nodup
  filed : ∀ phase key, (state.segments phase).find key = state.phaseTextSegments.find (phase,key)

structure Coherent : Prop extends Filed state where
  cached : state.Cached

/-- A segment with its new text, or without any, before the whole is looked at. -/
def fileSegment (text : Option String) : ParsedResponseState :=
  match text with
  | none => { state with phaseTextSegments := state.phaseTextSegments.remove (name,key) }.removePhaseSegmentOrder name key
  | some text =>
    let ordered := state.rememberPhaseSegmentOrder name key
    { ordered with phaseTextSegments := ordered.phaseTextSegments.put (name,key) text }

/-- A part enters a phase, its segment there is filed, and the whole is joined again. -/
def writeSegment (text : Option String) : ParsedResponseState := ((state.enterPhase name key).fileSegment name key text).rebuildPhaseText name

/-- The append without its fast path. -/
def appendRebuilding (delta : String) : ParsedResponseState :=
  match state.partPhase named key with
  | none => state
  | some name => state.writeSegment name key (some ((state.phaseTextSegments.find (name,key)).getD "" ++ delta))

theorem keys_segments : (state.segments phase).keys = state.segmentOrder phase := keys_mapKeys _ _

theorem rebuildPhaseText_eq :
    state.rebuildPhaseText phase = { state with phaseText := state.phaseText.assign phase (nonEmpty (state.segmentsText phase)) } := by
  unfold rebuildPhaseText nonEmpty segmentsText segments segmentOrder
  rw [map_map]
  dsimp only [Function.comp_def]
  split_ifs <;> rfl

theorem setPhaseTextSegment_eq (text : Option String) :
    state.setPhaseTextSegment named key text =
      match state.partPhase named key with
      | none => state
      | some name => state.writeSegment name key (text.bind nonEmpty) := by
  unfold setPhaseTextSegment writeSegment fileSegment
  cases state.partPhase named key with
  | none => rfl
  | some name =>
    dsimp only
    cases text.bind nonEmpty <;> rfl

section
variable (text : Option String)

theorem fields_fileSegment :
    (state.fileSegment name key text).phaseTextSegments = state.phaseTextSegments.assign (name,key) text ∧
      (state.fileSegment name key text).phaseText = state.phaseText ∧
      (state.fileSegment name key text).outputTextPhases = state.outputTextPhases := by
  unfold fileSegment
  cases text with
  | none =>
    unfold removePhaseSegmentOrder
    dsimp only
    split
    · exact ⟨rfl,rfl,rfl⟩
    · split_ifs <;> exact ⟨rfl,rfl,rfl⟩
  | some text =>
    unfold rememberPhaseSegmentOrder
    dsimp only
    split_ifs <;> exact ⟨rfl,rfl,rfl⟩

theorem segmentOrder_fileSegment :
    (state.fileSegment name key text).segmentOrder other =
      if name = other then
        if text.isNone then (state.segmentOrder other).filter (fun one => decide (one ≠ key))
        else if key ∈ state.segmentOrder other then state.segmentOrder other
        else state.segmentOrder other ++ [key]
      else state.segmentOrder other := by
  unfold segmentOrder fileSegment
  by_cases same : name = other
  · subst same
    rw [if_pos rfl]
    cases text with
    | none =>
      unfold removePhaseSegmentOrder
      rw [Option.isNone_none,if_pos rfl]
      dsimp only
      cases found : state.phaseSegmentOrder.find name with
      | none => simp [found]
      | some order =>
        dsimp only
        split_ifs with emptied
        · simpa using emptied
        · simp
    | some text =>
      unfold rememberPhaseSegmentOrder
      by_cases known : key ∈ (state.phaseSegmentOrder.find name).getD []
      · simp [known]
      · simp [known]
  · rw [if_neg same]
    cases text with
    | none =>
      unfold removePhaseSegmentOrder
      dsimp only
      split
      · rfl
      · split_ifs <;> simp [same]
    | some text =>
      unfold rememberPhaseSegmentOrder
      dsimp only
      split_ifs <;> simp [same]

variable {state}

theorem Filed.segments_fileSegment (filed : state.Filed) :
    (state.fileSegment name key text).segments other =
      if name = other then (state.segments other).assign key text else state.segments other := by
  have distinct := filed.distinct other
  rw [keys_segments] at distinct
  unfold segments
  rw [segmentOrder_fileSegment,(fields_fileSegment state name key text).1]
  by_cases same : name = other
  · subst same
    rw [if_pos rfl,if_pos rfl]
    cases text with
    | none =>
      rw [Option.isNone_none,if_pos rfl]
      refine Eq.trans (map_congr_left ?_) (remove_mapKeys _ _ key).symm
      intro one member
      have apart : key ≠ one := Ne.symm (of_decide_eq_true (mem_filter.mp member).2)
      simp [apart]
    | some text =>
      rw [Option.isNone_some,if_neg Bool.false_ne_true]
      have written := put_mapKeys distinct (fun key => (state.phaseTextSegments.find (name,key)).getD "") key text
      have alike : ∀ one, ((state.phaseTextSegments.assign (name,key) (some text)).find (name,one)).getD "" =
          if key = one then text else (state.phaseTextSegments.find (name,one)).getD "" := by
        intro one
        by_cases here : key = one <;> simp [here]
      simp only [alike]
      by_cases known : key ∈ state.segmentOrder name
      · rw [if_pos known] at written ⊢
        exact written.symm
      · rw [if_neg known] at written ⊢
        exact written.symm
  · rw [if_neg same,if_neg same]
    exact map_congr_left (fun one _ => by simp [same])

theorem Filed.fileSegment (filed : state.Filed) : (state.fileSegment name key text).Filed := by
  constructor
  · intro other
    rw [filed.segments_fileSegment]
    split_ifs
    · cases text with
      | none => exact OrderedMap.nodup_remove (filed.distinct other) key
      | some text => exact OrderedMap.nodup_put (filed.distinct other) key text
    · exact filed.distinct other
  · intro other one
    rw [filed.segments_fileSegment,(fields_fileSegment state name key text).1,find_assign,← filed.filed]
    by_cases same : name = other
    · rw [if_pos same,find_assign]
      simp [same]
    · rw [if_neg same]
      simp [same]

theorem Filed.segments_writeSegment (filed : state.Filed) :
    (state.writeSegment name key text).segments other =
      if name = other then (state.segments other).assign key text else state.segments other := by
  have entered : (state.enterPhase name key).Filed := ⟨filed.distinct,filed.filed⟩
  unfold writeSegment
  rw [rebuildPhaseText_eq]
  exact entered.segments_fileSegment name other key text

theorem Coherent.writeSegment (coherent : state.Coherent) : (state.writeSegment name key text).Coherent := by
  have entered : (state.enterPhase name key).Filed := ⟨coherent.distinct,coherent.filed⟩
  have after := entered.fileSegment name key text
  have fields := fields_fileSegment (state.enterPhase name key) name key text
  unfold ParsedResponseState.writeSegment
  rw [rebuildPhaseText_eq]
  refine ⟨⟨after.distinct,after.filed⟩,fun other => ?_⟩
  dsimp only
  rw [fields.2.1,find_assign]
  by_cases same : name = other
  · rw [if_pos same,same]
    rfl
  · rw [if_neg same]
    unfold segmentsText
    refine (coherent.cached other).trans (congrArg (fun segments => nonEmpty (String.join (List.map Prod.snd segments))) ?_)
    exact ((entered.segments_fileSegment name other key text).trans (if_neg same)).symm

end

theorem phaseTextSegments_remember : (state.rememberPhaseSegmentOrder name key).phaseTextSegments = state.phaseTextSegments := by
  unfold rememberPhaseSegmentOrder
  dsimp only
  split <;> rfl

theorem appendPhaseTextSegment_files (delta : String) :
    state.appendPhaseTextSegment named key delta =
      match state.partPhase named key with
      | none => state
      | some name =>
        let grown := (state.enterPhase name key).fileSegment name key (some ((state.phaseTextSegments.find (name,key)).getD "" ++ delta))
        if (grown.segmentOrder name).getLast? = some key then
          { grown with phaseText := grown.phaseText.put name ((grown.phaseText.find name).getD "" ++ delta) }
        else grown.rebuildPhaseText name := by
  unfold appendPhaseTextSegment fileSegment
  cases state.partPhase named key with
  | none => rfl
  | some name =>
    dsimp only
    rw [phaseTextSegments_remember]
    rfl

theorem segmentsText_eq : state.segmentsText phase = joined (· ++ ·) "" (state.segments phase) := by
  unfold segmentsText joined
  induction (state.segments phase).map Prod.snd with
  | nil => rfl
  | cons first texts ih => rw [String.join_cons,ih,foldr_cons]

instance : Std.LawfulIdentity (fun one two : String => one ++ two) "" where
  left_id _ := String.empty_append
  right_id _ := String.append_empty

variable {state}

/-- A delta of the part that is last in its phase, or new there, grows the phase's text at its end. -/
theorem Filed.segmentsText_last (filed : state.Filed) {grown : ParsedResponseState} {delta : String}
    (files : grown = state.fileSegment name key (some ((state.phaseTextSegments.find (name,key)).getD "" ++ delta)))
    (last : (grown.segmentOrder name).getLast? = some key) : grown.segmentsText name = state.segmentsText name ++ delta := by
  have extended : grown.segments name = extend (· ++ ·) "" (state.segments name) key delta := by
    rw [files,filed.segments_fileSegment,if_pos rfl,extend,filed.filed]
    rfl
  rw [← keys_segments,extended] at last
  rw [segmentsText_eq,segmentsText_eq,extended,joined_extend _ _ (filed.distinct name) last]

/-- The fast path comes to the same state as a rebuild. -/
theorem Coherent.appendPhaseTextSegment_eq (coherent : state.Coherent) {delta : String} (spoken : delta ≠ "") :
    state.appendPhaseTextSegment named key delta = state.appendRebuilding named key delta := by
  rw [appendPhaseTextSegment_files,appendRebuilding]
  cases state.partPhase named key with
  | none => rfl
  | some name =>
    dsimp only
    have entered : (state.enterPhase name key).Filed := ⟨coherent.distinct,coherent.filed⟩
    unfold ParsedResponseState.writeSegment
    obtain ⟨grown,files⟩ : ∃ grown, grown = (state.enterPhase name key).fileSegment name key
      (some ((state.phaseTextSegments.find (name,key)).getD "" ++ delta)) := ⟨_,rfl⟩
    rw [← files]
    split_ifs with last
    · have longer : nonEmpty (state.segmentsText name ++ delta) = some (state.segmentsText name ++ delta) := if_neg (by simp [spoken])
      have cached : grown.phaseText.find name = nonEmpty (state.segmentsText name) := by
        rw [files,(fields_fileSegment _ _ _ _).2.1]
        exact coherent.cached name
      have grows : grown.segmentsText name = state.segmentsText name ++ delta := entered.segmentsText_last name key files last
      rw [rebuildPhaseText_eq,grows,cached,nonEmpty_getD,longer]
      rfl
    · rfl

end ParsedResponseState

/-! ### What the events say -/

/-- The phase that each part spoke in last, and what was said in each phase: its parts in the
    order in which they began there, with their texts. -/
structure PhaseLedger where
  phaseOf : PartKey → Option String
  segments : String → OrderedMap PartKey String

namespace PhaseLedger

/-- The text of a part changes in the phase that is named, or else in the one it spoke in last.
    A delta without text says nothing, not even its phase. -/
def speak (ledger : PhaseLedger) (named : Option Json) (key : PartKey) (change : Change) : PhaseLedger :=
  if change = .delta none ∨ change = .delta (some "") then ledger
  else
    match phaseName named <|> ledger.phaseOf key with
    | none => ledger
    | some phase =>
      let before := ledger.segments phase
      { phaseOf := Function.update ledger.phaseOf key (some phase)
        segments := Function.update ledger.segments phase (before.assign key (change.applied (before.find key))) }

end PhaseLedger

/-- The part of the output text that an event is about, the phase it names and what it brings. -/
def speechOf (event : Record) : Option (Option Json × PartKey × Change) :=
  let type := event.find "type"
  let key := partKey (event.number "output_index") (event.number "content_index")
  if type = some (.str "response.output_text.delta") then key.map (fun key => (event.find "phase",key,.delta (event.text "delta")))
  else if type = some (.str "response.output_text.done") then key.map (fun key => (event.find "phase",key,.done (event.text "text")))
  else if type = some (.str "response.content_part.added") ∨ type = some (.str "response.content_part.done") then
    match event.record "part" with
    | none => none
    | some part =>
      if getStringField part "type" = some "output_text" then key.map (fun key => (part.find "phase",key,.done (part.text "text")))
      else none
  else none

theorem speechOf_end {event : Record} (ends : isFailure (event.find "type") = true ∨ isTerminal (event.find "type") = true) :
    speechOf event = none := by
  simp only [isFailure,isTerminal,Bool.or_eq_true,decide_eq_true_eq] at ends
  rcases ends with (found | found) | (found | found) | found
  all_goals
    unfold speechOf
    rw [found]
    rfl

def PhaseLedger.hear (ledger : PhaseLedger) : Json → PhaseLedger
  | .obj event =>
    match speechOf event with
    | some (named,key,change) => ledger.speak named key change
    | none => ledger
  | _ => ledger

theorem PhaseLedger.hear_fails (ledger : PhaseLedger) {data : Json} (failed : fails data = true) : ledger.hear data = ledger := by
  cases data with
  | obj event =>
    unfold hear
    dsimp only
    rw [speechOf_end (Or.inl failed)]
  | _ => rfl

/-- What the events say up to one that fails. -/
def ledgerOf (events : List Json) : PhaseLedger :=
  (events.takeWhile (fun data => !fails data)).foldl PhaseLedger.hear ⟨fun _ => none,fun _ => []⟩

namespace ParsedResponseState
variable {state : ParsedResponseState} (named : Option Json) (name : String) (key : PartKey) (change : Change)

def ledger (state : ParsedResponseState) : PhaseLedger := ⟨fun key => (state.outputTextPhases.find key).bind nonEmpty,state.segments⟩

def speak (state : ParsedResponseState) (named : Option Json) (key : PartKey) (change : Change) : ParsedResponseState :=
  match change with
  | .delta text =>
    match text.filter (fun text => decide (text ≠ "")) with
    | some delta => state.appendPhaseTextSegment named key delta
    | none => state
  | .added text => state.setPhaseTextSegment named key (unlessBlank text)
  | .done text => state.setPhaseTextSegment named key (unlessBlank text)

theorem nonEmpty_again (text : String) : (nonEmpty text).bind nonEmpty = nonEmpty text := by
  by_cases empty : text = "" <;> simp [nonEmpty,empty]

theorem nonEmpty_partPhase (found : state.partPhase named key = some name) : nonEmpty name = some name := by
  have filled {whole : String} (here : nonEmpty whole = some name) : nonEmpty name = some name := by
    rw [← here,← nonEmpty_again whole,here,Option.bind_some]
  rw [partPhase] at found
  cases here : phaseName named with
  | some phase =>
    rw [here] at found
    obtain ⟨_,-,trimmed⟩ := Option.bind_eq_some_iff.mp (here.trans found)
    exact filled trimmed
  | none =>
    rw [here] at found
    obtain ⟨_,-,before⟩ := Option.bind_eq_some_iff.mp found
    exact filled before

theorem Coherent.speak_eq (coherent : state.Coherent) :
    state.speak named key change =
      if change = .delta none ∨ change = .delta (some "") then state
      else
        match state.partPhase named key with
        | none => state
        | some name => state.writeSegment name key (change.applied (state.phaseTextSegments.find (name,key))) := by
  have sets (text : Option String) : state.setPhaseTextSegment named key (unlessBlank text) =
      match state.partPhase named key with
      | none => state
      | some name => state.writeSegment name key (unlessBlank text) := by
    rw [setPhaseTextSegment_eq,unlessBlank_eq,nonEmpty_again]
  cases change with
  | delta text =>
    cases text with
    | none => rfl
    | some text =>
      by_cases empty : text = ""
      · subst empty; rfl
      · have spoken : (some text).filter (fun text => decide (text ≠ "")) = some text := by simp [empty]
        unfold speak Change.applied
        dsimp only
        rw [spoken,if_neg (by simp [empty])]
        dsimp only
        rw [coherent.appendPhaseTextSegment_eq named key empty,appendRebuilding]
  | added text => exact sets text
  | done text => exact sets text

theorem Coherent.speak (coherent : state.Coherent) : (state.speak named key change).Coherent := by
  rw [coherent.speak_eq]
  split_ifs
  · exact coherent
  · split
    · exact coherent
    · exact coherent.writeSegment _ _ _

theorem Coherent.ledger_speak (coherent : state.Coherent) :
    (state.speak named key change).ledger = state.ledger.speak named key change := by
  rw [coherent.speak_eq,PhaseLedger.speak]
  split_ifs
  · rfl
  show _ = match state.partPhase named key with | none => _ | some phase => _
  cases found : state.partPhase named key with
  | none => rfl
  | some name =>
    dsimp only
    unfold ledger
    rw [← coherent.filed]
    congr 1
    · have fields (text : Option String) : (state.writeSegment name key text).outputTextPhases = state.outputTextPhases.put key name := by
        unfold ParsedResponseState.writeSegment
        rw [rebuildPhaseText_eq]
        exact (fields_fileSegment _ _ _ _).2.2
      funext one
      rw [fields,OrderedMap.find_put,Function.update_apply]
      by_cases here : key = one
      · rw [if_pos here,if_pos here.symm]
        exact nonEmpty_partPhase named name key found
      · rw [if_neg here,if_neg (Ne.symm here)]
    · funext other
      rw [coherent.segments_writeSegment,Function.update_apply]
      by_cases same : name = other
      · rw [if_pos same,if_pos same.symm,same]
      · rw [if_neg same,if_neg (Ne.symm same)]

/-! ### Events -/

/-- What the texts of the phases are kept in. -/
def phases (state : ParsedResponseState) :=
  (state.outputTextPhases,state.phaseTextSegments,state.phaseSegmentOrder,state.phaseText)

theorem Coherent.of_phases {other : ParsedResponseState} (same : other.phases = state.phases) (coherent : state.Coherent) :
    other.Coherent ∧ other.ledger = state.ledger := by
  obtain ⟨⟩ := state
  obtain ⟨⟩ := other
  simp only [phases,Prod.mk.injEq] at same
  obtain ⟨rfl,rfl,rfl,rfl⟩ := same
  exact ⟨⟨⟨coherent.distinct,coherent.filed⟩,coherent.cached⟩,rfl⟩

/-- A step whose one effect on the texts is what is spoken. -/
def Utters (state next : ParsedResponseState) (speech : Option (Option Json × PartKey × Change)) : Prop :=
  ∃ before : ParsedResponseState, before.phases = state.phases ∧
    next.phases = (match speech with
      | some (named,key,change) => before.speak named key change
      | none => before).phases

theorem utters_none {next : ParsedResponseState} (same : next.phases = state.phases) : Utters state next none := ⟨state,rfl,same⟩

theorem phases_capturePhase (state : ParsedResponseState) (phase : Option Json) : (state.capturePhase phase).phases = state.phases := by
  unfold capturePhase
  split <;> rfl

section
variable (outputIndex partIndex : Option ℚ) (text : Option String)

theorem utters_setOutputTextValue : Utters state (state.setOutputTextValue outputIndex partIndex (unlessBlank text) named)
    ((partKey outputIndex partIndex).map (fun key => (named,key,.done text))) := by
  unfold setOutputTextValue
  cases partKey outputIndex partIndex with
  | none => exact utters_none rfl
  | some key =>
    refine ⟨{ state with outputText := state.outputText.assign key (unlessBlank text) },rfl,?_⟩
    dsimp only [Option.map_some,speak]
    cases unlessBlank text <;> rfl

theorem utters_appendOutputTextValue :
    Utters state (state.appendOutputTextValue outputIndex partIndex (text.filter (fun text => decide (text ≠ ""))) named)
      ((partKey outputIndex partIndex).map (fun key => (named,key,.delta text))) := by
  unfold appendOutputTextValue
  cases partKey outputIndex partIndex with
  | none =>
    refine utters_none ?_
    split
    · contradiction
    · rfl
  | some key =>
    dsimp only [Option.map_some]
    cases spoken : text.filter (fun text => decide (text ≠ "")) with
    | none =>
      refine ⟨state,rfl,?_⟩
      dsimp only [speak]
      rw [spoken]
    | some delta =>
      refine ⟨{ state with outputText := state.outputText.put key ((state.outputText.find key).getD "" ++ delta) },rfl,?_⟩
      dsimp only [speak]
      rw [spoken]

theorem utters_reasoningSummary :
    Utters state (state.setReasoningSummaryValue outputIndex partIndex text) none ∧
      Utters state (state.appendReasoningSummaryValue outputIndex partIndex text) none := by
  unfold setReasoningSummaryValue appendReasoningSummaryValue
  refine ⟨utters_none ?_,utters_none ?_⟩
  · split
    · rfl
    · split <;> rfl
  · split <;> rfl

end

theorem utters_captureProgress (event : Record) : Utters state (state.captureProgress event) (speechOf event) := by
  unfold captureProgress speechOf
  dsimp only
  generalize event.find "type" = type
  by_cases item : type = some (.str "response.output_item.added") ∨ type = some (.str "response.output_item.done")
  · rw [if_pos item]
    have quiet : Utters state (state.upsertOutputItem (event.number "output_index") (event.find "item")) none := by
      unfold upsertOutputItem
      split
      · exact utters_none (phases_capturePhase _ _)
      · exact utters_none rfl
    rcases item with rfl | rfl
    · exact quiet
    · exact quiet
  rw [if_neg item]
  by_cases delta : type = some (.str "response.output_text.delta")
  · rw [if_pos delta,if_pos delta]
    exact utters_appendOutputTextValue _ _ _ _
  rw [if_neg delta,if_neg delta]
  by_cases done : type = some (.str "response.output_text.done")
  · rw [if_pos done,if_pos done]
    exact utters_setOutputTextValue _ _ _ _
  rw [if_neg done,if_neg done]
  by_cases part : type = some (.str "response.content_part.added") ∨ type = some (.str "response.content_part.done")
  · rw [if_pos part,if_pos part]
    cases event.record "part" with
    | none => exact utters_none rfl
    | some part =>
      dsimp only
      split_ifs
      · exact utters_setOutputTextValue _ _ _ _
      · exact utters_none (phases_capturePhase _ _)
  rw [if_neg part,if_neg part]
  split_ifs
  · exact (utters_reasoningSummary _ _ _).2
  · exact (utters_reasoningSummary _ _ _).1
  · exact (utters_reasoningSummary _ _ _).1
  · exact utters_none (phases_capturePhase _ _)

theorem Coherent.hear (coherent : state.Coherent) (data : Json) (onResponseId : Bool) :
    (state.maybeCaptureResponseEvent data onResponseId).1.Coherent ∧
      (state.maybeCaptureResponseEvent data onResponseId).1.ledger = state.ledger.hear data := by
  have utters : ∀ {next : ParsedResponseState} {speech}, Utters state next speech → next.Coherent ∧ next.ledger =
      match speech with
      | some (named,key,change) => state.ledger.speak named key change
      | none => state.ledger := by
    rintro next speech ⟨before,same,spoken⟩
    obtain ⟨sound,alike⟩ := coherent.of_phases same
    cases speech with
    | none => exact coherent.of_phases (spoken.trans same)
    | some speech =>
      obtain ⟨named,key,change⟩ := speech
      obtain ⟨kept,heard⟩ := (sound.speak named key change).of_phases spoken
      exact ⟨kept,heard.trans ((sound.ledger_speak named key change).trans (by rw [alike]))⟩
  cases data with
  | obj event =>
    unfold maybeCaptureResponseEvent PhaseLedger.hear
    dsimp only
    split_ifs with failure terminal
    · rw [speechOf_end (Or.inl failure)]
      exact utters (show Utters state { state with encounteredError := true } none from ⟨state,rfl,rfl⟩)
    · rw [speechOf_end (Or.inr terminal)]
      refine utters (utters_none ?_)
      unfold notifyResponseId
      split
      · split <;> rfl
      · split_ifs <;> split <;> rfl
    · exact utters (utters_captureProgress event)
  | _ => exact ⟨coherent,rfl⟩

theorem Coherent.captureEvents (coherent : state.Coherent) (running : state.encounteredError = false) (onResponseId : Bool) (events : List Json) :
    (captureEvents onResponseId events state).Coherent ∧
      (captureEvents onResponseId events state).ledger =
        (events.takeWhile (fun data => !fails data)).foldl PhaseLedger.hear state.ledger := by
  induction events generalizing state with
  | nil => exact ⟨coherent,rfl⟩
  | cons data events ih =>
    obtain ⟨kept,heard⟩ := coherent.hear data onResponseId
    have failed := encounteredError_maybeCapture onResponseId running data
    rw [ResponseHandler.captureEvents,takeWhile_cons,failed]
    cases stops : fails data with
    | true => exact ⟨kept,heard.trans (state.ledger.hear_fails stops)⟩
    | false =>
      have onwards := ih kept (failed.trans stops)
      rw [heard] at onwards
      exact onwards

theorem Coherent.setPhaseTextSegment (coherent : state.Coherent) (text : Option String) :
    (state.setPhaseTextSegment named key text).Coherent := by
  rw [setPhaseTextSegment_eq]
  split
  · exact coherent
  · exact coherent.writeSegment _ _ _

theorem Coherent.applyOutputText (coherent : state.Coherent) (output : List Json) (entry : PartKey × String) :
    (applyOutputText output state entry).2.Coherent := by
  unfold ParsedResponseState.applyOutputText
  dsimp only
  split
  · exact coherent.setPhaseTextSegment _ _ _
  · exact coherent

/-- The texts that the final response brings keep the phases as their segments are. -/
theorem Coherent.applyAccumulatedOutputText (coherent : state.Coherent) (response : Record) :
    (applyAccumulatedOutputText response state).2.Coherent := by
  have each (entries : List (PartKey × String)) (done : List Json × ParsedResponseState) (before : done.2.Coherent) :
      (entries.foldl (fun done entry => ParsedResponseState.applyOutputText done.1 done.2 entry) done).2.Coherent := by
    induction entries generalizing done with
    | nil => exact before
    | cons entry entries ih => exact ih _ (before.applyOutputText done.1 entry)
  unfold ParsedResponseState.applyAccumulatedOutputText
  split_ifs
  · exact coherent
  · exact each _ _ coherent

theorem coherent_empty : ({} : ParsedResponseState).Coherent :=
  ⟨⟨fun _ => nodup_nil,fun _ _ => rfl⟩,fun _ => rfl⟩

end ParsedResponseState

open ParsedResponseState in
/-- After any events the cached text of each phase is the texts of its segments, joined in their
    order; the segments are those that the events spoke. Joining them again changes nothing, an
    append comes to the same with its fast path and without, and so it stays when the final
    response brings texts of its own. -/
theorem phase_text_joins_segments (onResponseId : Bool) (events : List Json) :
    (captureEvents onResponseId events {}).Cached ∧
      (captureEvents onResponseId events {}).segments = (ledgerOf events).segments ∧
      (∀ phase, (captureEvents onResponseId events {}).rebuildPhaseText phase = captureEvents onResponseId events {}) ∧
      (∀ phase key delta, delta ≠ "" →
        (captureEvents onResponseId events {}).appendPhaseTextSegment phase key delta =
          (captureEvents onResponseId events {}).appendRebuilding phase key delta) ∧
      ∀ response, (applyAccumulatedOutputText response (captureEvents onResponseId events {})).2.Cached := by
  obtain ⟨coherent,heard⟩ := coherent_empty.captureEvents rfl onResponseId events
  refine ⟨coherent.cached,congrArg PhaseLedger.segments heard,fun phase => ?_,
    fun phase key delta spoken => coherent.appendPhaseTextSegment_eq phase key spoken,
    fun response => (coherent.applyAccumulatedOutputText response).cached⟩
  rw [rebuildPhaseText_eq,← coherent.cached phase,OrderedMap.assign_find]

/-- Two parts by turns: the second is ended with another text, the first goes on in another phase. -/
def interleaved : List Json :=
  let event := fun (type : String) (content : ℚ) (phase field text : String) =>
    Json.obj [("type",.str type),("output_index",.num 0),("content_index",.num content),("phase",.str phase),(field,.str text)]
  [event "response.output_text.delta" 0 "commentary" "delta" "A",event "response.output_text.delta" 1 " commentary " "delta" "B",
    event "response.output_text.delta" 0 "" "delta" "C",event "response.output_text.done" 1 "" "text" "D",
    event "response.output_text.delta" 0 "final_answer" "delta" "E"]

theorem interleaved_joins_segments :
    (captureEvents false interleaved {}).phaseText = [("commentary","ACD"),("final_answer","E")] ∧
      (captureEvents false interleaved {}).appendPhaseTextSegment none (0,1) "F" =
        (captureEvents false interleaved {}).appendRebuilding none (0,1) "F" :=
  ⟨by decide,(phase_text_joins_segments false interleaved).2.2.2.1 none (0,1) "F" (by decide)⟩

end CodexMultiAuth.ResponseHandler
