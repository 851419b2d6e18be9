import CodexMultiAuth.ToolPairing

/-!
The trimming of long inputs: the short instructions at the head of an input and its last
items stay.
-/
namespace CodexMultiAuth.FastSession
open SessionAffinity (Text)
open ToolPairing List Option

/-- A part of the content of a message. -/
inductive Part where
  | string (text : Text)
  | object (text : Option Text)
  | other

def Part.shown : Part → Text
  | .string text => text
  | .object text => text.getD []
  | .other => []

/-- The parts of a value that is an array. -/
class Contents (Value : Type) where
  parts : Value → Option (List Part)

section
variable {Value : Type} [Contents Value]

def extractMessageText : Property Value → Text
  | .text content => content
  | .other value => ((Contents.parts value).map fun parts => [10].intercalate ((parts.map Part.shown).filter fun text => !text.isEmpty)).getD []
  | .absent => []

def isInstruction (item : InputItem Value) : Bool :=
  match item.role with
  | .text role => decide (role = ascii "developer") || decide (role = ascii "system")
  | _ => false

/-- No other characters have the lower case `user`. -/
def isUser (item : InputItem Value) : Bool :=
  match item.role with
  | .text role => decide (role.map (fun c => if 65 ≤ c ∧ c ≤ 90 then c + 32 else c) = ascii "user")
  | _ => false

def MAX_HEAD_INSTRUCTION_CHARS : ℕ := 1200

def MAX_HEAD_INSTRUCTION_CHARS_TRIVIAL : ℕ := 400

def short (item : InputItem Value) : Bool := decide ((extractMessageText item.content).length ≤ MAX_HEAD_INSTRUCTION_CHARS)

def keepFrom {α : Type} (keep : ℕ → Bool) (i : ℕ) : List α → List α
  | [] => []
  | item :: rest => if keep i then item :: keepFrom keep (i + 1) rest else keepFrom keep (i + 1) rest

/-- The first instruction, where it is short, and the last message of the user. -/
def latestIndexes (input : List (InputItem Value)) : List ℕ :=
  ((input.findIdx? isInstruction).filter fun i =>
    input[i]?.any fun item => decide ((extractMessageText item.content).length ≤ MAX_HEAD_INSTRUCTION_CHARS_TRIVIAL)).toList ++
    ((input.reverse.findIdx? isUser).map fun i => input.length - 1 - i).toList

/-- The indexes of the leading instructions that stay, and of those that are too long. -/
def headIndexes (keptHead i : ℕ) : List (InputItem Value) → List ℕ × List ℕ
  | [] => ([],[])
  | item :: rest =>
    if keptHead < 2 ∧ isInstruction item = true then
      if short item then (i :: (headIndexes (keptHead + 1) (i + 1) rest).1,(headIndexes (keptHead + 1) (i + 1) rest).2)
      else ((headIndexes keptHead (i + 1) rest).1,i :: (headIndexes keptHead (i + 1) rest).2)
    else ([],[])

def safeMax (maxItems : ℚ) : ℕ := (max 8 ⌊maxItems⌋).toNat

/-- None where the input itself is returned. -/
def trimInputForFastSession (input : List (InputItem Value)) (maxItems : ℚ) (preferLatestUserOnly : Bool) : Option (List (InputItem Value)) :=
  let compacted := keepFrom (fun i => (latestIndexes input).contains i) 0 input
  if preferLatestUserOnly && !compacted.isEmpty then some compacted
  else
    let kept := (headIndexes 0 0 input).1
    let excluded := (headIndexes 0 0 input).2
    let tailStart := input.length - safeMax maxItems
    let trimmed := keepFrom (fun i => kept.contains i || (decide (tailStart ≤ i) && !excluded.contains i)) 0 input
    if trimmed.isEmpty then none
    else if (input.length : ℚ) ≤ maxItems ∧ excluded = [] then none
    else if trimmed.length ≤ safeMax maxItems then some trimmed
    else some (trimmed.take kept.length ++ trimmed.drop (trimmed.length - max 1 (safeMax maxItems - kept.length)))

structure RequestBody (Value : Type) where
  model : Option Text
  input : Option (List (InputItem Value))

structure DeferredFastSessionInputTrim where
  maxItems : ℚ
  preferLatestUserOnly : Bool

inductive CompactionMode where
  | compacted
  | trimmed
  | unchanged
  deriving DecidableEq

structure ResponseCompactionResult (Value : Type) where
  body : RequestBody Value
  mode : CompactionMode

/-- The properties of a payload that are arrays of records. -/
structure Payload (Value : Type) where
  output : Option (List (InputItem Value))
  input : Option (List (InputItem Value))

/-- What comes of the request: a payload that is a record has a response that may be one too. -/
inductive Fetched (Value : Type) where
  | response (ok : Bool) (payload : Option (Payload Value × Option (Payload Value)))
  | thrown (aborted : Bool)

def extractCompactedInput (payload : Option (Payload Value × Option (Payload Value))) : Option (List (InputItem Value)) :=
  payload.bind fun (record,response) => record.output <|> record.input <|> response.bind fun record => record.output <|> record.input

def createFallbackBody (body : RequestBody Value) (trim : DeferredFastSessionInputTrim) : Option (RequestBody Value) :=
  body.input.bind fun input => (trimInputForFastSession input trim.maxItems trim.preferLatestUserOnly).map fun trimmed => { body with input := some trimmed }

/-- None where the call throws. -/
def applyResponseCompaction (compaction : Option Text → Bool) (body : RequestBody Value) (trim : DeferredFastSessionInputTrim) (fetched : Fetched Value) :
    Option (ResponseCompactionResult Value) :=
  match createFallbackBody body trim with
  | none => some ⟨body,.unchanged⟩
  | some fallbackBody =>
    if compaction body.model then
      match fetched with
      | .response true payload =>
        match extractCompactedInput payload with
        | some (item :: rest) => some ⟨{ body with input := some (item :: rest) },.compacted⟩
        | _ => some ⟨fallbackBody,.trimmed⟩
      | .response false _ => some ⟨fallbackBody,.trimmed⟩
      | .thrown true => none
      | .thrown false => some ⟨fallbackBody,.trimmed⟩
    else some ⟨fallbackBody,.trimmed⟩

/-! ### What stays -/

/-- The leading instructions that are looked at. -/
def lead (keptHead : ℕ) : List (InputItem Value) → List (InputItem Value)
  | [] => []
  | item :: rest => if keptHead < 2 ∧ isInstruction item = true then item :: lead (if short item then keptHead + 1 else keptHead) rest else []

def heads (input : List (InputItem Value)) : List (InputItem Value) := (lead 0 input).filter short

theorem lead_append (keptHead : ℕ) (input : List (InputItem Value)) : lead keptHead input ++ input.drop (lead keptHead input).length = input := by
  induction input generalizing keptHead with
  | nil => rfl
  | cons item rest ih =>
    rw [lead]
    split_ifs
    · exact congrArg (item :: ·) (ih _)
    · exact congrArg (item :: ·) (ih _)
    · rfl

theorem filter_lead {keptHead : ℕ} (few : keptHead ≤ 2) (input : List (InputItem Value)) :
    (lead keptHead input).filter short = ((input.takeWhile isInstruction).filter short).take (2 - keptHead) := by
  induction input generalizing keptHead with
  | nil => simp [lead]
  | cons item rest ih =>
    rw [lead]
    by_cases instruction : isInstruction item = true
    · by_cases room : keptHead < 2
      · obtain ⟨more,size⟩ : ∃ more, 2 - keptHead = more + 1 := ⟨2 - (keptHead + 1),by omega⟩
        by_cases fits : short item = true
        · have next := ih (show keptHead + 1 ≤ 2 by omega)
          simp only [room,instruction,fits,and_self,if_true,filter_cons,takeWhile_cons,size,take_succ_cons,next]
          rw [show 2 - (keptHead + 1) = more by omega]
        · simp [room,instruction,fits,ih few]
      · have full : 2 - keptHead = 0 := by omega
        simp [room,full]
    · simp [instruction]

theorem length_headIndexes (keptHead i : ℕ) (input : List (InputItem Value)) : (headIndexes keptHead i input).1.length = ((lead keptHead input).filter short).length := by
  induction input generalizing keptHead i with
  | nil => rfl
  | cons item rest ih =>
    rw [headIndexes,lead]
    split_ifs with looked fits
    · simp [fits,ih]
    · simp [fits,ih]
    · rfl

variable {input : List (InputItem Value)}

theorem le_headIndexes {keptHead i : ℕ} :
    (∀ j ∈ (headIndexes keptHead i input).1, i ≤ j) ∧ ∀ j ∈ (headIndexes keptHead i input).2, i ≤ j := by
  induction input generalizing keptHead i with
  | nil => simp [headIndexes]
  | cons item rest ih =>
    rw [headIndexes]
    split_ifs with looked fits
    · have later := @ih (keptHead + 1) (i + 1)
      refine ⟨fun j member => ?_,fun j member => Nat.le_of_succ_le (later.2 j member)⟩
      rcases mem_cons.mp member with rfl | member
      · exact le_rfl
      · exact Nat.le_of_succ_le (later.1 j member)
    · have later := @ih keptHead (i + 1)
      refine ⟨fun j member => Nat.le_of_succ_le (later.1 j member),fun j member => ?_⟩
      rcases mem_cons.mp member with rfl | member
      · exact le_rfl
      · exact Nat.le_of_succ_le (later.2 j member)
    · simp

theorem keepFrom_congr {α : Type} {keep other : ℕ → Bool} {i : ℕ} (same : ∀ j, i ≤ j → keep j = other j) (l : List α) : keepFrom keep i l = keepFrom other i l := by
  induction l generalizing i with
  | nil => rfl
  | cons item rest ih => rw [keepFrom,keepFrom,same i le_rfl,ih fun j later => same j (Nat.le_of_succ_le later)]

theorem keepFrom_drop {α : Type} (start i : ℕ) (l : List α) : keepFrom (fun j => decide (start ≤ j)) i l = l.drop (start - i) := by
  induction l generalizing i with
  | nil => rw [drop_nil,keepFrom]
  | cons item rest ih =>
    rw [keepFrom,ih]
    by_cases past : start ≤ i
    · simp [past,show start - i = 0 by omega,show start - (i + 1) = 0 by omega]
    · rw [show start - i = start - (i + 1) + 1 by omega]
      simp [past]

theorem mem_keepFrom {α : Type} {keep : ℕ → Bool} {i : ℕ} {l : List α} {item : α} : item ∈ keepFrom keep i l ↔ ∃ j, l[j]? = some item ∧ keep (i + j) = true := by
  induction l generalizing i with
  | nil => simp [keepFrom]
  | cons first rest ih =>
    have later : (∃ j, (first :: rest)[j]? = some item ∧ keep (i + j) = true) ↔ (first = item ∧ keep i = true) ∨ item ∈ keepFrom keep (i + 1) rest := by
      rw [ih]
      constructor
      · rintro ⟨j,found,keeps⟩
        cases j with
        | zero => exact Or.inl ⟨some.inj found,keeps⟩
        | succ j => exact Or.inr ⟨j,found,by rwa [Nat.add_right_comm,Nat.add_assoc]⟩
      · rintro (⟨rfl,keeps⟩ | ⟨j,found,keeps⟩)
        · exact ⟨0,rfl,keeps⟩
        · exact ⟨j + 1,found,by rwa [← Nat.add_assoc,Nat.add_right_comm]⟩
    rw [later,keepFrom]
    cases keep i <;> simp [eq_comm]

theorem keepFrom_heads (start : ℕ) {keptHead i : ℕ} {keep : ℕ → Bool} (same : ∀ j, i ≤ j →
      keep j = ((headIndexes keptHead i input).1.contains j || (decide (start ≤ j) && !(headIndexes keptHead i input).2.contains j))) :
    keepFrom keep i input = (lead keptHead input).filter short ++ (input.drop (lead keptHead input).length).drop (start - (i + (lead keptHead input).length)) := by
  induction input generalizing keptHead i with
  | nil => simp [keepFrom,lead]
  | cons item rest ih =>
    have shift (n : ℕ) : i + (n + 1) = i + 1 + n := by omega
    by_cases looked : keptHead < 2 ∧ isInstruction item = true
    · rw [headIndexes,if_pos looked] at same
      rw [lead,if_pos looked]
      by_cases fits : short item = true
      · rw [if_pos fits] at same ⊢
        have here : keep i = true := by simp [same i le_rfl]
        have later := @ih (keptHead + 1) (i + 1) fun j past => by simp [same j (by omega),show j ≠ i by omega]
        rw [keepFrom,if_pos here,later,filter_cons_of_pos fits,length_cons,drop_succ_cons,shift (lead _ rest).length,cons_append]
      · rw [if_neg fits] at same ⊢
        have here : ¬keep i = true := by
          have gone : i ∉ (headIndexes keptHead (i + 1) rest).1 := fun member => absurd (le_headIndexes.1 i member) (by omega)
          simp [same i le_rfl,gone]
        have later := @ih keptHead (i + 1) fun j past => by simp [same j (by omega),show j ≠ i by omega]
        rw [keepFrom,if_neg here,later,filter_cons_of_neg fits,length_cons,drop_succ_cons,shift (lead _ rest).length]
    · rw [headIndexes,if_neg looked] at same
      have agrees : ∀ j, i ≤ j → keep j = decide (start ≤ j) := fun j past => by simp [same j past]
      rw [lead,if_neg looked,keepFrom_congr agrees (item :: rest),keepFrom_drop]
      rfl

def turns (input : List (InputItem Value)) : List (InputItem Value) := input.drop (lead 0 input).length

theorem heads_eq (input : List (InputItem Value)) : heads input = ((input.takeWhile isInstruction).filter short).take 2 := filter_lead (by omega) input

theorem length_heads (input : List (InputItem Value)) : (heads input).length ≤ 2 := by
  rw [heads_eq,length_take]
  exact min_le_left _ _

theorem eight_le_safeMax (maxItems : ℚ) : 8 ≤ safeMax maxItems := by
  rw [safeMax]
  omega

variable {input out : List (InputItem Value)}

theorem trimmed_eq {maxItems : ℚ} (trimmed : trimInputForFastSession input maxItems false = some out) :
    out = heads input ++ (turns input).drop ((turns input).length - (safeMax maxItems - (heads input).length)) := by
  unfold trimInputForFastSession at trimmed
  dsimp only at trimmed
  rw [keepFrom_heads (input.length - safeMax maxItems) (fun j _ => rfl),Nat.zero_add,length_headIndexes,← heads,← turns] at trimmed
  have parts : (lead 0 input).length + (turns input).length = input.length := by rw [← length_append,turns,lead_append]
  have few := length_heads input
  have room := eight_le_safeMax maxItems
  rw [show input.length - safeMax maxItems - (lead 0 input).length = (turns input).length - safeMax maxItems by omega] at trimmed
  simp only [Bool.false_and,Bool.false_eq_true,if_false] at trimmed
  split_ifs at trimmed with empty whole fits
  · rw [length_append,length_drop] at fits
    rw [← some.inj trimmed]
    congr 2
    omega
  · rw [length_append,length_drop] at fits
    have cut : ((turns input).drop ((turns input).length - safeMax maxItems)).length = (turns input).length - ((turns input).length - safeMax maxItems) := length_drop
    rw [← some.inj trimmed,take_left' rfl,length_append,drop_append,cut,drop_of_length_le (by omega),nil_append,drop_drop]
    congr 2
    omega

/-- What a trimmed input is to be. -/
structure Fits (input : List (InputItem Value)) (maxItems : ℚ) (out : List (InputItem Value)) : Prop where
  order : out.Sublist input
  size : (out.length : ℤ) ≤ max 8 ⌊maxItems⌋
  heads : ((input.takeWhile isInstruction).filter short).take 2 <+: out
  last : ∀ item, input.getLast? = some item → ¬((∀ other ∈ input, isInstruction other = true) ∧ short item = false) → out.getLast? = some item

theorem lead_instructions {keptHead : ℕ} : ∀ item ∈ lead keptHead input, isInstruction item = true := by
  induction input generalizing keptHead with
  | nil => simp [lead]
  | cons first rest ih =>
    rw [lead]
    split_ifs with looked
    · exact forall_mem_cons.mpr ⟨looked.2,ih⟩
    · exact forall_mem_cons.mpr ⟨looked.2,ih⟩
    · exact forall_mem_nil _

theorem fits {maxItems : ℚ} (trimmed : trimInputForFastSession input maxItems false = some out) : Fits input maxItems out := by
  have few := length_heads input
  have room := eight_le_safeMax maxItems
  have whole : lead 0 input ++ turns input = input := lead_append 0 input
  obtain rfl := trimmed_eq trimmed
  refine ⟨?_,?_,?_,?_⟩
  · conv_rhs => rw [← whole]
    exact filter_sublist.append (drop_sublist _ _)
  · have bound : (safeMax maxItems : ℤ) = max 8 ⌊maxItems⌋ := Int.toNat_of_nonneg (by omega)
    rw [length_append,length_drop,← bound]
    omega
  · rw [← heads_eq]
    exact prefix_append _ _
  · intro item last kept
    by_cases none_ : turns input = []
    · rw [none_,append_nil] at whole
      have short_ : short item = true := by
        by_contra long
        refine kept ⟨?_,Bool.eq_false_iff.mpr long⟩
        rw [← whole]
        exact lead_instructions
      obtain ⟨init,rfl⟩ := List.getLast?_eq_some_iff.mp last
      simp [none_,heads,whole,short_]
    · have some_ : (turns input).length - ((turns input).length - (safeMax maxItems - (heads input).length)) ≠ 0 := by
        have := length_pos_iff.mpr none_
        omega
      rw [← whole,List.getLast?_append_of_ne_nil _ none_] at last
      rw [List.getLast?_append_of_ne_nil _ fun nothing => some_ (by rw [← length_drop,nothing]; rfl),List.getLast?_drop,if_neg (by omega)]
      exact last

/-! ### Pairs -/

/-- Every output has its call and every call its output. -/
structure Coherent (input : List (InputItem Value)) : Prop where
  referring : Referring input
  answering : Answering input

/-- Whether the item at an index stays in an input that is cut. -/
def Stays (input : List (InputItem Value)) (trim : DeferredFastSessionInputTrim) (i : ℕ) : Prop :=
  if trim.preferLatestUserOnly = true ∧ latestIndexes input ≠ [] then i ∈ latestIndexes input
  else (i < (lead 0 input).length ∧ ∀ item, input[i]? = some item → short item = true) ∨
    (lead 0 input).length ≤ i ∧ input.length - (safeMax trim.maxItems - (heads input).length) ≤ i

/-- No pair has a half that stays and no other half that does. -/
structure Uncut (input : List (InputItem Value)) (stays : ℕ → Prop) : Prop where
  outputs : ∀ i output kind callId, stays i → input[i]? = some output → itemKind output = .output kind → getCallId output = some callId →
    ∃ j call called, stays j ∧ input[j]? = some call ∧ itemKind call = .call called ∧ compatible kind called = true ∧ getCallId call = some callId
  calls : ∀ i call called callId, stays i → input[i]? = some call → itemKind call = .call called → getCallId call = some callId →
    ∃ j output kind, stays j ∧ input[j]? = some output ∧ itemKind output = .output kind ∧ compatible kind called = true ∧ getCallId output = some callId

theorem latestIndexes_lt {i : ℕ} (member : i ∈ latestIndexes input) : i < input.length := by
  unfold latestIndexes at member
  rcases mem_append.mp member with first | last
  · rw [mem_toList,filter_eq_some_iff] at first
    exact (List.findIdx?_eq_some_iff_getElem.mp first.1).1
  · rw [mem_toList,map_eq_some_iff] at last
    obtain ⟨j,found,rfl⟩ := last
    have := (List.findIdx?_eq_some_iff_getElem.mp found).1
    rw [length_reverse] at this
    omega

theorem trim_of_none {prefer : Bool} (none_ : ¬(prefer = true ∧ latestIndexes input ≠ [])) (maxItems : ℚ) :
    trimInputForFastSession input maxItems prefer = trimInputForFastSession input maxItems false := by
  cases prefer with
  | false => rfl
  | true =>
    have nothing : latestIndexes input = [] := by
      by_contra some_
      exact none_ ⟨rfl,some_⟩
    have compacted : keepFrom (fun i => (latestIndexes input).contains i) 0 input = [] := by
      refine eq_nil_iff_forall_not_mem.mpr fun item member => ?_
      obtain ⟨j,-,keeps⟩ := mem_keepFrom.mp member
      simp [nothing] at keeps
    simp only [trimInputForFastSession,compacted,isEmpty_nil,Bool.not_true,Bool.and_false]

variable {trim : DeferredFastSessionInputTrim}

theorem mem_trimmed
    (trimmed : trimInputForFastSession input trim.maxItems trim.preferLatestUserOnly = some out) {item : InputItem Value} :
    item ∈ out ↔ ∃ i, Stays input trim i ∧ input[i]? = some item := by
  by_cases latest : trim.preferLatestUserOnly = true ∧ latestIndexes input ≠ []
  · have filled : (keepFrom (fun i => (latestIndexes input).contains i) 0 input).isEmpty = false := by
      obtain ⟨i,member⟩ := exists_mem_of_ne_nil _ latest.2
      refine isEmpty_eq_false_iff.mpr (ne_nil_of_mem (mem_keepFrom.mpr ⟨i,List.getElem?_eq_getElem (latestIndexes_lt member),?_⟩))
      simpa using member
    rw [trimInputForFastSession,latest.1] at trimmed
    dsimp only at trimmed
    rw [filled,if_pos (show (true && !false) = true from rfl)] at trimmed
    rw [← some.inj trimmed,mem_keepFrom]
    simp [Stays,latest,and_comm]
  · rw [trim_of_none latest] at trimmed
    have whole : lead 0 input ++ turns input = input := lead_append 0 input
    have front {i : ℕ} (early : i < (lead 0 input).length) : input[i]? = (lead 0 input)[i]? := by
      conv_lhs => rw [← whole]
      exact List.getElem?_append_left early
    have size : (lead 0 input).length + (turns input).length = input.length := by rw [← length_append,whole]
    simp only [trimmed_eq trimmed,Stays,if_neg latest,mem_append,or_and_right,exists_or]
    refine or_congr ?_ ?_
    · rw [heads,mem_filter,mem_iff_getElem?]
      constructor
      · rintro ⟨⟨i,found⟩,short_⟩
        have early := (List.getElem?_eq_some_iff.mp found).1
        rw [← front early] at found
        refine ⟨i,⟨early,fun other here => ?_⟩,found⟩
        rwa [some.inj (here.symm.trans found)]
      · rintro ⟨i,⟨early,short_⟩,found⟩
        exact ⟨⟨i,front early ▸ found⟩,short_ item found⟩
    · rw [mem_iff_getElem?]
      constructor
      · rintro ⟨i,found⟩
        rw [turns,List.getElem?_drop,List.getElem?_drop,← turns] at found
        exact ⟨_,⟨Nat.le_add_right _ _,by omega⟩,found⟩
      · rintro ⟨i,⟨late,near_⟩,found⟩
        refine ⟨i - (lead 0 input).length - ((turns input).length - (safeMax trim.maxItems - (heads input).length)),?_⟩
        rw [turns,List.getElem?_drop,List.getElem?_drop,← turns,← found]
        congr 1
        omega

theorem coherent_iff (coherent : Coherent input)
    (trimmed : trimInputForFastSession input trim.maxItems trim.preferLatestUserOnly = some out) : Coherent out ↔ Uncut input (Stays input trim) := by
  constructor
  · rintro ⟨referring,answering⟩
    constructor
    · intro i output kind callId stays found same id
      obtain ⟨callId_,id_,call,member,called,kinds,fits_,shared⟩ := referring output ((mem_trimmed trimmed).mpr ⟨i,stays,found⟩) kind same
      obtain rfl := some.inj (id.symm.trans id_)
      obtain ⟨j,also_,there⟩ := (mem_trimmed trimmed).mp member
      exact ⟨j,call,called,also_,there,kinds,fits_,shared⟩
    · intro i call called callId stays found same id
      obtain ⟨output,member,kind,kinds,fits_,shared⟩ := answering call ((mem_trimmed trimmed).mpr ⟨i,stays,found⟩) called callId same id
      obtain ⟨j,also_,there⟩ := (mem_trimmed trimmed).mp member
      exact ⟨j,output,kind,also_,there,kinds,fits_,shared⟩
  · rintro ⟨outputs,calls⟩
    constructor
    · intro output member kind same
      obtain ⟨i,stays,found⟩ := (mem_trimmed trimmed).mp member
      obtain ⟨callId,id,-⟩ := coherent.referring output (mem_of_getElem? found) kind same
      obtain ⟨j,call,called,also_,there,kinds,fits_,shared⟩ := outputs i output kind callId stays found same id
      exact ⟨callId,id,call,(mem_trimmed trimmed).mpr ⟨j,also_,there⟩,called,kinds,fits_,shared⟩
    · intro call member called callId same id
      obtain ⟨i,stays,found⟩ := (mem_trimmed trimmed).mp member
      obtain ⟨j,output,kind,also_,there,kinds,fits_,shared⟩ := calls i call called callId stays found same id
      exact ⟨output,(mem_trimmed trimmed).mpr ⟨j,also_,there⟩,kind,kinds,fits_,shared⟩

theorem trimmed_body {compaction : Option Text → Bool} {body : RequestBody Value} {fetched : Fetched Value}
    {result : ResponseCompactionResult Value} (done : applyResponseCompaction compaction body trim fetched = some result) (mode : result.mode = .trimmed) :
    createFallbackBody body trim = some result.body := by
  unfold applyResponseCompaction at done
  split at done
  · rw [← some.inj done] at mode
    nomatch mode
  · next fallback made =>
    rw [made]
    split_ifs at done
    · split at done
      · split at done
        · rw [← some.inj done] at mode
          nomatch mode
        · rw [← some.inj done]
      · rw [← some.inj done]
      · nomatch done
      · rw [← some.inj done]
    · rw [← some.inj done]

/-- A trimmed input has the leading instructions and the last items of the input, in order; the
    deferred trim keeps the pairs of a paired input just where it cuts none. -/
theorem trimmed_paired_iff_uncut (compaction : Option Text → Bool) {body : RequestBody Value} {input : List (InputItem Value)} (given : body.input = some input)
    (coherent : Coherent input) (trim : DeferredFastSessionInputTrim) (fetched : Fetched Value) :
    (∀ (items : List (InputItem Value)) maxItems out, trimInputForFastSession items maxItems false = some out → Fits items maxItems out) ∧
      ∀ result, applyResponseCompaction compaction body trim fetched = some result → result.mode = .trimmed →
        ∃ out, result.body.input = some out ∧ (Coherent out ↔ Uncut input (Stays input trim)) := by
  refine ⟨fun _ _ _ => fits,fun result done mode => ?_⟩
  have made := trimmed_body done mode
  rw [createFallbackBody,given,bind_some,map_eq_some_iff] at made
  obtain ⟨out,trimmed,same⟩ := made
  exact ⟨out,by rw [← same],coherent_iff coherent trimmed⟩

end

instance : Contents Empty where
  parts value := nomatch value

def message : InputItem Empty := { type := .text (ascii "message"),role := .text (ascii "user"),content := .text (ascii "hi") }

def call : InputItem Empty := { type := .text (callType .function),call_id := .text (ascii "c") }

def output : InputItem Empty := { type := .text (outputType .function),call_id := .text (ascii "c"),output := .text (ascii "done") }

theorem coherent_of {input : List (InputItem Empty)} (called : call ∈ input) (answered : output ∈ input) (all_ : ∀ item ∈ input, item = message ∨ item = call ∨ item = output) :
    Coherent input := by
  have id : getCallId call = some (ascii "c") := by decide +kernel
  constructor
  · intro item member kind same
    rcases all_ item member with rfl | rfl | rfl
    · exact absurd same (by cases kind <;> decide +kernel)
    · exact absurd same (by cases kind <;> decide +kernel)
    · obtain rfl : .function = kind := ItemKind.output.inj (.trans (by decide +kernel) same)
      exact ⟨ascii "c",by decide +kernel,call,called,.function,by decide +kernel,rfl,id⟩
  · intro item member kind callId same found
    rcases all_ item member with rfl | rfl | rfl
    · exact absurd same (by cases kind <;> decide +kernel)
    · obtain rfl : .function = kind := ItemKind.call.inj (.trans (by decide +kernel) same)
      obtain rfl := some.inj (id.symm.trans found)
      exact ⟨output,answered,.function,by decide +kernel,rfl,by decide +kernel⟩
    · exact absurd same (by cases kind <;> decide +kernel)

/-- A pair among the last items stays. -/
theorem late_pair_stays : ∃ out, (applyResponseCompaction (fun _ => false) ⟨none,some (List.replicate 7 message ++ [call,output])⟩ ⟨8,false⟩ (.thrown false)).bind
      (fun result => result.body.input) = some out ∧
    Coherent out ∧ Uncut (List.replicate 7 message ++ [call,output]) (Stays (List.replicate 7 message ++ [call,output]) ⟨8,false⟩) := by
  have given : (⟨none,some (List.replicate 7 message ++ [call,output])⟩ : RequestBody Empty).input = some (List.replicate 7 message ++ [call,output]) := rfl
  obtain ⟨-,trims⟩ := trimmed_paired_iff_uncut (fun _ => false) given (coherent_of (by simp) (by simp) (by simp)) ⟨8,false⟩ (.thrown false)
  obtain ⟨out,made,paired⟩ := trims ⟨⟨none,some (List.replicate 6 message ++ [call,output])⟩,.trimmed⟩ rfl rfl
  obtain rfl := some.inj made
  have coherent : Coherent (List.replicate 6 message ++ [call,output]) := coherent_of (by simp) (by simp) (by simp)
  exact ⟨_,rfl,coherent,paired.mp coherent⟩

/-- The call of the last output goes. -/
theorem early_call_goes : ¬∀ (compaction : Option Text → Bool) (body : RequestBody Empty) input, body.input = some input → Coherent input → ∀ trim fetched result,
    applyResponseCompaction compaction body trim fetched = some result → result.mode = .trimmed → ∃ out, result.body.input = some out ∧ Coherent out := by
  intro all_
  obtain ⟨out,same,coherent⟩ := all_ (fun _ => false) ⟨none,some (call :: List.replicate 7 message ++ [output])⟩ _ rfl
    (coherent_of (by simp) (by simp) (by simp)) ⟨8,false⟩ (.thrown false) ⟨⟨none,some (List.replicate 7 message ++ [output])⟩,.trimmed⟩ rfl rfl
  obtain rfl := some.inj same
  obtain ⟨callId,-,called,member,kind,same,-⟩ := coherent.referring output (by simp) .function (by decide +kernel)
  rcases mem_append.mp member with front | back
  · rw [eq_of_mem_replicate front] at same
    exact absurd same (by cases kind <;> decide +kernel)
  · rw [mem_singleton.mp back] at same
    exact absurd same (by cases kind <;> decide +kernel)

end CodexMultiAuth.FastSession
