import CodexMultiAuth.SessionStore

/-!
When a repair that reports success has repaired the session. A strip passes over a part
that it cannot read, and one message that is repaired speaks for all the others.
-/
namespace CodexMultiAuth.SessionStore

open List

def records {α : Type} (valid : Json → Option α) (dir : Dir) : List α :=
  (dir.filter StoredFile.isJson).filterMap (fun file => file.content.bind valid)

def Store.storedParts (store : Store) (messageID : SafeId) : List StoredPart := records isValidStoredPart ((store.parts messageID).getD [])

def Store.assistants (store : Store) : List SafeId :=
  ((records isValidStoredMessage (store.messages.getD [])).filter isAssistant).map StoredMessageMeta.id

variable {α : Type} {dir : Dir}
variable {valid : Json → Option α}

theorem mem_records {record : α} :
    record ∈ records valid dir ↔ ∃ file ∈ dir, file.isJson = true ∧ file.content.bind valid = some record := by
  simp only [records,mem_filterMap,mem_filter,and_assoc]

theorem records_cons (valid : Json → Option α) (file : StoredFile) (dir : Dir) :
    records valid (file :: dir) = (if file.isJson = true then (file.content.bind valid).toList else []) ++ records valid dir := by
  by_cases json : file.isJson = true
  · cases record : file.content.bind valid <;> simp [records,json,record]
  · simp [records,json]

theorem records_append (valid : Json → Option α) (dir more : Dir) :
    records valid (dir ++ more) = records valid dir ++ records valid more := by simp [records]

theorem readFiles_records (valid : Json → Option α) (faults : ReadFaults) (dir : Dir) :
    records valid (readFiles valid faults dir).2 = records valid dir := by
  induction dir with
  | nil => rfl
  | cons file rest ih =>
    rw [readFiles]
    split
    · rw [records_cons,records_cons,ih]
    · next passes =>
      rw [not_or,Bool.not_eq_false] at passes
      split
      · rw [records_cons,records_cons,ih]
      · next invalid =>
        split
        · rw [records_cons,records_cons,ih]
        · rw [records_cons,if_pos passes.1,invalid,ih]
          rfl

variable {file : StoredFile}

theorem mem_readFiles {faults : ReadFaults}
    (record : (file.content.bind valid).isSome) : file ∈ (readFiles valid faults dir).2 ↔ file ∈ dir := by
  induction dir with
  | nil => rfl
  | cons other rest ih =>
    rw [readFiles]
    split
    · rw [mem_cons,mem_cons,ih]
    · split
      · rw [mem_cons,mem_cons,ih]
      · next invalid =>
        have different : file ≠ other := by
          rintro rfl
          rw [invalid] at record
          cases record
        split
        · rw [mem_cons,mem_cons,ih]
        · rw [mem_cons,ih]
          exact ⟨.inr,fun member => member.resolve_left different⟩

theorem readFiles_subset (valid : Json → Option α) (faults : ReadFaults) (dir : Dir) : (readFiles valid faults dir).2 ⊆ dir := by
  induction dir with
  | nil => exact List.Subset.refl _
  | cons file rest ih =>
    rw [readFiles]
    split
    · exact cons_subset_cons file ih
    · split
      · exact cons_subset_cons file ih
      · split
        · exact cons_subset_cons file ih
        · exact subset_cons_of_subset file ih

theorem readFiles_none (valid : Json → Option α) (dir : Dir) : (readFiles valid .none dir).1 = records valid dir := by
  induction dir with
  | nil => rfl
  | cons file rest ih =>
    rw [readFiles,records_cons]
    split
    · next passed =>
      have other : ¬ file.isJson = true := by simpa [ReadFaults.none] using passed
      rw [if_neg other,ih]
      rfl
    · next passes =>
      rw [not_or,Bool.not_eq_false] at passes
      rw [if_pos passes.1]
      split
      · next record found =>
        rw [found,ih]
        rfl
      · next invalid =>
        rw [invalid,ih]
        rfl

theorem readDirectory_records (valid : Json → Option α) (faults : ReadFaults) (dir : Option Dir) :
    records valid ((readDirectory valid faults dir).2.getD []) = records valid (dir.getD []) := by
  cases dir with
  | none => rfl
  | some files =>
    rw [readDirectory]
    split
    · rfl
    · exact readFiles_records valid faults files

theorem mem_readDirectory {faults : ReadFaults} {dir : Option Dir}
    (record : (file.content.bind valid).isSome) : file ∈ (readDirectory valid faults dir).2.getD [] ↔ file ∈ dir.getD [] := by
  cases dir with
  | none => rfl
  | some files =>
    rw [readDirectory]
    split
    · rfl
    · exact mem_readFiles record

theorem readDirectory_subset (valid : Json → Option α) (faults : ReadFaults) (dir : Option Dir) :
    (readDirectory valid faults dir).2.getD [] ⊆ dir.getD [] := by
  cases dir with
  | none => exact List.Subset.refl _
  | some files =>
    rw [readDirectory]
    split
    · exact List.Subset.refl _
    · exact readFiles_subset valid faults files

theorem readDirectory_none (valid : Json → Option α) (dir : Option Dir) :
    (readDirectory valid .none dir).1 = records valid (dir.getD []) := by
  cases dir with
  | none => rfl
  | some files => exact readFiles_none valid files

/-- Two stores with the same records. -/
structure SameRecords (s t : Store) : Prop where
  messages : records isValidStoredMessage (s.messages.getD []) = records isValidStoredMessage (t.messages.getD [])
  parts : ∀ messageID, s.storedParts messageID = t.storedParts messageID
  files : ∀ messageID file, (file.content.bind isValidStoredPart).isSome →
    (file ∈ (s.parts messageID).getD [] ↔ file ∈ (t.parts messageID).getD [])
  fewer : ∀ messageID, (s.parts messageID).getD [] ⊆ (t.parts messageID).getD []

theorem SameRecords.refl (s : Store) : SameRecords s s := ⟨rfl,fun _ => rfl,fun _ _ _ => Iff.rfl,fun _ => List.Subset.refl _⟩

theorem SameRecords.trans {s t u : Store} (first : SameRecords s t) (second : SameRecords t u) : SameRecords s u :=
  ⟨first.messages.trans second.messages,fun messageID => (first.parts messageID).trans (second.parts messageID),
    fun messageID file record => (first.files messageID file record).trans (second.files messageID file record),
    fun messageID => List.Subset.trans (first.fewer messageID) (second.fewer messageID)⟩

theorem SameRecords.assistants {s t : Store} (same : SameRecords s t) : s.assistants = t.assistants := by
  rw [Store.assistants,Store.assistants,same.messages]

theorem setParts_parts (store : Store) (messageID other : SafeId) (dir : Option Dir) :
    (store.setParts messageID dir).parts other = if other = messageID then dir else store.parts other := by
  by_cases same : other = messageID
  · rw [if_pos same,same]
    exact Function.update_self _ _ _
  · rw [if_neg same]
    exact Function.update_of_ne same _ _

theorem readParts_same (store : Store) (messageID : SafeId) (faults : ReadFaults) : SameRecords (readParts store messageID faults).2 store := by
  refine ⟨rfl,fun other => ?_,fun other file record => ?_,fun other => ?_⟩
  · rw [Store.storedParts,Store.storedParts,readParts,setParts_parts]
    by_cases same : other = messageID
    · rw [if_pos same,same]
      exact readDirectory_records _ _ _
    · rw [if_neg same]
  · rw [readParts,setParts_parts]
    by_cases same : other = messageID
    · rw [if_pos same,same]
      exact mem_readDirectory record
    · rw [if_neg same]
  · rw [readParts,setParts_parts]
    by_cases same : other = messageID
    · rw [if_pos same,same]
      exact readDirectory_subset _ _ _
    · rw [if_neg same]
      exact List.Subset.refl _

theorem readMessages_same (store : Store) (faults : ReadFaults) : SameRecords (readMessages store faults).2 store :=
  ⟨readDirectory_records _ _ _,fun _ => rfl,fun _ _ _ => Iff.rfl,fun _ => List.Subset.refl _⟩

theorem findAmong_same (test : List StoredPart → Bool) (faults : ℕ → ReadFaults) (messages : List StoredMessageMeta) (position : ℕ) (store : Store) :
    SameRecords (findAmong test faults messages position store).2 store := by
  induction messages generalizing position store with
  | nil => exact .refl store
  | cons message rest ih =>
    rw [findAmong]
    split
    · exact (ih _ _).trans (readParts_same store message.id _)
    · exact ih _ _

theorem findMessages_same (test : List StoredPart → Bool) (store : Store) (faults : ScanFaults) :
    SameRecords (findMessages test store faults).2 store :=
  (findAmong_same test faults.parts _ 0 _).trans (readMessages_same store faults.messages)

theorem targetMessage_same (store : Store) (targetIndex : Option ℕ) (faults : BlockOrderFaults) :
    SameRecords (targetMessage store targetIndex faults).2 store := by
  cases targetIndex with
  | none => exact .refl store
  | some index =>
    rw [targetMessage]
    rw [findMessageByIndexNeedingThinking]
    have read := readMessages_same store faults.targetMessages
    split
    · exact read
    · split
      · exact (readParts_same _ _ _).trans read
      · exact read

variable {store : Store}

/-- Without a fault a search finds just the messages of the assistant whose stored parts
    pass. -/
theorem findAmong_none {test : List StoredPart → Bool} {messages : List StoredMessageMeta} {position : ℕ} :
    (findAmong test (fun _ => .none) messages position store).1 = [] ↔
      ∀ message ∈ messages, isAssistant message = true → test (store.storedParts message.id) = false := by
  induction messages generalizing position store with
  | nil => simp [findAmong]
  | cons message rest ih =>
    rw [findAmong]
    by_cases assistant : isAssistant message = true
    · rw [if_pos assistant]
      have read : (readParts store message.id .none).1 = store.storedParts message.id := readDirectory_none _ _
      have same := (readParts_same store message.id .none).parts
      dsimp only
      rw [read]
      cases found : test (store.storedParts message.id) with
      | true => simp [found,assistant]
      | false => simp [found,ih,same]
    · rw [if_neg assistant]
      simp [assistant,ih]

theorem findMessages_none {test : List StoredPart → Bool} :
    (findMessages test store .none).1 = [] ↔ ∀ messageID ∈ store.assistants, test (store.storedParts messageID) = false := by
  have read : ∀ message, message ∈ (readMessages store .none).1 ↔ message ∈ records isValidStoredMessage (store.messages.getD []) := by
    intro message
    rw [readMessages]
    dsimp only
    rw [mem_insertionSort,readDirectory_none]
  rw [findMessages,ScanFaults.none]
  dsimp only
  rw [findAmong_none]
  simp only [Store.assistants,mem_map,mem_filter]
  constructor
  · rintro all messageID ⟨message,⟨member,assistant⟩,rfl⟩
    have := all message ((read message).mpr member) assistant
    rwa [(readMessages_same store .none).parts] at this
  · intro all message member assistant
    rw [(readMessages_same store .none).parts]
    exact all message.id ⟨message,⟨(read message).mp member,assistant⟩,rfl⟩

/-! ### Stripping thinking parts -/

/-- The strip reads the file and removes it. -/
def StripFaults.takes (faults : StripFaults) (file : StoredFile) : Prop :=
  faults.read file.name = false ∧ file.isThinking = true ∧ faults.remove file.name = false

instance (faults : StripFaults) (file : StoredFile) : Decidable (faults.takes file) := inferInstanceAs (Decidable (_ ∧ _))

/-- Some thinking part is removed, and each that is read is. -/
def StripFaults.succeeds (faults : StripFaults) (dir : Dir) : Prop :=
  faults.list = false ∧ (∃ file ∈ dir, faults.takes file) ∧
    ∀ file ∈ dir, file.isThinking = true → faults.read file.name = false → faults.remove file.name = false

variable {faults : StripFaults}

/-- The files that stay, and whether one was removed and one could not be. -/
theorem stripFiles_spec (dir : Dir) : (stripFiles faults dir).1 = dir.filter (fun file => !decide (faults.takes file)) ∧
    ((stripFiles faults dir).2.1 = true ↔ ∃ file ∈ dir, faults.takes file) ∧
      ((stripFiles faults dir).2.2 = false ↔
        ∀ file ∈ dir, file.isThinking = true → faults.read file.name = false → faults.remove file.name = false) := by
  induction dir with
  | nil => simp [stripFiles]
  | cons file rest ih =>
    obtain ⟨kept,removed,failed⟩ := ih
    rw [stripFiles,filter_cons]
    by_cases read : faults.read file.name = true
    · simp [read,StripFaults.takes,kept,removed,failed]
    · by_cases thinking : file.isThinking = true
      · cases fails : faults.remove file.name <;> simp [read,thinking,fails,StripFaults.takes,kept,removed,failed]
      · simp [thinking,StripFaults.takes,kept,removed,failed]

variable {messageID : SafeId}

theorem stripThinkingParts_true :
    (stripThinkingParts store messageID faults).1 = true ↔ faults.succeeds ((store.parts messageID).getD []) := by
  rw [stripThinkingParts]
  cases found : store.parts messageID with
  | none => simp [StripFaults.succeeds]
  | some dir =>
    cases unlisted : faults.list with
    | true => simp [StripFaults.succeeds,unlisted]
    | false => simp [StripFaults.succeeds,unlisted,stripFiles_spec]

theorem mem_stripThinkingParts {messageID other : SafeId} :
    file ∈ ((stripThinkingParts store messageID faults).2.parts other).getD [] ↔
      file ∈ (store.parts other).getD [] ∧ ¬ (messageID = other ∧ faults.list = false ∧ faults.takes file) := by
  rw [stripThinkingParts]
  cases found : store.parts messageID with
  | none =>
    dsimp only
    constructor
    · intro member
      refine ⟨member,?_⟩
      rintro ⟨rfl,_⟩
      rw [found] at member
      cases member
    · exact fun member => member.1
  | some dir =>
    dsimp only
    cases unlisted : faults.list with
    | true => simp
    | false =>
      rw [if_neg (by decide)]
      dsimp only
      rw [setParts_parts]
      by_cases same : other = messageID
      · rw [if_pos same,same,found,(stripFiles_spec _).1]
        simp
      · rw [if_neg same]
        simp [Ne.symm same]

theorem stripThinkingParts_clean_iff (store : Store) (messageID : SafeId) (faults : StripFaults) :
    ((stripThinkingParts store messageID faults).1 = true →
        ∀ file ∈ ((stripThinkingParts store messageID faults).2.parts messageID).getD [], file.isThinking = false) ↔
      (faults.succeeds ((store.parts messageID).getD []) →
        ∀ file ∈ (store.parts messageID).getD [], file.isThinking = true → faults.read file.name = false) := by
  rw [stripThinkingParts_true]
  refine forall_congr' (fun succeeds => ?_)
  constructor
  · intro clean file member thinking
    by_contra unread
    have left := clean file (mem_stripThinkingParts.mpr ⟨member,fun taken => unread taken.2.2.1⟩)
    rw [left] at thinking
    cases thinking
  · intro read file left
    obtain ⟨member,stays⟩ := mem_stripThinkingParts.mp left
    by_contra thinking
    rw [Bool.not_eq_false] at thinking
    have seen := read file member thinking
    exact stays ⟨rfl,succeeds.1,seen,thinking,succeeds.2.2 file member thinking seen⟩

/-- The file is read and written. -/
def ReplaceFaults.replaces (faults : ReplaceFaults) (file : StoredFile) : Prop :=
  faults.read file.name = false ∧ faults.write file.name = false

variable {replacementText : String}

theorem emptyTextPart_replaced {fields : Record} (text : trim replacementText ≠ "")
    : emptyTextPart { file with content := some (replacedText fields replacementText) } = none := by
  rw [emptyTextPart,replacedText]
  dsimp only
  rw [if_neg]
  rintro ⟨-,-,empty⟩
  rw [hasEmptyText,OrderedMap.find_put,if_neg (by decide),OrderedMap.find_put,if_pos rfl] at empty
  exact text (of_decide_eq_true empty)

theorem replaceFiles_true {faults : ReplaceFaults} :
    (replaceFiles replacementText faults dir).2 = true ↔ ∃ file ∈ dir, (emptyTextPart file).isSome ∧ faults.replaces file := by
  induction dir with
  | nil => simp [replaceFiles]
  | cons file rest ih =>
    rw [replaceFiles]
    cases empty : emptyTextPart file with
    | none => simp [empty,ih]
    | some fields =>
      cases read : faults.read file.name <;> cases write : faults.write file.name <;>
        simp [empty,read,write,ReplaceFaults.replaces,ih]

theorem replaceFiles_clean (text : trim replacementText ≠ "") {faults : ReplaceFaults} :
    (∀ file ∈ (replaceFiles replacementText faults dir).1, emptyTextPart file = none) ↔
      ∀ file ∈ dir, (emptyTextPart file).isSome → faults.replaces file := by
  induction dir with
  | nil => simp [replaceFiles]
  | cons file rest ih =>
    rw [replaceFiles]
    cases empty : emptyTextPart file with
    | none => simp [empty,ih]
    | some fields =>
      have replaced : emptyTextPart { file with content := some (replacedText fields _) } = none := emptyTextPart_replaced text
      cases read : faults.read file.name <;> cases write : faults.write file.name <;>
        simp [empty,read,write,ReplaceFaults.replaces,ih,replaced]

theorem replaceEmptyTextParts_clean_iff (store : Store) (messageID : SafeId) (text : trim replacementText ≠ "")
    (faults : ReplaceFaults) :
    ((replaceEmptyTextParts store messageID replacementText faults).1 = true →
        ∀ file ∈ ((replaceEmptyTextParts store messageID replacementText faults).2.parts messageID).getD [], emptyTextPart file = none) ↔
      (faults.list = false → (∃ file ∈ (store.parts messageID).getD [], (emptyTextPart file).isSome ∧ faults.replaces file) →
        ∀ file ∈ (store.parts messageID).getD [], (emptyTextPart file).isSome → faults.replaces file) := by
  rw [replaceEmptyTextParts]
  cases found : store.parts messageID with
  | none => simp
  | some dir =>
    cases unlisted : faults.list with
    | true => simp
    | false =>
      dsimp only
      rw [if_neg (by decide),setParts_parts,if_pos rfl]
      dsimp only
      rw [replaceFiles_true,Option.getD_some,replaceFiles_clean text,Option.getD_some]
      simp

/-- The store that a repair meets. -/
def storeBefore (repair : ℕ → Store → SafeId → Bool × Store) (found : List SafeId) (store : Store) (position : ℕ) : Store :=
  (repairAll repair (found.take position) 0 store).2

variable {found : List SafeId} {start : ℕ}

theorem repairAll_true {repair : ℕ → Store → SafeId → Bool × Store} :
    (repairAll repair found start store).1 = true ↔
      ∃ position messageID, found[position]? = some messageID ∧
        (repair (start + position) (repairAll repair (found.take position) start store).2 messageID).1 = true := by
  induction found generalizing start store with
  | nil => simp [repairAll]
  | cons first rest ih =>
    rw [repairAll]
    dsimp only
    rw [Bool.or_eq_true,ih]
    constructor
    · rintro (now | ⟨position,messageID,here,later⟩)
      · exact ⟨0,first,rfl,now⟩
      · refine ⟨position + 1,messageID,by simpa using here,?_⟩
        rw [take_succ_cons,repairAll,show start + (position + 1) = start + 1 + position by omega]
        exact later
    · rintro ⟨position,messageID,here,success⟩
      cases position with
      | zero =>
        cases here
        exact .inl success
      | succ position =>
        rw [take_succ_cons,repairAll,show start + (position + 1) = start + 1 + position by omega] at success
        exact .inr ⟨position,messageID,by simpa using here,success⟩

theorem mem_stripAll {faults : ℕ → StripFaults} :
    file ∈ ((repairAll (fun position store messageID => stripThinkingParts store messageID (faults position)) found start store).2.parts
        messageID).getD [] ↔
      file ∈ (store.parts messageID).getD [] ∧
        ∀ position, found[position]? = some messageID →
          ¬ ((faults (start + position)).list = false ∧ (faults (start + position)).takes file) := by
  induction found generalizing start store with
  | nil => simp [repairAll]
  | cons first rest ih =>
    rw [repairAll]
    dsimp only
    rw [ih,mem_stripThinkingParts,and_assoc]
    refine and_congr_right (fun _ => ?_)
    constructor
    · rintro ⟨now,later⟩ position here
      cases position with
      | zero =>
        cases here
        exact fun taken => now ⟨rfl,taken⟩
      | succ position =>
        rw [show start + (position + 1) = start + 1 + position by omega]
        exact later position (by simpa using here)
    · intro all
      refine ⟨?_,fun position here => ?_⟩
      · rintro ⟨rfl,taken⟩
        exact all 0 rfl taken
      · have := all (position + 1) (by simpa using here)
        rwa [show start + (position + 1) = start + 1 + position by omega] at this

/-- A file that holds a thinking part. -/
def IsThinkingPart (file : StoredFile) : Prop :=
  file.isJson = true ∧ ∃ part, file.content.bind isValidStoredPart = some part ∧ part.isThinking = true

theorem storedParts_thinking :
    (∀ part ∈ store.storedParts messageID, part.isThinking = false) ↔
      ∀ file ∈ (store.parts messageID).getD [], ¬ IsThinkingPart file := by
  constructor
  · rintro none file member ⟨json,part,valid,thinking⟩
    have := none part (mem_records.mpr ⟨file,member,json,valid⟩)
    rw [this] at thinking
    cases thinking
  · intro none part member
    obtain ⟨file,inside,json,valid⟩ := mem_records.mp member
    by_contra thinking
    exact none file inside ⟨json,part,valid,Bool.not_eq_false _ ▸ thinking⟩

def strips (faults : DisabledFaults) : ℕ → Store → SafeId → Bool × Store :=
  fun position store messageID => stripThinkingParts store messageID (faults.strip position)

theorem recoverThinkingDisabledViolation_clean_iff (store : Store) (faults : DisabledFaults) :
    ((recoverThinkingDisabledViolation store faults).1 = true →
        ∀ messageID ∈ store.assistants, ∀ part ∈ (recoverThinkingDisabledViolation store faults).2.storedParts messageID,
          part.isThinking = false) ↔
      ((∃ position messageID, (findMessagesWithThinkingBlocks store faults.scan).1[position]? = some messageID ∧
          (faults.strip position).succeeds
            (((storeBefore (strips faults) (findMessagesWithThinkingBlocks store faults.scan).1
              (findMessagesWithThinkingBlocks store faults.scan).2 position).parts messageID).getD [])) →
        ∀ messageID ∈ store.assistants, ∀ file ∈ (store.parts messageID).getD [], IsThinkingPart file →
          ∃ position, (findMessagesWithThinkingBlocks store faults.scan).1[position]? = some messageID ∧
            (faults.strip position).list = false ∧ (faults.strip position).takes file) := by
  have same : SameRecords (findMessagesWithThinkingBlocks store faults.scan).2 store := findMessages_same _ _ _
  rw [recoverThinkingDisabledViolation]
  rw [repairAll_true]
  simp only [stripThinkingParts_true,Nat.zero_add]
  refine forall_congr' (fun _ => forall₂_congr (fun messageID assistant => ?_))
  rw [storedParts_thinking]
  constructor
  · intro clean file member thinks
    by_contra untaken
    obtain ⟨json,part,valid,thinking⟩ := thinks
    refine clean file (mem_stripAll.mpr ⟨?_,fun position here taken => ?_⟩) ⟨json,part,valid,thinking⟩
    · exact (same.files messageID file (by rw [valid]; rfl)).mpr member
    · rw [Nat.zero_add] at taken
      exact untaken ⟨position,here,taken⟩
  · intro taken file left thinks
    obtain ⟨member,stays⟩ := mem_stripAll.mp left
    obtain ⟨json,part,valid,thinking⟩ := thinks
    have was := (same.files messageID file (by rw [valid]; rfl)).mp member
    obtain ⟨position,here,takes⟩ := taken file was ⟨json,part,valid,thinking⟩
    refine stays position here ?_
    rw [Nat.zero_add]
    exact takes

/-! ### The order of the blocks -/

theorem firstPart_cons (part : StoredPart) (parts : List StoredPart) :
    firstPart (part :: parts) =
      some (match firstPart parts with
        | none => part
        | some first => if part.id.val ≤ first.id.val then part else first) := by
  rw [firstPart,firstPart,insertionSort_cons]
  cases parts.insertionSort (fun a b => a.id.val ≤ b.id.val) with
  | nil => rfl
  | cons first rest =>
    rw [orderedInsert_cons]
    split <;> simp_all

theorem firstPart_append (parts : List StoredPart) (last : StoredPart) :
    firstPart (parts ++ [last]) =
      some (match firstPart parts with
        | none => last
        | some first => if first.id.val ≤ last.id.val then first else last) := by
  induction parts with
  | nil => rfl
  | cons part rest ih =>
    rw [cons_append,firstPart_cons,ih,firstPart_cons]
    cases firstPart rest with
    | none => rfl
    | some first =>
      dsimp only
      by_cases before : part.id.val ≤ first.id.val
      · rw [if_pos before]
        by_cases ahead : first.id.val ≤ last.id.val
        · rw [if_pos ahead,if_pos before,if_pos (le_trans before ahead)]
        · rw [if_neg ahead]
      · rw [if_neg before]
        by_cases ahead : first.id.val ≤ last.id.val
        · rw [if_pos ahead,if_neg before]
        · rw [if_neg ahead,if_neg (fun behind => before (le_trans behind (le_of_not_ge ahead)))]

theorem orphanFirst_append {parts : List StoredPart} {last first : StoredPart} (thinking : last.isThinking = true) :
    orphanFirst (parts ++ [last]) = some first ↔ orphanFirst parts = some first ∧ first.id.val ≤ last.id.val := by
  rw [orphanFirst,orphanFirst,firstPart_append]
  simp only [Option.filter_eq_some_iff,Bool.not_eq_true',Option.some.injEq]
  cases firstPart parts with
  | none =>
    constructor
    · rintro ⟨rfl,other⟩
      rw [other] at thinking
      cases thinking
    · rintro ⟨⟨⟨⟩,-⟩,-⟩
  | some old =>
    dsimp only
    by_cases before : old.id.val ≤ last.id.val
    · rw [if_pos before]
      constructor
      · rintro ⟨rfl,other⟩
        exact ⟨⟨rfl,other⟩,before⟩
      · rintro ⟨⟨same,other⟩,-⟩
        exact ⟨Option.some.inj same,other⟩
    · rw [if_neg before]
      constructor
      · rintro ⟨rfl,other⟩
        rw [other] at thinking
        cases thinking
      · rintro ⟨⟨same,-⟩,ahead⟩
        cases same
        exact absurd ahead before

/-- The prepended part, as it is read back. -/
def prepended (sessionID : String) (messageID partId : SafeId) : StoredPart :=
  ⟨partId,"thinking",
    [("id",.str partId.val),("sessionID",.str sessionID),("messageID",.str messageID.val),("type",.str "thinking"),("thinking",.str ""),
      ("synthetic",.bool true)]⟩

variable (sessionID : String)

theorem valid_thinkingPart (messageID partId : SafeId) :
    isValidStoredPart (thinkingPart sessionID messageID partId) = some (prepended sessionID messageID partId) := by
  have safe : validatePathId partId.val = some partId := dif_pos partId.2
  rw [thinkingPart,isValidStoredPart]
  have id : Record.text [("id",.str partId.val),("sessionID",.str sessionID),("messageID",.str messageID.val),("type",.str "thinking"),
      ("thinking",.str ""),("synthetic",.bool true)] "id" = some partId.val := rfl
  rw [id,Option.bind_some,safe]
  rfl

/-- No file has the name of a part that is still to be written. -/
def Unused (partIds : ℕ → SafeId) (store : Store) (start : ℕ) : Prop :=
  ∀ messageID, ∀ file ∈ (store.parts messageID).getD [], ∀ position, start ≤ position → file.name ≠ (partIds position).val ++ ".json"

/-- The part can be written. -/
def WriteFaults.writes (faults : WriteFaults) (dir : Option Dir) : Prop := ¬ (dir.isNone ∧ faults.mkdir = true) ∧ faults.write = false

instance (faults : WriteFaults) (dir : Option Dir) : Decidable (faults.writes dir) := inferInstanceAs (Decidable (_ ∧ _))

def partFile (sessionID : String) (messageID partId : SafeId) : StoredFile :=
  ⟨partId.val ++ ".json",some (thinkingPart sessionID messageID partId)⟩

variable {faults : WriteFaults}

theorem prependThinkingPart_true {sessionID : String} {messageID partId : SafeId} :
    (prependThinkingPart sessionID store messageID partId faults).1 = true ↔ faults.writes (store.parts messageID) := by
  rw [prependThinkingPart,WriteFaults.writes]
  by_cases missing : (store.parts messageID).isNone ∧ faults.mkdir = true
  · simp [missing]
  · rw [if_neg missing]
    cases faults.write with
    | true => simp
    | false => simpa using missing

theorem writeFile_unused (unused : ∀ old ∈ dir, old.name ≠ file.name) : writeFile dir file = dir ++ [file] := by
  rw [writeFile,if_neg]
  simpa using unused

theorem prepend_dir {sessionID : String} {messageID partId other : SafeId}
    (unused : ∀ old ∈ (store.parts messageID).getD [], old.name ≠ partId.val ++ ".json") :
    ((prependThinkingPart sessionID store messageID partId faults).2.parts other).getD [] =
      (store.parts other).getD [] ++ if other = messageID ∧ faults.writes (store.parts messageID) then [partFile sessionID messageID partId] else [] := by
  rw [prependThinkingPart]
  by_cases missing : (store.parts messageID).isNone ∧ faults.mkdir = true
  · simp [missing,WriteFaults.writes]
  · rw [if_neg missing]
    cases failed : faults.write with
    | true =>
      by_cases same : other = messageID <;> simp [setParts_parts,same,WriteFaults.writes,failed]
    | false =>
      by_cases same : other = messageID
      · have writes : faults.writes (store.parts messageID) := ⟨missing,failed⟩
        rw [if_neg (by decide),if_pos ⟨same,writes⟩]
        dsimp only
        rw [setParts_parts,if_pos same,same,writeFile_unused unused]
        rfl
      · simp [setParts_parts,same]

theorem partFile_isJson (messageID partId : SafeId) : (partFile sessionID messageID partId).isJson = true := by
  rw [StoredFile.isJson,partFile,isSuffixOf_iff_suffix,String.toList_append]
  exact suffix_append _ _

theorem partFile_records (messageID partId : SafeId) :
    records isValidStoredPart [partFile sessionID messageID partId] = [prepended sessionID messageID partId] := by
  rw [records_cons,if_pos (partFile_isJson _ _ _)]
  show (isValidStoredPart (thinkingPart sessionID messageID partId)).toList ++ _ = _
  rw [valid_thinkingPart]
  rfl

theorem prepend_orphan {sessionID : String} {messageID partId other : SafeId} {first : StoredPart}
    (unused : ∀ old ∈ (store.parts messageID).getD [], old.name ≠ partId.val ++ ".json") :
    orphanFirst ((prependThinkingPart sessionID store messageID partId faults).2.storedParts other) = some first ↔
      orphanFirst (store.storedParts other) = some first ∧ (messageID = other → faults.write = false → first.id.val ≤ partId.val) := by
  rw [Store.storedParts,prepend_dir unused,records_append]
  by_cases same : messageID = other
  · subst same
    by_cases writes : faults.writes (store.parts messageID)
    · rw [if_pos ⟨rfl,writes⟩,partFile_records,orphanFirst_append (by rfl)]
      exact and_congr_right (fun _ => ⟨fun before _ _ => before,fun before => before rfl writes.2⟩)
    · rw [if_neg (fun both => writes both.2)]
      simp only [records,filter_nil,filterMap_nil,append_nil]
      refine ⟨fun orphan => ⟨orphan,fun _ written => ?_⟩,fun both => both.1⟩
      have missing : store.parts messageID = none := by
        by_contra present
        exact writes ⟨fun none => present (Option.isNone_iff_eq_none.mp none.1),written⟩
      rw [missing] at orphan
      cases orphan
  · rw [if_neg (fun both => same both.1.symm)]
    simp [records,Store.storedParts,same]

def prepends (sessionID : String) (partIds : ℕ → SafeId) (faults : ℕ → WriteFaults) : ℕ → Store → SafeId → Bool × Store :=
  fun position store messageID => prependThinkingPart sessionID store messageID (partIds position) (faults position)

variable {partIds : ℕ → SafeId}

theorem Unused.prepend {sessionID : String} (distinct : Function.Injective partIds)
    (unused : Unused partIds store start) (messageID : SafeId) (faults : WriteFaults) :
    Unused partIds (prependThinkingPart sessionID store messageID (partIds start) faults).2 (start + 1) := by
  intro other file member position later
  rw [prepend_dir (fun old inside => unused messageID old inside start (le_refl _)),mem_append] at member
  rcases member with old | new
  · exact unused other file old position (by omega)
  · split at new
    · cases mem_singleton.mp new
      intro same
      have same : partIds start = partIds position := Subtype.ext ((String.append_left_inj ".json").mp same)
      have := distinct same
      omega
    · cases new

/-- A message keeps its first part through the prepends whose ids do not come before it. -/
theorem prependAll_orphan {sessionID : String} (distinct : Function.Injective partIds) {faults : ℕ → WriteFaults} (unused : Unused partIds store start) {first : StoredPart} :
    orphanFirst ((repairAll (prepends sessionID partIds faults) found start store).2.storedParts messageID) = some first ↔
      orphanFirst (store.storedParts messageID) = some first ∧
        ∀ position, found[position]? = some messageID → (faults (start + position)).write = false →
          first.id.val ≤ (partIds (start + position)).val := by
  induction found generalizing start store with
  | nil => simp [repairAll]
  | cons now rest ih =>
    have here : ∀ old ∈ (store.parts now).getD [], old.name ≠ (partIds start).val ++ ".json" :=
      fun old inside => unused now old inside start (le_refl _)
    rw [repairAll]
    dsimp only
    rw [prepends,ih (unused.prepend distinct now (faults start)),prepend_orphan here,and_assoc]
    refine and_congr_right (fun _ => ?_)
    constructor
    · rintro ⟨nowKept,later⟩ position found
      cases position with
      | zero => exact nowKept (Option.some.inj found)
      | succ position =>
        rw [show start + (position + 1) = start + 1 + position by omega]
        exact later position (by simpa using found)
    · intro all
      refine ⟨fun same => all 0 (congrArg some same),fun position found => ?_⟩
      have := all (position + 1) (by simpa using found)
      rwa [show start + (position + 1) = start + 1 + position by omega] at this

theorem prependAll_assistants (partIds : ℕ → SafeId) (faults : ℕ → WriteFaults) (found : List SafeId) (start : ℕ) (store : Store) :
    (repairAll (prepends sessionID partIds faults) found start store).2.assistants = store.assistants := by
  induction found generalizing start store with
  | nil => rfl
  | cons now rest ih =>
    rw [repairAll]
    dsimp only
    rw [ih,prepends,prependThinkingPart]
    split
    · rfl
    · split <;> rfl

theorem recoverThinkingBlockOrder_clean_iff (sessionID : String) (distinct : Function.Injective partIds) (store : Store)
    (targetIndex : Option ℕ) (faults : BlockOrderFaults) (fallback : (targetMessage store targetIndex faults).1 = none)
    (unused : Unused partIds store 0) :
    let scanned := findMessagesWithOrphanThinking (targetMessage store targetIndex faults).2 faults.scan
    let recovered := recoverThinkingBlockOrder sessionID partIds store targetIndex faults
    (recovered.1 = true → (findMessagesWithOrphanThinking recovered.2 .none).1 = []) ↔
      ((∃ position messageID, scanned.1[position]? = some messageID ∧
          (faults.prepend position).writes
            ((storeBefore (prepends sessionID partIds faults.prepend) scanned.1 scanned.2 position).parts messageID)) →
        ∀ messageID ∈ store.assistants, ∀ first, orphanFirst (store.storedParts messageID) = some first →
          ∃ position, scanned.1[position]? = some messageID ∧ (faults.prepend position).write = false ∧
            (partIds position).val < first.id.val) := by
  intro scanned recovered
  have targeted := targetMessage_same store targetIndex faults
  have same : SameRecords scanned.2 store := (findMessages_same _ _ _).trans targeted
  have goes : recovered = repairAll (prepends sessionID partIds faults.prepend) scanned.1 0 scanned.2 := by
    show recoverThinkingBlockOrder sessionID partIds store targetIndex faults = _
    rw [recoverThinkingBlockOrder]
    dsimp only
    rw [fallback]
    rfl
  have free : Unused partIds scanned.2 0 := fun messageID file member => unused messageID file (same.fewer messageID member)
  rw [goes,repairAll_true]
  simp only [Nat.zero_add]
  refine Iff.trans (imp_congr_left (exists₂_congr (fun position messageID => and_congr_right (fun _ => prependThinkingPart_true)))) ?_
  refine forall_congr' (fun _ => ?_)
  rw [findMessagesWithOrphanThinking,findMessages_none,prependAll_assistants,same.assistants]
  refine forall₂_congr (fun messageID _ => ?_)
  rw [Option.isSome_eq_false_iff,Option.isNone_iff_eq_none,Option.eq_none_iff_forall_ne_some]
  refine forall_congr' (fun first => ?_)
  rw [Ne,prependAll_orphan distinct free,same.parts,not_and]
  refine forall_congr' (fun _ => ?_)
  push Not
  simp only [Nat.zero_add]

/-- Exactly when a repair that reports success has left nothing to repair: for a strip,
    where no thinking part went unread; for a replacement, where each empty text was
    read and written; for the two recoveries, where every message in need was found and
    repaired, not only one. -/
theorem reported_repairs_iff (store : Store) :
    (∀ (messageID : SafeId) (faults : StripFaults),
      ((stripThinkingParts store messageID faults).1 = true →
          ∀ file ∈ ((stripThinkingParts store messageID faults).2.parts messageID).getD [], file.isThinking = false) ↔
        (faults.succeeds ((store.parts messageID).getD []) →
          ∀ file ∈ (store.parts messageID).getD [], file.isThinking = true → faults.read file.name = false)) ∧
    (∀ (faults : DisabledFaults),
      ((recoverThinkingDisabledViolation store faults).1 = true →
          ∀ messageID ∈ store.assistants, ∀ part ∈ (recoverThinkingDisabledViolation store faults).2.storedParts messageID,
            part.isThinking = false) ↔
        ((∃ position messageID, (findMessagesWithThinkingBlocks store faults.scan).1[position]? = some messageID ∧
            (faults.strip position).succeeds
              (((storeBefore (strips faults) (findMessagesWithThinkingBlocks store faults.scan).1
                (findMessagesWithThinkingBlocks store faults.scan).2 position).parts messageID).getD [])) →
          ∀ messageID ∈ store.assistants, ∀ file ∈ (store.parts messageID).getD [], IsThinkingPart file →
            ∃ position, (findMessagesWithThinkingBlocks store faults.scan).1[position]? = some messageID ∧
              (faults.strip position).list = false ∧ (faults.strip position).takes file)) ∧
    (∀ (messageID : SafeId) (replacementText : String) (faults : ReplaceFaults), trim replacementText ≠ "" →
      (((replaceEmptyTextParts store messageID replacementText faults).1 = true →
          ∀ file ∈ ((replaceEmptyTextParts store messageID replacementText faults).2.parts messageID).getD [], emptyTextPart file = none) ↔
        (faults.list = false → (∃ file ∈ (store.parts messageID).getD [], (emptyTextPart file).isSome ∧ faults.replaces file) →
          ∀ file ∈ (store.parts messageID).getD [], (emptyTextPart file).isSome → faults.replaces file))) ∧
    ∀ (sessionID : String) (partIds : ℕ → SafeId) (targetIndex : Option ℕ) (faults : BlockOrderFaults),
      Function.Injective partIds → (targetMessage store targetIndex faults).1 = none → Unused partIds store 0 →
      let scanned := findMessagesWithOrphanThinking (targetMessage store targetIndex faults).2 faults.scan
      let recovered := recoverThinkingBlockOrder sessionID partIds store targetIndex faults
      (recovered.1 = true → (findMessagesWithOrphanThinking recovered.2 .none).1 = []) ↔
        ((∃ position messageID, scanned.1[position]? = some messageID ∧
            (faults.prepend position).writes
              ((storeBefore (prepends sessionID partIds faults.prepend) scanned.1 scanned.2 position).parts messageID)) →
          ∀ messageID ∈ store.assistants, ∀ first, orphanFirst (store.storedParts messageID) = some first →
            ∃ position, scanned.1[position]? = some messageID ∧ (faults.prepend position).write = false ∧
              (partIds position).val < first.id.val) :=
  ⟨stripThinkingParts_clean_iff store,recoverThinkingDisabledViolation_clean_iff store,
    fun messageID _ faults text => replaceEmptyTextParts_clean_iff store messageID text faults,
    fun sessionID _ targetIndex faults distinct fallback unused =>
      recoverThinkingBlockOrder_clean_iff sessionID distinct store targetIndex faults fallback unused⟩

/-! ### Repairs that report too much -/

def messageOne : SafeId := ⟨"msg_1",by decide⟩

def partOf (id type : String) : StoredFile :=
  ⟨id ++ ".json",some (.obj [("id",.str id),("type",.str type),("text",.str "")])⟩

/-- A session of one message of the assistant. -/
def sessionOf (parts : Dir) : Store :=
  ⟨some [⟨"msg_1.json",some (.obj [("id",.str "msg_1"),("role",.str "assistant")])⟩],fun messageID => if messageID = messageOne then some parts else none⟩

def idLetters (position : ℕ) : List Char :=
  ['p','r','t','_','0','0','0','0','0','0','0','0','0','0','_','t','h','i','n','k','i','n','g','_'] ++ List.replicate position 'a'

theorem newId_safe (position : ℕ) : isSafeId (String.ofList (idLetters position)) = true := by
  have rest : (List.replicate position 'a').all (fun c => c.isAlphanum || c == '_' || c == '-') = true := by
    rw [all_eq_true]
    intro c member
    rw [eq_of_mem_replicate member]
    decide
  have filled : String.ofList (idLetters position) ≠ "" := by
    intro empty
    have letters := congrArg String.toList empty
    rw [String.toList_ofList,idLetters,cons_append] at letters
    exact absurd letters (cons_ne_nil _ _)
  rw [isSafeId,String.toList_ofList,idLetters,all_append,rest,← idLetters,decide_eq_true filled]
  decide

/-- New ids, told apart by their lengths. -/
def newId (position : ℕ) : SafeId := ⟨String.ofList (idLetters position),newId_safe position⟩

theorem newId_injective : Function.Injective newId := by
  intro a b same
  have lengths := congrArg (fun id : SafeId => id.val.toList.length) same
  simp only [newId,String.toList_ofList,idLetters,length_append,length_replicate] at lengths
  omega

def twoParts (type : String) : Store := sessionOf [partOf "prt_1" type,partOf "prt_2" type]

/-- The second part's file is locked. -/
def locked (name : String) : Bool := decide (name = "prt_2.json")

def earlyPart : Store := sessionOf [partOf "prt_0000000000_a" "text"]

def noBlockOrderFaults : BlockOrderFaults := ⟨.none,.none,.none,fun _ => ⟨false,false⟩⟩

/-- A read that fails leaves a thinking part, a write that fails an empty text, and an
    id that comes before the prepended one's a message without a thinking part in front. -/
theorem reports_too_much :
    ((stripThinkingParts (twoParts "thinking") messageOne ⟨false,locked,fun _ => false⟩).1 = true ∧
      ¬ ∀ file ∈ ((stripThinkingParts (twoParts "thinking") messageOne ⟨false,locked,fun _ => false⟩).2.parts messageOne).getD [],
        file.isThinking = false) ∧
    ((recoverThinkingDisabledViolation (twoParts "thinking") ⟨.none,fun _ => ⟨false,locked,fun _ => false⟩⟩).1 = true ∧
      messageOne ∈ (twoParts "thinking").assistants ∧
      ¬ ∀ part ∈ (recoverThinkingDisabledViolation (twoParts "thinking") ⟨.none,fun _ => ⟨false,locked,fun _ => false⟩⟩).2.storedParts messageOne,
        part.isThinking = false) ∧
    ((replaceEmptyTextParts (twoParts "text") messageOne "x" ⟨false,fun _ => false,locked⟩).1 = true ∧
      ¬ ∀ file ∈ ((replaceEmptyTextParts (twoParts "text") messageOne "x" ⟨false,fun _ => false,locked⟩).2.parts messageOne).getD [],
        (emptyTextPart file).isNone) ∧
    ((recoverThinkingBlockOrder "ses" newId earlyPart none noBlockOrderFaults).1 = true ∧
      (findMessagesWithOrphanThinking (recoverThinkingBlockOrder "ses" newId earlyPart none noBlockOrderFaults).2 .none).1 ≠ []) := by
  refine ⟨⟨?_,?_⟩,⟨?_,?_,?_⟩,⟨?_,?_⟩,⟨?_,?_⟩⟩
  · decide
  · decide
  · decide
  · decide
  · decide
  · decide
  · decide
  · decide
  · decide

theorem reported_repairs_one :
    (recoverThinkingBlockOrder "ses" newId (sessionOf [partOf "prt_1" "text"]) none noBlockOrderFaults).1 = true ∧
      (findMessagesWithOrphanThinking (recoverThinkingBlockOrder "ses" newId (sessionOf [partOf "prt_1" "text"]) none noBlockOrderFaults).2
        .none).1 = [] := by
  have reports : (recoverThinkingBlockOrder "ses" newId (sessionOf [partOf "prt_1" "text"]) none noBlockOrderFaults).1 = true := by decide +kernel
  refine ⟨reports,?_⟩
  refine ((reported_repairs_iff (sessionOf [partOf "prt_1" "text"])).2.2.2 "ses" newId none noBlockOrderFaults newId_injective rfl ?_).mpr ?_ reports
  · intro messageID file member position _ same
    have named : file.name = "prt_1.json" := by
      dsimp only [sessionOf] at member
      split at member
      · cases mem_singleton.mp member
        rfl
      · cases member
    rw [named] at same
    have letters := congrArg (fun text => text.toList[4]?) same
    simp only [newId,String.toList_append,String.toList_ofList,idLetters] at letters
    cases letters
  · intro _ messageID member first orphan
    have here : messageID = messageOne := mem_singleton.mp member
    subst here
    have id : first.id.val = "prt_1" := by
      cases orphan
      rfl
    refine ⟨0,by decide +kernel,rfl,?_⟩
    rw [id]
    decide +kernel

end CodexMultiAuth.SessionStore
