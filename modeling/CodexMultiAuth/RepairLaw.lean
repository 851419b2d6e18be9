import CodexMultiAuth.Lists
import CodexMultiAuth.RepairMutations

/-!
When the changes of a repair run touch nothing but their own rows. A change copies
seven fields whatever the run did to them, so its row has to read in them as it
was loaded; and a row that is found in another way than by what was loaded has to
be the same account all the same.
-/
namespace CodexMultiAuth.RepairMutations

open AccountStorageMutation Option

namespace AccountStorageMutation
variable (mutation : AccountStorageMutation)

def written (k : String) : Option (Option Json) :=
  if mutation.movesWorkspace ∧ k = "currentWorkspaceIndex" then some (workspacePointer mutation.after)
  else if mutation.movesWorkspace ∧ k = "workspaces" then some (mutation.after.find k)
  else if mutation.changes k ∧ k = "codexCliMirror" then some ((mutation.after.find k).filter isTruthy)
  else if k ∈ copiedFields ∨ mutation.changes k ∧ k = "accountLabel" then some (mutation.after.find k)
  else none

theorem find_writeMutation (target : AccountMetadataV3) (k : String) :
    (writeMutation mutation target).find k = (mutation.written k).getD (target.find k) := by
  have copied : ∀ row : AccountMetadataV3, (copiedFields.foldl (fun row key => row.assign key (mutation.after.find key)) row).find k =
      if k ∈ copiedFields then mutation.after.find k else row.find k := fun row => OrderedMap.find_foldl_assign _ _ _ _
  have apart : ∀ key ∈ ["accountLabel","codexCliMirror","workspaces","currentWorkspaceIndex"], key ∉ copiedFields := by decide
  unfold writeMutation written
  by_cases special : k ∈ ["accountLabel","codexCliMirror","workspaces","currentWorkspaceIndex"]
  · have other := apart k special
    simp only [List.mem_cons,List.not_mem_nil,or_false] at special
    rcases special with rfl | rfl | rfl | rfl <;> cases mutation.changes "accountLabel" <;>
      cases mutation.changes "codexCliMirror" <;> cases mutation.movesWorkspace <;>
      simp [copied,other]
  · simp only [List.mem_cons,List.not_mem_nil,or_false,not_or] at special
    obtain ⟨label,mirror,workspaces,pointer⟩ := special
    simp only [label,mirror,workspaces,pointer,and_false,or_false,if_false]
    split <;> split <;> split <;> simp [copied,Ne.symm label,Ne.symm mirror,Ne.symm workspaces,Ne.symm pointer] <;> split <;> rfl

/-- Where the change writes a field that the run left alone, the row reads as it will be written. -/
structure ReadsAsLoaded (row : AccountMetadataV3) : Prop where
  copied : ∀ k ∈ copiedFields, mutation.changes k = false → row.find k = mutation.before.find k
  workspaces : mutation.movesWorkspace = true → mutation.changes "workspaces" = false → row.find "workspaces" = mutation.before.find "workspaces"
  pointer : mutation.movesWorkspace = true → mutation.changes "currentWorkspaceIndex" = false →
    row.find "currentWorkspaceIndex" = workspacePointer mutation.after

/-- The row has all that the change writes. -/
structure ReadsAsWritten (row : AccountMetadataV3) : Prop where
  copied : ∀ k ∈ copiedFields, row.find k = mutation.after.find k
  label : mutation.changes "accountLabel" = true → row.find "accountLabel" = mutation.after.find "accountLabel"
  mirror : mutation.changes "codexCliMirror" = true → row.find "codexCliMirror" = (mutation.after.find "codexCliMirror").filter isTruthy
  workspaces : mutation.movesWorkspace = true → row.find "workspaces" = mutation.after.find "workspaces"
  pointer : mutation.movesWorkspace = true → row.find "currentWorkspaceIndex" = workspacePointer mutation.after

variable {mutation}

theorem changes_eq_false {k : String} : mutation.changes k = false ↔ mutation.before.find k = mutation.after.find k := by
  simp [changes]

theorem written_copied {k : String} (copied : k ∈ copiedFields) : mutation.written k = some (mutation.after.find k) := by
  have apart : ∀ key ∈ copiedFields, key ∉ ["codexCliMirror","workspaces","currentWorkspaceIndex"] := by decide
  have other := apart k copied
  simp only [List.mem_cons,List.not_mem_nil,or_false,not_or] at other
  simp [written,other,copied]

theorem written_label (changed : mutation.changes "accountLabel" = true) :
    mutation.written "accountLabel" = some (mutation.after.find "accountLabel") := by
  simp [written,changed]

theorem written_mirror (changed : mutation.changes "codexCliMirror" = true) :
    mutation.written "codexCliMirror" = some ((mutation.after.find "codexCliMirror").filter isTruthy) := by
  simp [written,changed]

theorem written_workspaces (moves : mutation.movesWorkspace = true) :
    mutation.written "workspaces" = some (mutation.after.find "workspaces") := by
  simp [written,moves]

theorem written_pointer (moves : mutation.movesWorkspace = true) :
    mutation.written "currentWorkspaceIndex" = some (workspacePointer mutation.after) := by
  simp [written,moves]

theorem written_cases {k : String} {value : Option Json} (writes : mutation.written k = some value) :
    k ∈ copiedFields ∧ value = mutation.after.find k ∨
    (k = "accountLabel" ∧ value = mutation.after.find k ∨ k = "codexCliMirror" ∧ value = (mutation.after.find k).filter isTruthy) ∧
      mutation.changes k = true ∨
    mutation.movesWorkspace = true ∧
      (k = "workspaces" ∧ value = mutation.after.find k ∨ k = "currentWorkspaceIndex" ∧ value = workspacePointer mutation.after) := by
  unfold written at writes
  split at writes
  · next pointer => exact .inr (.inr ⟨pointer.1,.inr ⟨pointer.2,(some.inj writes).symm⟩⟩)
  · split at writes
    · next moved => exact .inr (.inr ⟨moved.1,.inl ⟨moved.2,(some.inj writes).symm⟩⟩)
    · split at writes
      · next mirrored => exact .inr (.inl ⟨.inr ⟨mirrored.2,(some.inj writes).symm⟩,mirrored.1⟩)
      · split at writes
        · next plain =>
          rcases plain with copied | labelled
          · exact .inl ⟨copied,(some.inj writes).symm⟩
          · exact .inr (.inl ⟨.inl ⟨labelled.2,(some.inj writes).symm⟩,labelled.1⟩)
        · cases writes

theorem readsAsLoaded_iff (row : AccountMetadataV3) :
    mutation.ReadsAsLoaded row ↔ ∀ k, (writeMutation mutation row).find k ≠ row.find k → mutation.changes k = true := by
  constructor
  · intro loaded k differs
    by_contra unchanged
    have alone : mutation.changes k = false := by simpa using unchanged
    rw [find_writeMutation] at differs
    cases writes : mutation.written k with
    | none => exact differs (by rw [writes]; rfl)
    | some value =>
      rw [writes,getD_some] at differs
      have same := changes_eq_false.mp alone
      rcases written_cases writes with ⟨copied,rfl⟩ | ⟨-,changed⟩ | ⟨moves,⟨rfl,rfl⟩ | ⟨rfl,rfl⟩⟩
      · exact differs ((loaded.copied k copied alone).trans same).symm
      · exact unchanged changed
      · exact differs ((loaded.workspaces moves alone).trans same).symm
      · exact differs (loaded.pointer moves alone).symm
  · intro kept
    -- A field that the run left alone is written back as it stands in the row.
    have stands : ∀ k value, mutation.written k = some value → mutation.changes k = false → row.find k = value := by
      intro k value writes alone
      by_contra other
      have changed := kept k (by rw [find_writeMutation,writes,getD_some]; exact Ne.symm other)
      rw [alone] at changed
      cases changed
    refine ⟨fun k copied alone => ?_,fun moves alone => ?_,fun moves alone => stands _ _ (written_pointer moves) alone⟩
    · exact (stands k _ (written_copied copied) alone).trans (changes_eq_false.mp alone).symm
    · exact (stands _ _ (written_workspaces moves) alone).trans (changes_eq_false.mp alone).symm

theorem readsAsWritten_iff (row : AccountMetadataV3) :
    mutation.ReadsAsWritten row ↔ ∀ k, (writeMutation mutation row).find k = row.find k := by
  constructor
  · intro reads k
    rw [find_writeMutation]
    cases writes : mutation.written k with
    | none => rfl
    | some value =>
      rw [getD_some]
      rcases written_cases writes with ⟨copied,rfl⟩ | ⟨⟨rfl,rfl⟩ | ⟨rfl,rfl⟩,changed⟩ | ⟨moves,⟨rfl,rfl⟩ | ⟨rfl,rfl⟩⟩
      · exact (reads.copied k copied).symm
      · exact (reads.label changed).symm
      · exact (reads.mirror changed).symm
      · exact (reads.workspaces moves).symm
      · exact (reads.pointer moves).symm
  · intro same
    have stands : ∀ k value, mutation.written k = some value → row.find k = value := by
      intro k value writes
      rw [← same k,find_writeMutation,writes,getD_some]
    exact ⟨fun k copied => stands k _ (written_copied copied),fun changed => stands _ _ (written_label changed),
      fun changed => stands _ _ (written_mirror changed),fun moves => stands _ _ (written_workspaces moves),
      fun moves => stands _ _ (written_pointer moves)⟩

end AccountStorageMutation

section
variable [Host]

/-- Neither the account id nor the email tells the rows apart. -/
def SameAccount (row other : Record) : Prop := Compatible (identityRef row) (identityRef other)

instance (row other : Record) : Decidable (SameAccount row other) := inferInstanceAs (Decidable (_ ∧ _))

/-- A row of the store reads differently afterwards. -/
def Rewritten (accounts accounts' : List AccountMetadataV3) (i : Nat) (row : AccountMetadataV3) (k : String) : Prop :=
  accounts[i]? = some row ∧ ∃ row', accounts'[i]? = some row' ∧ row'.find k ≠ row.find k

/-- At most one row is rewritten, it is the row of the same account, and only in fields that the run changed. -/
structure OnlyOwnRow (mutation : AccountStorageMutation) (storage storage' : AccountStorageV3) : Prop where
  rest : storage' = { storage with accounts := storage'.accounts }
  rows : storage'.accounts.length = storage.accounts.length
  single : ∀ i row k, Rewritten storage.accounts storage'.accounts i row k →
    ∀ j other l, Rewritten storage.accounts storage'.accounts j other l → i = j
  own : ∀ i row k, Rewritten storage.accounts storage'.accounts i row k → SameAccount mutation.before row ∧ mutation.changes k = true

/-- The row that the loaded account matches reads as loaded in what the run left alone.
    A row that only the changed account matches is the loaded account besides, or reads already as written. -/
structure Undisturbed (mutation : AccountStorageMutation) (storage : AccountStorageV3) : Prop where
  loaded : ∀ i row, findMatchingAccountIndex storage.accounts mutation.before.toAccountLike true = some i →
    storage.accounts[i]? = some row → mutation.ReadsAsLoaded row
  renamed : ∀ i row, findMatchingAccountIndex storage.accounts mutation.before.toAccountLike true = none →
    findMatchingAccountIndex storage.accounts mutation.after.toAccountLike true = some i →
      storage.accounts[i]? = some row → SameAccount mutation.before row ∧ mutation.ReadsAsLoaded row ∨ mutation.ReadsAsWritten row

theorem matched_sameAccount {accounts : List AccountMetadataV3} {candidate : AccountMetadataV3} {i : Nat}
    (matched : findMatchingAccountIndex accounts candidate.toAccountLike true = some i) :
    ∃ row, accounts[i]? = some row ∧ SameAccount candidate row := findMatchingRefIndex_compatible matched

variable {storage : AccountStorageV3}

theorem onlyOwnRow_unmatched {mutation : AccountStorageMutation} : OnlyOwnRow mutation storage storage := by
  have same : ∀ i row k, ¬ Rewritten storage.accounts storage.accounts i row k := by
    rintro i row k ⟨found,row',found',differs⟩
    cases some.inj (found.symm.trans found')
    exact differs rfl
  exact ⟨rfl,rfl,fun i row k rewritten => absurd rewritten (same i row k),fun i row k rewritten => absurd rewritten (same i row k)⟩

/-- Rewriting one row is harmless when the row is the account's and reads as loaded, or reads already as written. -/
theorem onlyOwnRow_matched {mutation : AccountStorageMutation} {i : Nat} {row : AccountMetadataV3}
    (found : storage.accounts[i]? = some row) :
    OnlyOwnRow mutation storage { storage with accounts := storage.accounts.modify i (writeMutation mutation) } ↔
      SameAccount mutation.before row ∧ mutation.ReadsAsLoaded row ∨ mutation.ReadsAsWritten row := by
  have rewritten_iff : ∀ j other k, Rewritten storage.accounts (storage.accounts.modify i (writeMutation mutation)) j other k ↔
      j = i ∧ other = row ∧ (writeMutation mutation row).find k ≠ row.find k := by
    intro j other k
    unfold Rewritten
    rw [modify_eq_set found,List.getElem?_set]
    have inside := (List.getElem?_eq_some_iff.mp found).1
    by_cases here : i = j
    · subst here
      rw [if_pos rfl,if_pos inside,found]
      constructor
      · rintro ⟨same,row',written,differs⟩
        cases some.inj same
        cases some.inj written
        exact ⟨rfl,rfl,differs⟩
      · rintro ⟨-,rfl,differs⟩
        exact ⟨rfl,_,rfl,differs⟩
    · rw [if_neg here]
      constructor
      · rintro ⟨there,row',there',differs⟩
        cases some.inj (there.symm.trans there')
        exact absurd rfl differs
      · rintro ⟨same,-⟩
        exact absurd same.symm here
  constructor
  · intro only
    by_cases idle : ∀ k, (writeMutation mutation row).find k = row.find k
    · exact .inr ((readsAsWritten_iff row).mpr idle)
    · left
      push Not at idle
      obtain ⟨k,differs⟩ := idle
      refine ⟨(only.own i row k ((rewritten_iff i row k).mpr ⟨rfl,rfl,differs⟩)).1,?_⟩
      rw [readsAsLoaded_iff]
      exact fun l moved => (only.own i row l ((rewritten_iff i row l).mpr ⟨rfl,rfl,moved⟩)).2
  · intro fine
    refine ⟨rfl,List.length_modify ..,?_,?_⟩
    · intro j other k rewritten l another m also
      exact ((rewritten_iff _ _ _).mp rewritten).1.trans ((rewritten_iff _ _ _).mp also).1.symm
    · intro j other k rewritten
      obtain ⟨rfl,rfl,differs⟩ := (rewritten_iff _ _ _).mp rewritten
      rcases fine with ⟨same,loaded⟩ | already
      · exact ⟨same,(readsAsLoaded_iff other).mp loaded k differs⟩
      · exact absurd ((readsAsWritten_iff other).mp already k) differs

theorem onlyOwnRow_iff (mutation : AccountStorageMutation) (storage : AccountStorageV3) :
    OnlyOwnRow mutation storage (applyAccountStorageMutation storage mutation) ↔ Undisturbed mutation storage := by
  unfold applyAccountStorageMutation
  cases byLoaded : findMatchingAccountIndex storage.accounts mutation.before.toAccountLike true with
  | some i =>
    obtain ⟨row,found,same⟩ := matched_sameAccount byLoaded
    simp only [some_or]
    rw [onlyOwnRow_matched found]
    constructor
    · intro fine
      refine ⟨?_,fun j other unmatched => absurd (byLoaded.symm.trans unmatched) (by simp)⟩
      intro j other matched there
      cases some.inj (byLoaded.symm.trans matched)
      cases some.inj (found.symm.trans there)
      rcases fine with ⟨-,loaded⟩ | already
      · exact loaded
      · rw [readsAsLoaded_iff]
        exact fun k differs => absurd ((readsAsWritten_iff row).mp already k) differs
    · exact fun undisturbed => .inl ⟨same,undisturbed.loaded i row byLoaded found⟩
  | none =>
    cases byChanged : findMatchingAccountIndex storage.accounts mutation.after.toAccountLike true with
    | some i =>
      obtain ⟨row,found,-⟩ := matched_sameAccount byChanged
      simp only [none_or]
      rw [onlyOwnRow_matched found]
      constructor
      · intro fine
        refine ⟨fun j other matched => absurd (byLoaded.symm.trans matched) (by simp),?_⟩
        intro j other _ matched there
        cases some.inj (byChanged.symm.trans matched)
        cases some.inj (found.symm.trans there)
        exact fine
      · exact fun undisturbed => undisturbed.renamed i row byLoaded byChanged found
    | none =>
      refine iff_of_true onlyOwnRow_unmatched ⟨?_,?_⟩
      · exact fun j other matched => absurd (byLoaded.symm.trans matched) (by simp)
      · exact fun j other _ matched => absurd (byChanged.symm.trans matched) (by simp)

/-- Every change keeps to its own row when it is made. -/
def AccountsRespected (storage : AccountStorageV3) (mutations : List AccountStorageMutation) : Prop :=
  Runs.Legal applyAccountStorageMutation (fun s mutation => OnlyOwnRow mutation s (applyAccountStorageMutation s mutation)) storage mutations

/-- A commit that respects the rows leaves every field that no change of the run is about as it finds it. -/
theorem AccountsRespected.keeps {mutations : List AccountStorageMutation}
    (respected : AccountsRespected storage mutations) {i : Nat} {row row' : AccountMetadataV3} (found : storage.accounts[i]? = some row)
    (found' : (applyAccountStorageMutations storage mutations).accounts[i]? = some row') {k : String}
    (alone : ∀ mutation ∈ mutations, mutation.changes k = false) : row'.find k = row.find k := by
  induction mutations generalizing storage row with
  | nil => rw [some.inj (found.symm.trans found')]
  | cons mutation rest ih =>
    obtain ⟨only,later⟩ := respected
    have inside : i < (applyAccountStorageMutation storage mutation).accounts.length := by
      rw [only.rows]; exact (List.getElem?_eq_some_iff.mp found).1
    have middle := List.getElem?_eq_getElem inside
    rw [ih later middle found' (fun other member => alone other (List.mem_cons_of_mem _ member))]
    by_contra differs
    have changed := (only.own i row k ⟨found,_,middle,differs⟩).2
    rw [alone mutation List.mem_cons_self] at changed
    cases changed

/-- At most one row is replaced or taken out, and it is the row of the same account. -/
def OnlyOwnFlagged (mutation : FlaggedStorageMutation) (accounts accounts' : List FlaggedAccountMetadataV1) : Prop :=
  accounts' = accounts ∨ ∃ i row, accounts[i]? = some row ∧ SameAccount mutation.before row ∧ accounts' = replaceFlagged accounts i mutation.after

/-- The row may be given up: it is the same account's, or what takes its place is the row itself. -/
def Yields (mutation : FlaggedStorageMutation) (row : FlaggedAccountMetadataV1) : Prop :=
  SameAccount mutation.before row ∨ mutation.after = some row

/-- A row of another account that matches stands behind one that may be given up. -/
def OwnFirst (mutation : FlaggedStorageMutation) (accounts : List FlaggedAccountMetadataV1) : Prop :=
  ∀ (i : Nat) row, accounts[i]? = some row → matchesFlagged mutation.before row = true → ¬ Yields mutation row →
    ∃ (j : Nat) (other : FlaggedAccountMetadataV1), j < i ∧ accounts[j]? = some other ∧
      matchesFlagged mutation.before other = true ∧ Yields mutation other

theorem onlyOwnFlagged_at {mutation : FlaggedStorageMutation} {accounts : List FlaggedAccountMetadataV1} {i : Nat}
    {row : FlaggedAccountMetadataV1} (found : accounts[i]? = some row) :
    OnlyOwnFlagged mutation accounts (replaceFlagged accounts i mutation.after) ↔ Yields mutation row := by
  obtain ⟨inside,value⟩ := List.getElem?_eq_some_iff.mp found
  constructor
  · intro only
    cases outcome : mutation.after with
    | some after =>
      -- What is written at the row is what stands there unless the row is the one that is meant.
      have here : (accounts.set i after)[i]? = some after := by simp [inside]
      rw [OnlyOwnFlagged,outcome] at only
      rcases only with same | ⟨j,other,there,own,same⟩
      · rw [replaceFlagged] at same
        rw [same,found] at here
        exact .inr (outcome.trans here.symm)
      · simp only [replaceFlagged] at same
        by_cases equal : j = i
        · subst equal
          cases some.inj (there.symm.trans found)
          exact .inl own
        · rw [same,List.getElem?_set_ne equal,found] at here
          exact .inr (outcome.trans here.symm)
    | none =>
      rw [OnlyOwnFlagged,outcome] at only
      rcases only with same | ⟨j,other,there,own,same⟩
      · have shorter := congrArg List.length same
        rw [replaceFlagged,List.length_eraseIdx,if_pos inside] at shorter
        omega
      · have equal := eraseIdx_inj inside (List.getElem?_eq_some_iff.mp there).1 same
        rw [found,there] at equal
        cases some.inj equal
        exact .inl own
  · rintro (own | already)
    · exact .inr ⟨i,row,found,own,rfl⟩
    · left
      rw [already,replaceFlagged,← value]
      exact List.set_getElem_self inside

/-- One flagged change keeps to its own row just when no other row that matches comes first. -/
theorem onlyOwnFlagged_iff (accounts : List FlaggedAccountMetadataV1) (mutation : FlaggedStorageMutation) :
    OnlyOwnFlagged mutation accounts (applyFlaggedStorageMutation accounts mutation) ↔ OwnFirst mutation accounts := by
  unfold applyFlaggedStorageMutation findMatchingFlaggedAccountIndex
  cases first : accounts.findIdx? (matchesFlagged mutation.before) with
  | none =>
    rw [List.findIdx?_eq_none_iff] at first
    refine iff_of_true (.inl rfl) (fun i row found matched => ?_)
    rw [first row (List.mem_of_getElem? found)] at matched
    cases matched
  | some f =>
    obtain ⟨inside,matched,earlier⟩ := List.findIdx?_eq_some_iff_getElem.mp first
    have found := List.getElem?_eq_getElem inside
    simp only
    rw [onlyOwnFlagged_at found]
    constructor
    · intro yields i row there alike foreign
      refine ⟨f,_,?_,found,matched,yields⟩
      rcases Nat.lt_trichotomy f i with before | same | after
      · exact before
      · subst same
        cases some.inj (found.symm.trans there)
        exact absurd yields foreign
      · obtain ⟨within,value⟩ := List.getElem?_eq_some_iff.mp there
        exact absurd (value ▸ alike) (earlier i after)
    · intro ownFirst
      by_contra foreign
      obtain ⟨j,other,before,there,alike,-⟩ := ownFirst f _ found matched foreign
      obtain ⟨within,value⟩ := List.getElem?_eq_some_iff.mp there
      exact absurd (value ▸ alike) (earlier j before)

/-- Every change that the run commits keeps to its own row when it is made. -/
def FlaggedRespected (accounts : List FlaggedAccountMetadataV1) (mutations : List FlaggedStorageMutation) : Prop :=
  Runs.Legal applyFlaggedStorageMutation (fun rows mutation => OnlyOwnFlagged mutation rows (applyFlaggedStorageMutation rows mutation))
    accounts (safeFlaggedMutations accounts mutations)

/-- A repair keeps to its own rows just when these are undisturbed and come first. -/
theorem repair_touches_own_iff (storage : AccountStorageV3) (mutations : List AccountStorageMutation)
    (flagged : List FlaggedAccountMetadataV1) (flaggedMutations : List FlaggedStorageMutation) :
    (AccountsRespected storage mutations ↔
      Runs.Legal applyAccountStorageMutation (fun s mutation => Undisturbed mutation s) storage mutations) ∧
    (FlaggedRespected flagged flaggedMutations ↔
      Runs.Legal applyFlaggedStorageMutation (fun rows mutation => OwnFirst mutation rows) flagged
        (safeFlaggedMutations flagged flaggedMutations)) :=
  ⟨Runs.Legal.congr (fun s mutation => onlyOwnRow_iff mutation s),Runs.Legal.congr (fun rows mutation => onlyOwnFlagged_iff rows mutation)⟩

end

section
attribute [local instance] asciiHost

def storedRow (accountId email token : String) : Record :=
  [("accountId",.str accountId),("email",.str email),("refreshToken",.str token)]

def loadedAccount : AccountMetadataV3 := storedRow "acc-1" "one@example.com" "loaded-token"

/-- The token that was loaded is rejected, and the run disables the account. -/
def disabledAccount : AccountMetadataV3 := loadedAccount.put "enabled" (.bool false)

/-- Another process has rotated the token meanwhile. -/
def rotatedStore : AccountStorageV3 := ⟨[storedRow "acc-1" "one@example.com" "rotated-token"],0,none,none,none,[]⟩

/-- The first account's refresh shows that it has taken over the second one's email. -/
def flaggedRows : List FlaggedAccountMetadataV1 :=
  [storedRow "acc-1" "old@example.com" "first-token",storedRow "acc-2" "two@example.com" "second-token"]

def flaggedChanges : List FlaggedStorageMutation :=
  [⟨storedRow "acc-1" "old@example.com" "first-token",some (storedRow "acc-1" "two@example.com" "third-token")⟩,
    ⟨storedRow "acc-2" "two@example.com" "second-token",some (storedRow "acc-2" "two@example.com" "fourth-token")⟩]

/-- The commit writes the loaded token back into the account's row. -/
theorem repair_restores_loaded_token :
    ¬ AccountsRespected rotatedStore (collectAccountStorageMutations [loadedAccount] [disabledAccount]) ∧
    ¬ FlaggedRespected flaggedRows flaggedChanges := by
  constructor
  · intro respected
    have found : rotatedStore.accounts[0]? = some (storedRow "acc-1" "one@example.com" "rotated-token") := rfl
    have written : (applyAccountStorageMutations rotatedStore (collectAccountStorageMutations [loadedAccount] [disabledAccount])).accounts[0]? =
        some ((storedRow "acc-1" "one@example.com" "loaded-token").put "enabled" (.bool false)) := by decide
    have alone : ∀ mutation ∈ collectAccountStorageMutations [loadedAccount] [disabledAccount], mutation.changes "refreshToken" = false := by
      decide
    have kept := respected.keeps found written alone
    revert kept
    decide
  · intro respected
    have safe : safeFlaggedMutations flaggedRows flaggedChanges = flaggedChanges := by decide
    rw [FlaggedRespected,safe] at respected
    have second := (onlyOwnFlagged_iff _ _).mp respected.2.1
    obtain ⟨j,-,before,-⟩ := second 0 (storedRow "acc-1" "two@example.com" "third-token") (by decide) (by decide)
      (by rw [Yields]; decide)
    exact absurd before (Nat.not_lt_zero j)

end
end CodexMultiAuth.RepairMutations
