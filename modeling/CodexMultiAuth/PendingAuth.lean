import CodexMultiAuth.Identity

/-!
The journal of rotated credentials that could not be written to the account
pool. An entry names the spent token by its hash and carries the credential
that replaced it; every load applies the entries to the rows it reads.
-/
namespace CodexMultiAuth
open List
set_option linter.unusedSectionVars false

/-- A token; the journal's schema refuses an empty one. -/
abbrev Token := { text : String // text ≠ "" }

structure PendingAuth where
  prior : String
  recordId : Option String := none
  refreshToken : Token
  accessToken : Token
  expiresAt : ℚ
  recordedAt : ℚ
  deriving DecidableEq

/-- A rotation to record: the spent token and the credential that replaced it. -/
structure Rotation where
  priorRefreshToken : Token
  recordId : Option String := none
  refreshToken : Token
  accessToken : Token
  expiresAt : ℚ
  recordedAt : ℚ
  deriving DecidableEq

@[irreducible] def maxEntries : Nat := 1000

section
variable [Host]

/-- The entry that a rotation writes for the token it spent. -/
def Rotation.entry (auth : Rotation) : PendingAuth where
  prior := Host.sha256 auth.priorRefreshToken
  recordId := auth.recordId
  refreshToken := auth.refreshToken
  accessToken := auth.accessToken
  expiresAt := auth.expiresAt
  recordedAt := auth.recordedAt

/-- An entry moved on to the credential of a later rotation. -/
def PendingAuth.extend (entry : PendingAuth) (auth : Rotation) : PendingAuth where
  prior := entry.prior
  recordId := entry.recordId.or auth.recordId
  refreshToken := auth.refreshToken
  accessToken := auth.accessToken
  expiresAt := auth.expiresAt
  recordedAt := auth.recordedAt

/-- Extends the first entry that leads to the spent token. -/
def extendChained (auth : Rotation) : List PendingAuth → List PendingAuth
  | [] => []
  | entry :: entries =>
    if entry.refreshToken = auth.priorRefreshToken then entry.extend auth :: entries
    else entry :: extendChained auth entries

/-- Drops the `excess` oldest entries. -/
def dropOldest (excess : Nat) (entries : List PendingAuth) : List PendingAuth :=
  let dropped := ((entries.zipIdx.mergeSort (fun a b => decide (a.1.recordedAt ≤ b.1.recordedAt))).take excess).map Prod.snd
  (entries.zipIdx.filter (fun entry => !dropped.contains entry.2)).map Prod.fst

def survivors (journal : List PendingAuth) (auth : Rotation) : List PendingAuth :=
  journal.filter (fun entry =>
    decide (entry.prior ≠ Host.sha256 auth.priorRefreshToken) && decide (entry.prior ≠ Host.sha256 auth.refreshToken))

/-- Records a rotated credential. `reset` says that the pool was reset on purpose. -/
def recordPendingAuth (reset : Bool) (journal : List PendingAuth) (auth : Rotation) :
    Except StorageError (List PendingAuth) :=
  if reset then .error ⟨"Account pool was reset; rotated credentials were not retained.","ESTALE"⟩
  else
    let chained := extendChained auth (survivors journal auth)
    let excess := chained.length + 1 - maxEntries
    -- The entry recorded now is never among the dropped ones.
    if 0 < excess then .ok (dropOldest excess chained ++ [auth.entry]) else .ok (chained ++ [auth.entry])

def entryFor (journal : List PendingAuth) (account : AccountMetadataV3) : Option PendingAuth :=
  (account.refreshToken.bind nonEmpty).bind (fun token => journal.find? (fun entry => entry.prior = Host.sha256 token))

def applyEntry (account : AccountMetadataV3) (entry : PendingAuth) : AccountMetadataV3 :=
  let known : AccountMetadataV3 :=
    if account.find "recordId" = none then account.assign "recordId" (entry.recordId.map .str) else account
  let rotated : AccountMetadataV3 :=
    ((known.put "refreshToken" (.str entry.refreshToken)).put "accessToken" (.str entry.accessToken)).put "expiresAt"
      (.num entry.expiresAt)
  let valid : AccountMetadataV3 := (rotated.remove "authInvalidatedAt").remove "authInvalidationErrorCode"
  if valid.cooldownReason = some "auth-failure" then (valid.remove "coolingDownUntil").remove "cooldownReason"
  else valid

/-- Overlays the journal on the rows that hold a spent token. An unreadable
    journal leaves the document as it is. -/
def applyPendingAuth (journal : Except StorageError (List PendingAuth)) (storage : AccountStorageV3) : AccountStorageV3 :=
  match journal with
  | .error _ => storage
  | .ok entries =>
    { storage with
      accounts := storage.accounts.map (fun account => (entryFor entries account).elim account (applyEntry account)) }

/-- Drops the entries whose spent token neither the saved rows nor a recovery
    source holds. A failed scan of the recovery sources keeps them all. -/
def prunePendingAuth (journal : List PendingAuth) (saved : AccountStorageV3)
    (restorableRefreshTokens : Option (Except StorageError (List String))) : List PendingAuth :=
  let rows := saved.accounts.filterMap AccountMetadataV3.refreshToken
  match restorableRefreshTokens with
  | some (.error _) => journal
  | some (.ok tokens) => journal.filter (fun entry => ((rows ++ tokens).map Host.sha256).contains entry.prior)
  | none => journal.filter (fun entry => (rows.map Host.sha256).contains entry.prior)

theorem length_extendChained (auth : Rotation) (entries : List PendingAuth) :
    (extendChained auth entries).length = entries.length := by
  induction entries with
  | nil => rfl
  | cons entry entries ih => simp only [extendChained]; split <;> simp [ih]

theorem length_survivors (journal : List PendingAuth) (auth : Rotation) :
    (survivors journal auth).length ≤ journal.length := length_filter_le _ _

variable {journal : List PendingAuth}

theorem recordPendingAuth_below (auth : Rotation) (below : journal.length < maxEntries) :
    recordPendingAuth false journal auth = .ok (extendChained auth (survivors journal auth) ++ [auth.entry]) := by
  have none : (extendChained auth (survivors journal auth)).length + 1 - maxEntries = 0 := by
    have := length_survivors journal auth
    rw [length_extendChained]; omega
  simp [recordPendingAuth,none]

/-- Recordings in order. -/
def recordAll (journal : List PendingAuth) : List Rotation → Except StorageError (List PendingAuth)
  | [] => .ok journal
  | auth :: later =>
    match recordPendingAuth false journal auth with
    | .error e => .error e
    | .ok journal => recordAll journal later

/-- The journal is below its cap before every recording. -/
def staysBelow (journal : List PendingAuth) : List Rotation → Bool
  | [] => true
  | auth :: later =>
    decide (journal.length < maxEntries) &&
      match recordPendingAuth false journal auth with
      | .error _ => true
      | .ok journal => staysBelow journal later

/-! ### The entries of one chain of rotations -/

def Chained (tokens : Nat → Token) (rotations : List Rotation) : Prop :=
  ∀ k auth, rotations[k]? = some auth → auth.priorRefreshToken = tokens k ∧ auth.refreshToken = tokens (k + 1)

/-- The tokens of a chain of `n` rotations. -/
def chainTokens (tokens : Nat → Token) (n : Nat) : List Token := (List.range (n + 1)).map tokens

def hashes (chain : List Token) : List String := chain.map (fun token : Token => Host.sha256 token)

def Rotation.touches (chain : List Token) (auth : Rotation) : Bool :=
  chain.contains auth.priorRefreshToken || chain.contains auth.refreshToken

def PendingAuth.touches (chain : List Token) (entry : PendingAuth) : Bool :=
  (hashes chain).contains entry.prior || chain.contains entry.refreshToken

/-- What one recording does to the entries of its own chain. -/
def advance (entries : List PendingAuth) (auth : Rotation) : List PendingAuth :=
  extendChained auth entries ++ [auth.entry]

variable {chain : List Token} {auth : Rotation} {entries : List PendingAuth}

theorem filter_extendChained_other (apart : auth.touches chain = false)
    (inside : ∀ entry ∈ entries, entry.touches chain = true → entry.refreshToken ∈ chain) :
    (extendChained auth entries).filter (PendingAuth.touches chain) = entries.filter (PendingAuth.touches chain) := by
  simp only [Rotation.touches,Bool.or_eq_false_iff,contains_eq_mem,decide_eq_false_iff_not] at apart
  induction entries with
  | nil => rfl
  | cons entry entries ih =>
    simp only [extendChained]
    split
    · rename_i leads
      have before : entry.touches chain = false := by
        cases touched : entry.touches chain with
        | false => rfl
        | true => exact absurd (leads ▸ inside entry (by simp) touched) apart.1
      have after : (entry.extend auth).touches chain = false := by
        simp only [PendingAuth.touches,Bool.or_eq_false_iff] at before ⊢
        exact ⟨before.1,by simpa [PendingAuth.extend] using apart.2⟩
      simp [before,after]
    · simp only [filter_cons]
      rw [ih (fun other member => inside other (mem_cons_of_mem _ member))]

theorem filter_extendChained_own (spent : auth.priorRefreshToken ∈ chain) (fresh : auth.refreshToken ∈ chain) :
    (extendChained auth entries).filter (PendingAuth.touches chain) =
      extendChained auth (entries.filter (PendingAuth.touches chain)) := by
  induction entries with
  | nil => rfl
  | cons entry entries ih =>
    by_cases leads : entry.refreshToken = auth.priorRefreshToken
    · have before : entry.touches chain = true := by simp [PendingAuth.touches,leads,spent]
      have after : (entry.extend auth).touches chain = true := by simp [PendingAuth.touches,PendingAuth.extend,fresh]
      simp [extendChained,leads,before,after]
    · simp only [extendChained,if_neg leads,filter_cons]
      split
      · simp only [extendChained,if_neg leads,ih]
      · exact ih

/-- The entries that a chain leaves: the first follows every rotation, each later
    one stays where its own rotation put it. -/
def chainEntries : List Rotation → List PendingAuth
  | [] => []
  | first :: later => later.foldl PendingAuth.extend first.entry :: later.map Rotation.entry

theorem foldl_extend (first : Rotation) (later : List Rotation) :
    let entry := later.foldl PendingAuth.extend first.entry
    let last := later.getLastD first
    entry.prior = Host.sha256 first.priorRefreshToken ∧ entry.refreshToken = last.refreshToken ∧
      entry.accessToken = last.accessToken ∧ entry.expiresAt = last.expiresAt := by
  induction later using List.reverseRecOn with
  | nil => simp [Rotation.entry]
  | append_singleton later auth ih =>
    simp only [foldl_append,foldl_cons,foldl_nil,getLastD_concat]
    exact ⟨ih.1,rfl,rfl,rfl⟩

variable {tokens : Nat → Token}

theorem chained_done {done pending : List Rotation} (chained : Chained tokens (done ++ pending)) :
    Chained tokens done := by
  intro k auth found
  have bound : k < done.length := (List.getElem?_eq_some_iff.mp found).1
  exact chained k auth (by rw [List.getElem?_append_left bound]; exact found)

theorem chained_last {first : Rotation} {later : List Rotation}
    (chained : Chained tokens (first :: later)) : (later.getLastD first).refreshToken = tokens (later.length + 1) := by
  refine (chained later.length (later.getLastD first) ?_).2
  induction later using List.reverseRecOn with
  | nil => rfl
  | append_singleton later auth _ => simp

variable {done : List Rotation}

theorem advance_chainEntries
    (chained : Chained tokens (done ++ [auth])) : advance (chainEntries done) auth = chainEntries (done ++ [auth]) := by
  cases done with
  | nil => rfl
  | cons first later =>
    have follows := (foldl_extend first later).2.1
    have last := chained_last (chained_done chained)
    have spent := (chained (later.length + 1) auth (by simp)).1
    have leads : (later.foldl PendingAuth.extend first.entry).refreshToken = auth.priorRefreshToken := by
      rw [follows,last,spent]
    simp [advance,chainEntries,extendChained,leads]

theorem mem_chainEntries (chained : Chained tokens done)
    {entry : PendingAuth} (member : entry ∈ chainEntries done) :
    (∃ k < done.length, entry.prior = Host.sha256 (tokens k)) ∧ entry.refreshToken ∈ chainTokens tokens done.length := by
  have inRange : ∀ k ≤ done.length, tokens k ∈ chainTokens tokens done.length := by
    intro k bound
    exact mem_map.mpr ⟨k,by simp; omega,rfl⟩
  cases done with
  | nil => simp [chainEntries] at member
  | cons first later =>
    rcases mem_cons.mp member with rfl | member
    · have follows := foldl_extend first later
      have start := (chained 0 first rfl).1
      refine ⟨⟨0,by simp,by rw [follows.1,start]⟩,?_⟩
      rw [follows.2.1,chained_last chained]
      exact inRange _ (by simp)
    · obtain ⟨auth,recorded,rfl⟩ := mem_map.mp member
      obtain ⟨k,bound,found⟩ := getElem_of_mem recorded
      have place : (first :: later)[k + 1]? = some auth := by simp [List.getElem?_eq_getElem bound,found]
      have pair := chained (k + 1) auth place
      refine ⟨⟨k + 1,by simpa using bound,by simp [Rotation.entry,pair.1]⟩,?_⟩
      have present := inRange (k + 2) (by simp only [length_cons]; omega)
      simpa [Rotation.entry,pair.2] using present

/-! ### Every run of recordings -/

theorem filter_survivors (chain : List Token) (journal : List PendingAuth) (auth : Rotation) :
    (survivors journal auth).filter (PendingAuth.touches chain) =
      survivors (journal.filter (PendingAuth.touches chain)) auth := by
  simp only [survivors,filter_filter,Bool.and_comm]

theorem survivors_all
    (kept : ∀ entry ∈ entries, entry.prior ≠ Host.sha256 auth.priorRefreshToken ∧ entry.prior ≠ Host.sha256 auth.refreshToken) :
    survivors entries auth = entries := by
  refine filter_eq_self.mpr ?_
  intro entry member
  simpa using kept entry member

theorem record_other {own journal : List PendingAuth}
    (held : journal.filter (PendingAuth.touches chain) = own)
    (inside : ∀ entry ∈ own, entry.prior ∈ hashes chain ∧ entry.refreshToken ∈ chain)
    (apart : auth.touches chain = false)
    (spent : Host.sha256 auth.priorRefreshToken ∉ hashes chain)
    (fresh : Host.sha256 auth.refreshToken ∉ hashes chain) :
    (extendChained auth (survivors journal auth) ++ [auth.entry]).filter (PendingAuth.touches chain) = own := by
  have kept : (survivors journal auth).filter (PendingAuth.touches chain) = own := by
    rw [filter_survivors,held]
    refine survivors_all ?_
    intro entry member
    have known := (inside entry member).1
    exact ⟨fun same => spent (same ▸ known),fun same => fresh (same ▸ known)⟩
  have unseen : auth.entry.touches chain = false := by
    simp only [Rotation.touches,Bool.or_eq_false_iff] at apart
    simp only [PendingAuth.touches,Bool.or_eq_false_iff]
    exact ⟨by simpa [Rotation.entry] using spent,apart.2⟩
  rw [filter_append,filter_extendChained_other apart ?_,kept]
  · simp [unseen]
  · intro entry member touched
    have ours : entry ∈ own := by rw [← kept]; exact mem_filter.mpr ⟨member,touched⟩
    exact (inside entry ours).2

theorem record_own {n : Nat}
    (held : journal.filter (PendingAuth.touches (chainTokens tokens n)) = chainEntries done)
    (chained : Chained tokens (done ++ [auth])) (bound : done.length < n)
    (injective : ∀ i ≤ n, ∀ j ≤ n, Host.sha256 (tokens i) = Host.sha256 (tokens j) → i = j) :
    (extendChained auth (survivors journal auth) ++ [auth.entry]).filter (PendingAuth.touches (chainTokens tokens n)) =
      chainEntries (done ++ [auth]) := by
  have pair := chained done.length auth (by simp)
  have known : ∀ k ≤ n, tokens k ∈ chainTokens tokens n := fun k below => mem_map.mpr ⟨k,by simp; omega,rfl⟩
  have spent : auth.priorRefreshToken ∈ chainTokens tokens n := pair.1 ▸ known _ (by omega)
  have fresh : auth.refreshToken ∈ chainTokens tokens n := pair.2 ▸ known _ (by omega)
  have kept : survivors (chainEntries done) auth = chainEntries done := by
    refine survivors_all ?_
    intro entry member
    obtain ⟨⟨k,below,prior⟩,-⟩ := mem_chainEntries (chained_done chained) member
    rw [prior,pair.1,pair.2]
    refine ⟨fun same => ?_,fun same => ?_⟩
    · have := injective k (by omega) done.length (by omega) same; omega
    · have := injective k (by omega) (done.length + 1) (by omega) same; omega
  have seen : auth.entry.touches (chainTokens tokens n) = true := by
    simp only [PendingAuth.touches,Bool.or_eq_true]
    exact .inr (by simpa [Rotation.entry] using fresh)
  rw [filter_append,filter_extendChained_own spent fresh,filter_survivors,held,kept,← advance_chainEntries chained]
  simp [advance,seen]

def mentioned (events : List Rotation) : List Token :=
  events.flatMap (fun auth => [auth.priorRefreshToken,auth.refreshToken])

/-- After any recordings, the entries of a chain among them are those that the
    chain would leave alone. By induction on the recordings, with the part of the
    chain that is already done. -/
theorem recordAll_chain {n : Nat} {events : List Rotation}
    {done pending : List Rotation} (below : staysBelow journal events = true)
    (order : events.filter (Rotation.touches (chainTokens tokens n)) = pending)
    (chained : Chained tokens (done ++ pending)) (size : (done ++ pending).length = n)
    (distinct : ∀ i ≤ n, ∀ j ≤ n, Host.sha256 (tokens i) = Host.sha256 (tokens j) → i = j)
    (injective : ∀ a ∈ mentioned events, ∀ b ∈ chainTokens tokens n, Host.sha256 a = Host.sha256 b → a = b)
    (held : journal.filter (PendingAuth.touches (chainTokens tokens n)) = chainEntries done) :
    ∃ final, recordAll journal events = .ok final ∧
      final.filter (PendingAuth.touches (chainTokens tokens n)) = chainEntries (done ++ pending) := by
  induction events generalizing journal done pending with
  | nil =>
    simp only [filter_nil] at order
    subst order
    exact ⟨journal,by simp only [recordAll],by simpa using held⟩
  | cons auth later ih =>
    simp only [staysBelow,Bool.and_eq_true,decide_eq_true_eq] at below
    have recorded := recordPendingAuth_below auth below.1
    simp only [recorded] at below
    simp only [recordAll,recorded]
    have rest : ∀ a ∈ mentioned later, ∀ b ∈ chainTokens tokens n, Host.sha256 a = Host.sha256 b → a = b :=
      fun a member => injective a (mem_append_right _ member)
    cases touched : auth.touches (chainTokens tokens n) with
    | true =>
      simp only [filter_cons,touched,if_true] at order
      subst order
      have reassociate : done ++ auth :: later.filter (Rotation.touches (chainTokens tokens n)) =
          (done ++ [auth]) ++ later.filter (Rotation.touches (chainTokens tokens n)) := by simp
      rw [reassociate] at chained size ⊢
      have bound : done.length < n := by simp only [length_append,length_cons,length_nil] at size; omega
      exact ih below.2 rfl chained size rest (record_own held (chained_done chained) bound distinct)
    | false =>
      simp only [filter_cons,touched,Bool.false_eq_true,if_false] at order
      simp only [Rotation.touches,Bool.or_eq_false_iff,contains_eq_mem,decide_eq_false_iff_not] at touched
      have unseen : ∀ token ∈ [auth.priorRefreshToken,auth.refreshToken], token ∉ chainTokens tokens n →
          Host.sha256 token ∉ hashes (chainTokens tokens n) := by
        intro token member apart known
        obtain ⟨other,inChain,same⟩ := mem_map.mp known
        exact apart (injective token (mem_append_left _ member) other inChain same.symm ▸ inChain)
      refine ih below.2 order chained size rest (record_other held ?_ (by simp [Rotation.touches,touched])
        (unseen _ (by simp) touched.1) (unseen _ (by simp) touched.2))
      intro entry member
      obtain ⟨⟨k,short,prior⟩,leads⟩ := mem_chainEntries (chained_done chained) member
      simp only [length_append] at size
      have known : ∀ k ≤ n, tokens k ∈ chainTokens tokens n := fun k below => mem_map.mpr ⟨k,by simp; omega,rfl⟩
      refine ⟨prior ▸ mem_map_of_mem (known k (by omega)),?_⟩
      obtain ⟨j,small,same⟩ := mem_map.mp leads
      rw [← same]
      exact known j (by simp at small; omega)

/-! ### What a load reads -/

theorem applyEntry_credential (account : AccountMetadataV3) (entry : PendingAuth) :
    (applyEntry account entry).refreshToken = some entry.refreshToken.val ∧
      (applyEntry account entry).accessToken = some entry.accessToken.val ∧
      (applyEntry account entry).expiresAt = some entry.expiresAt := by
  simp only [applyEntry]
  split <;> split <;> simp [AccountMetadataV3.refreshToken,AccountMetadataV3.accessToken,AccountMetadataV3.expiresAt,
    Record.text,Record.number,Json.asText,Json.asNumber]

theorem entryFor_chain {token : Token} {row : AccountMetadataV3}
    (member : token ∈ chain) (holds : row.refreshToken = some token.val) :
    entryFor journal row =
      (journal.filter (PendingAuth.touches chain)).find? (fun entry => entry.prior = Host.sha256 token) := by
  have text : (row.refreshToken.bind nonEmpty) = some token.val := by simp [holds,nonEmpty,token.property]
  simp only [entryFor,text,Option.bind_some,List.find?_filter]
  congr 1
  funext entry
  by_cases same : entry.prior = Host.sha256 token
  · have seen : entry.touches chain = true := by
      simp only [PendingAuth.touches,Bool.or_eq_true,contains_eq_mem,decide_eq_true_eq]
      exact .inl (same ▸ mem_map_of_mem member)
    simp [same,seen]
  · simp [same]

/-- The entry of a spent token of the chain: the newest credential for the first
    token, the next one for every other. -/
theorem find_chainEntries {first : Rotation} {later : List Rotation} {i : Nat}
    (chained : Chained tokens (first :: later)) (bound : i < (first :: later).length)
    (distinct : ∀ i ≤ (first :: later).length, ∀ j ≤ (first :: later).length,
      Host.sha256 (tokens i) = Host.sha256 (tokens j) → i = j) :
    ∃ entry last, (chainEntries (first :: later)).find? (fun entry => entry.prior = Host.sha256 (tokens i)) = some entry ∧
      (if i = 0 then (first :: later).getLast? else (first :: later)[i]?) = some last ∧
      entry.refreshToken = last.refreshToken ∧ entry.accessToken = last.accessToken ∧ entry.expiresAt = last.expiresAt := by
  have follows := foldl_extend first later
  have start := (chained 0 first rfl).1
  cases i with
  | zero =>
    refine ⟨_,later.getLastD first,?_,?_,follows.2⟩
    · simp [chainEntries,follows.1,start]
    · simp [List.getLast?_cons,getLastD_eq_getLast?]
  | succ i =>
    simp only [length_cons,Nat.add_lt_add_iff_right] at bound
    refine ⟨(later[i]).entry,later[i],?_,by simp [bound],rfl,rfl,rfl⟩
    have prior : ∀ k (small : k < later.length), (later[k]).entry.prior = Host.sha256 (tokens (k + 1)) := by
      intro k small
      have pair := chained (k + 1) later[k] (by simp [small])
      simp [Rotation.entry,pair.1]
    have other : ¬ (later.foldl PendingAuth.extend first.entry).prior = Host.sha256 (tokens (i + 1)) := by
      rw [follows.1,start]
      intro same
      have := distinct 0 (by simp) (i + 1) (by simp only [length_cons]; omega) same
      omega
    simp only [chainEntries,List.find?_cons,other,decide_false]
    refine List.find?_eq_some_iff_getElem.mpr ⟨by simp [prior i bound],i,by simpa using bound,by simp,?_⟩
    intro k earlier
    have small : k < later.length := by omega
    simp only [getElem_map,prior k small,Bool.not_eq_true',decide_eq_false_iff_not]
    intro same
    have := distinct (k + 1) (by simp only [length_cons]; omega) (i + 1) (by simp only [length_cons]; omega) same
    omega

/-- Every row that holds the token is loaded with the credential of a rotation. -/
def LeadsTo (journal : List PendingAuth) (token : Token) (newest : Rotation) : Prop :=
  ∀ (storage : AccountStorageV3) (j : Nat) (row : AccountMetadataV3), storage.accounts[j]? = some row →
    row.refreshToken = some token.val →
    ∃ loaded : AccountMetadataV3, (applyPendingAuth (.ok journal) storage).accounts[j]? = some loaded ∧
      loaded.refreshToken = some newest.refreshToken.val ∧ loaded.accessToken = some newest.accessToken.val ∧
      loaded.expiresAt = some newest.expiresAt

theorem leadsTo_iff {token : Token} {entry : PendingAuth}
    {newest : Rotation} (member : token ∈ chain)
    (found : (journal.filter (PendingAuth.touches chain)).find? (fun entry => entry.prior = Host.sha256 token) = some entry) :
    LeadsTo journal token newest ↔ entry.refreshToken = newest.refreshToken ∧ entry.accessToken = newest.accessToken ∧
      entry.expiresAt = newest.expiresAt := by
  constructor
  · intro leads
    let row : AccountMetadataV3 := [("refreshToken",.str token.val)]
    have holds : row.refreshToken = some token.val := by
      simp [row,AccountMetadataV3.refreshToken,Record.text,OrderedMap.find_cons,Json.asText]
    obtain ⟨loaded,place,refresh,access,expires⟩ := leads ⟨[row],0,none,none,none,[]⟩ 0 row rfl holds
    simp only [applyPendingAuth,map_cons,map_nil,entryFor_chain member holds,found,Option.elim_some,
      List.getElem?_cons_zero,Option.some.injEq] at place
    have same := applyEntry_credential row entry
    rw [place,refresh,access,expires] at same
    simp only [Option.some.injEq] at same
    exact ⟨Subtype.ext same.1.symm,Subtype.ext same.2.1.symm,same.2.2.symm⟩
  · rintro ⟨refresh,access,expires⟩ storage j row place holds
    refine ⟨applyEntry row entry,?_,?_⟩
    · simp [applyPendingAuth,List.getElem?_map,place,entryFor_chain member holds,found]
    · have same := applyEntry_credential row entry
      rwa [refresh,access,expires] at same

/-- After the recordings of a chain, in any order with others, the journal leads
    from a spent token to the newest credential exactly for the first token and
    for the last one spent. -/
theorem journal_newest_iff (initial : List PendingAuth) (events earlier : List Rotation) (newest : Rotation)
    (tokens : Nat → Token)
    (order : events.filter (Rotation.touches (chainTokens tokens (earlier.length + 1))) = earlier ++ [newest])
    (chained : Chained tokens (earlier ++ [newest]))
    (distinct : ∀ i ≤ earlier.length + 1, ∀ j ≤ earlier.length + 1, tokens i = tokens j → i = j)
    (injective : ∀ a ∈ mentioned events, ∀ b ∈ mentioned events, Host.sha256 a = Host.sha256 b → a = b)
    (unrelated : ∀ entry ∈ initial, entry.touches (chainTokens tokens (earlier.length + 1)) = false)
    (below : staysBelow initial events = true) (i : Nat) (bound : i < earlier.length + 1) :
    ∃ journal, recordAll initial events = .ok journal ∧
      (LeadsTo journal (tokens i) newest ↔ i = 0 ∨ i = earlier.length) := by
  let n := earlier.length + 1
  have size : (earlier ++ [newest]).length = n := by simp [n]
  have known : ∀ k ≤ n, tokens k ∈ chainTokens tokens n := fun k small => mem_map.mpr ⟨k,by simp; omega,rfl⟩
  have spoken : ∀ auth ∈ earlier ++ [newest], auth.priorRefreshToken ∈ mentioned events ∧ auth.refreshToken ∈ mentioned events := by
    intro auth member
    have recorded : auth ∈ events := mem_of_mem_filter (order ▸ member)
    exact ⟨mem_flatMap.mpr ⟨auth,recorded,by simp⟩,mem_flatMap.mpr ⟨auth,recorded,by simp⟩⟩
  have mention : ∀ k ≤ n, tokens k ∈ mentioned events := by
    intro k small
    rcases Nat.lt_or_ge k n with inside | outside
    · have found : (earlier ++ [newest])[k]? = some (earlier ++ [newest])[k] := List.getElem?_eq_getElem (size ▸ inside)
      exact (chained k _ found).1 ▸ (spoken _ (getElem_mem _)).1
    · have same : k = earlier.length + 1 := by omega
      exact same ▸ (chained earlier.length newest (by simp)).2 ▸ (spoken newest (by simp)).2
  have apart : ∀ i ≤ n, ∀ j ≤ n, Host.sha256 (tokens i) = Host.sha256 (tokens j) → i = j := fun i si j sj same =>
    distinct i si j sj (injective _ (mention i si) _ (mention j sj) same)
  have start : initial.filter (PendingAuth.touches (chainTokens tokens n)) = chainEntries [] :=
    filter_eq_nil_iff.mpr (fun entry member => by simpa using unrelated entry member)
  have collide : ∀ a ∈ mentioned events, ∀ b ∈ chainTokens tokens n, Host.sha256 a = Host.sha256 b → a = b := by
    intro a said b member same
    obtain ⟨k,small,rfl⟩ := mem_map.mp member
    exact injective a said _ (mention k (by simpa using Nat.le_of_lt_succ (mem_range.mp small))) same
  obtain ⟨journal,recorded,held⟩ := @recordAll_chain _ initial tokens n events [] _ below order chained size apart collide start
  refine ⟨journal,recorded,?_⟩
  obtain ⟨first,later,split⟩ : ∃ first later, earlier ++ [newest] = first :: later := exists_cons_of_ne_nil (by simp)
  rw [nil_append,split] at held
  obtain ⟨entry,last,found,leads,same⟩ :=
    find_chainEntries (i := i) (split ▸ chained) (split ▸ size ▸ bound) (by rw [← split,size]; exact apart)
  rw [leadsTo_iff (known i (by omega)) (held ▸ found),same.1,same.2.1,same.2.2]
  rw [← split] at leads
  rcases Nat.eq_zero_or_pos i with rfl | later
  · simp at leads
    simp [leads]
  · rw [if_neg (by omega)] at leads
    constructor
    · rintro ⟨refresh,-,-⟩
      have next := (chained i last leads).2
      have final := (chained earlier.length newest (by simp)).2
      have := distinct (i + 1) (by omega) (earlier.length + 1) (by omega) (by rw [← next,← final,refresh])
      omega
    · rintro (first | final)
      · omega
      · subst final
        simp at leads
        simp [leads]

end

section
attribute [local instance] asciiHost

/-- The tokens `r`, `rr`, `rrr` and so on. -/
private def token (k : Nat) : Token := ⟨String.ofList ('r' :: List.replicate k 'r'),by simp [← String.toList_eq_nil_iff]⟩

private def rotation (k : Nat) : Rotation := ⟨token k,none,token (k + 1),token (k + 1),k,k⟩

/-- After three rotations the second token leads to the third, which is spent. -/
theorem journal_leads_to_spent :
    ∃ journal, recordAll [] [rotation 0,rotation 1,rotation 2] = .ok journal ∧
      ¬ LeadsTo journal (token 1) (rotation 2) := by
  refine ⟨[⟨"r",none,token 3,token 3,2,2⟩,⟨"rr",none,token 2,token 2,1,1⟩,⟨"rrr",none,token 3,token 3,2,2⟩],by decide +kernel,?_⟩
  intro leads
  obtain ⟨loaded,place,refresh,-⟩ := leads ⟨[[("refreshToken",.str "rr")]],0,none,none,none,[]⟩ 0 _ rfl (by decide)
  have spent : (applyPendingAuth (.ok [⟨"r",none,token 3,token 3,2,2⟩,⟨"rr",none,token 2,token 2,1,1⟩,
      ⟨"rrr",none,token 3,token 3,2,2⟩]) ⟨[[("refreshToken",.str "rr")]],0,none,none,none,[]⟩).accounts[0]?.bind
        AccountMetadataV3.refreshToken = some "rrr" := by decide
  rw [place,Option.bind_some,refresh] at spent
  exact absurd spent (by decide)

/-- Two rotations, where both spent tokens lead to the newest. -/
theorem journal_newest_iff_two : ∃ journal, recordAll [] [rotation 0,rotation 1] = .ok journal ∧
    (LeadsTo journal (token 1) (rotation 1) ↔ 1 = 0 ∨ 1 = 1) :=
  journal_newest_iff [] [rotation 0,rotation 1] [rotation 0] (rotation 1) token (by decide)
    (by
      intro k auth found
      match k, found with
      | 0, found => cases found; exact ⟨rfl,rfl⟩
      | 1, found => cases found; exact ⟨rfl,rfl⟩
      | k + 2, found => simp at found)
    (by decide) (by decide) (by decide) (by decide +kernel) 1 (by decide)
end

end CodexMultiAuth
