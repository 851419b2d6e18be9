import CodexMultiAuth.AccountMatch
import CodexMultiAuth.LazyHeap

/-!
The deduplication pass with its four indexes: for every pair of account id and email,
every email and every refresh token the surviving rows that carry it, and for every
account id the positions of its owners. The indexes describe the survivors after every
row (`runPass_faithful`), so the pass returns what scanning the survivors for each row
would.
-/
namespace CodexMultiAuth
open List OrderedMap Option LazyHeap AccountIdentityRef
set_option linter.unusedSectionVars false

/-- The newest surviving owner of one value, by position. -/
abbrev DedupNewestIndex := LazyHeap Nat FreshKey

structure DedupEmailIndex where
  newest : DedupNewestIndex := {}
  /-- How many owners carry each account id. -/
  accountIds : OrderedMap String ℤ := []

structure DedupRefreshIndex where
  newest : DedupNewestIndex := {}
  accountIds : OrderedMap String ℤ := []
  emailKeys : OrderedMap String ℤ := []

/-- The survivors, their identities and the indexes over them. -/
structure DedupState (T : Type) where
  deduplicated : List T := []
  refs : List AccountIdentityRef := []
  compositeIndexes : OrderedMap (String × String) DedupNewestIndex := []
  emailIndexes : OrderedMap String DedupEmailIndex := []
  refreshIndexes : OrderedMap String DedupRefreshIndex := []
  accountIdOwners : OrderedMap String (List Nat) := []

def bumpIdentityCount (counts : OrderedMap String ℤ) (key : Option String) (delta : ℤ) : OrderedMap String ℤ :=
  match key with
  | none => counts
  | some key =>
    let next := (counts.find key).getD 0 + delta
    if next ≤ 0 then counts.remove key else counts.put key next

/-- The JSON text of the pair, which keeps it unambiguous. -/
def dedupCompositeKey (ref : AccountIdentityRef) : Option (String × String) :=
  match ref.accountId, ref.emailKey with
  | some id, some email => some (id,email)
  | _, _ => none

def DedupEmailIndex.join (bucket : DedupEmailIndex) (index : Nat) (key : FreshKey) (ref : AccountIdentityRef) :
    DedupEmailIndex where
  newest := bucket.newest.set index key
  accountIds := bumpIdentityCount bucket.accountIds ref.accountId 1

def DedupEmailIndex.leave (bucket : DedupEmailIndex) (index : Nat) (ref : AccountIdentityRef) : DedupEmailIndex where
  newest := bucket.newest.delete index
  accountIds := bumpIdentityCount bucket.accountIds ref.accountId (-1)

def DedupRefreshIndex.join (bucket : DedupRefreshIndex) (index : Nat) (key : FreshKey) (ref : AccountIdentityRef) :
    DedupRefreshIndex where
  newest := bucket.newest.set index key
  accountIds := bumpIdentityCount bucket.accountIds ref.accountId 1
  emailKeys := bumpIdentityCount bucket.emailKeys ref.emailKey 1

def DedupRefreshIndex.leave (bucket : DedupRefreshIndex) (index : Nat) (ref : AccountIdentityRef) : DedupRefreshIndex where
  newest := bucket.newest.delete index
  accountIds := bumpIdentityCount bucket.accountIds ref.accountId (-1)
  emailKeys := bumpIdentityCount bucket.emailKeys ref.emailKey (-1)

/-- Changes the bucket of a key, which is made when it is missing. -/
def joinBucket {κ β : Type} [DecidableEq κ] (buckets : OrderedMap κ β) (empty : β) (key : Option κ) (change : β → β) :
    OrderedMap κ β :=
  match key with
  | none => buckets
  | some key => buckets.put key (change ((buckets.find key).getD empty))

/-- Changes the bucket of a key when there is one. -/
def leaveBucket {κ β : Type} [DecidableEq κ] (buckets : OrderedMap κ β) (key : Option κ) (change : β → β) :
    OrderedMap κ β :=
  match key with
  | none => buckets
  | some key =>
    match buckets.find key with
    | none => buckets
    | some bucket => buckets.put key (change bucket)

section
variable {T : Type} [AccountRow T]

def addToIndexes (s : DedupState T) (index : Nat) (account : T) (ref : AccountIdentityRef) : DedupState T :=
  let key := freshKey index account
  { s with
    compositeIndexes := joinBucket s.compositeIndexes {} (dedupCompositeKey ref) (fun newest => newest.set index key)
    emailIndexes := joinBucket s.emailIndexes {} ref.emailKey (fun bucket => bucket.join index key ref)
    refreshIndexes := joinBucket s.refreshIndexes {} ref.refreshToken (fun bucket => bucket.join index key ref)
    accountIdOwners := joinBucket s.accountIdOwners [] ref.accountId (fun owners => owners.insert index) }

def removeFromIndexes (s : DedupState T) (index : Nat) (ref : AccountIdentityRef) : DedupState T :=
  { s with
    compositeIndexes := leaveBucket s.compositeIndexes (dedupCompositeKey ref) (fun newest => newest.delete index)
    emailIndexes := leaveBucket s.emailIndexes ref.emailKey (fun bucket => bucket.leave index ref)
    refreshIndexes := leaveBucket s.refreshIndexes ref.refreshToken (fun bucket => bucket.leave index ref)
    accountIdOwners := leaveBucket s.accountIdOwners ref.accountId (fun owners => owners.erase index) }

/-! ### Looking a candidate up -/

def compositeTier (s : DedupState T) (candidateRef : AccountIdentityRef) : Option Nat × DedupState T :=
  match dedupCompositeKey candidateRef with
  | none => (none,s)
  | some key =>
    match s.compositeIndexes.find key with
    | none => (none,s)
    | some newest =>
      (newest.newestIndex.1,{ s with compositeIndexes := s.compositeIndexes.put key newest.newestIndex.2 })

/-- Refuses when the owners and the candidate carry more than one account id. -/
def emailTier (s : DedupState T) (candidateRef : AccountIdentityRef) : Option Nat × DedupState T :=
  match candidateRef.emailKey with
  | none => (none,s)
  | some key =>
    match s.emailIndexes.find key with
    | none => (none,s)
    | some bucket =>
      let another := match candidateRef.accountId with
        | none => 0
        | some id => if (bucket.accountIds.find id).isSome then 0 else 1
      if 0 < bucket.newest.size ∧ bucket.accountIds.length + another ≤ 1 then
        (bucket.newest.newestIndex.1,
          { s with emailIndexes := s.emailIndexes.put key { bucket with newest := bucket.newest.newestIndex.2 } })
      else (none,s)

def countConflict (counts : OrderedMap String ℤ) (value : Option String) : Bool :=
  match value with
  | none => false
  | some value => decide (1 < counts.length) || (decide (counts.length = 1) && (counts.find value).isNone)

/-- Refuses an owner that contradicts the candidate, and two owners of a bare token. -/
def refreshTier (s : DedupState T) (candidateRef : AccountIdentityRef) : Option Nat × DedupState T :=
  match candidateRef.refreshToken with
  | none => (none,s)
  | some key =>
    match s.refreshIndexes.find key with
    | none => (none,s)
    | some bucket =>
      let ambiguous := isBare candidateRef && decide (1 < bucket.newest.size)
      if 0 < bucket.newest.size ∧ countConflict bucket.accountIds candidateRef.accountId = false ∧
          countConflict bucket.emailKeys candidateRef.emailKey = false ∧ ambiguous = false then
        (bucket.newest.newestIndex.1,
          { s with refreshIndexes := s.refreshIndexes.put key { bucket with newest := bucket.newest.newestIndex.2 } })
      else (none,s)

/-- The only owner of the account id, unless its email differs. -/
def accountIdTier (s : DedupState T) (candidateRef : AccountIdentityRef) : Option Nat :=
  match candidateRef.accountId, candidateRef.emailKey with
  | some id, some email =>
    match s.accountIdOwners.find id with
    | some [only] =>
      match s.refs[only]?.bind emailKey with
      | none => some only
      | some ownerEmailKey => if ownerEmailKey = email then some only else none
    | _ => none
  | _, _ => none

/-- The survivor that a candidate matches. A query settles the heap it reads. -/
def existingIndex (s : DedupState T) (candidateRef : AccountIdentityRef) : Option Nat × DedupState T :=
  let (found,s) := compositeTier s candidateRef
  if found.isSome then (found,s)
  else
    let (found,s) := emailTier s candidateRef
    if found.isSome then (found,s)
    else
      let (found,s) := refreshTier s candidateRef
      if found.isSome then (found,s) else (accountIdTier s candidateRef,s)

variable [Host]

/-- One row of the pass. -/
def passStep (s : DedupState T) (account : T) : DedupState T :=
  let candidateRef := identityRef account
  let (existing,s) := existingIndex s candidateRef
  match existing with
  | none =>
    addToIndexes { s with deduplicated := s.deduplicated ++ [account],refs := s.refs ++ [candidateRef] }
      s.deduplicated.length account candidateRef
  | some index =>
    match s.deduplicated[index]? with
    | none => s
    | some current =>
      if selectsCandidate current account then
        let replaced :=
          { s with deduplicated := s.deduplicated.set index account,refs := s.refs.set index candidateRef }
        let left := match s.refs[index]? with
          | none => replaced
          | some previousRef => removeFromIndexes replaced index previousRef
        addToIndexes left index account candidateRef
      else s

def runPass (accounts : List T) : DedupState T := accounts.foldl passStep {}

def deduplicateAccountsByIdentityPass (accounts : List T) : List T := (runPass accounts).deduplicated

/-! ### What the indexes describe

The survivors are slots while a replacement is under way: the slot is empty
between the old row's leaving and the new row's joining. -/

def slotAt (slots : List (Option T)) (i : Nat) : Option T := slots[i]?.join

def keysOf (slots : List (Option T)) (predicate : AccountIdentityRef → Bool) (i : Nat) : Option FreshKey :=
  (slotAt slots i).bind (fun account => if predicate (identityRef account) then some (freshKey i account) else none)

/-- How many of these rows carry a value. -/
def tallyOf (slots : List (Option T)) (predicate : AccountIdentityRef → Bool) (facet : AccountIdentityRef → Option String)
    (value : String) : Nat :=
  slots.countP (fun slot =>
    slot.any (fun account => predicate (identityRef account) && decide (facet (identityRef account) = some value)))

variable {slots : List (Option T)} {i : Nat}

theorem keysOf_set (inside : i < slots.length) (slot : Option T)
    (predicate : AccountIdentityRef → Bool) (j : Nat) :
    keysOf (slots.set i slot) predicate j =
      if i = j then slot.bind (fun account => if predicate (identityRef account) then some (freshKey i account) else none)
      else keysOf slots predicate j := by
  simp only [keysOf,slotAt,List.getElem?_set,inside,if_true]
  by_cases same : i = j
  · subst same; simp
  · simp [same]

theorem tallyOf_set {old : Option T} (held : slots[i]? = some old) (slot : Option T)
    (predicate : AccountIdentityRef → Bool) (facet : AccountIdentityRef → Option String) (value : String) :
    tallyOf (slots.set i slot) predicate facet value =
      tallyOf slots predicate facet value -
        (if old.any (fun account => predicate (identityRef account) && decide (facet (identityRef account) = some value)) then 1
          else 0) +
        (if slot.any (fun account => predicate (identityRef account) && decide (facet (identityRef account) = some value)) then 1
          else 0) := by
  obtain ⟨inside,same⟩ := List.getElem?_eq_some_iff.mp held
  rw [tallyOf,countP_set inside,same]; rfl

variable {predicate : AccountIdentityRef → Bool} {facet : AccountIdentityRef → Option String}

theorem tallyOf_pos {value : String} :
    0 < tallyOf slots predicate facet value ↔ ∃ (i : Nat) (account : T), slotAt slots i = some account ∧
      predicate (identityRef account) = true ∧ facet (identityRef account) = some value := by
  simp only [tallyOf,countP_pos_iff]
  constructor
  · rintro ⟨slot,member,holds⟩
    obtain ⟨i,bound,found⟩ := getElem_of_mem member
    cases slot with
    | none => simp at holds
    | some account =>
      simp only [any_some,Bool.and_eq_true,decide_eq_true_eq] at holds
      exact ⟨i,account,by simp [slotAt,List.getElem?_eq_getElem bound,found],holds⟩
  · rintro ⟨i,account,found,holds⟩
    refine ⟨some account,?_,by simpa using holds⟩
    simp only [slotAt,join_eq_some_iff] at found
    exact mem_of_getElem? found

/-- The counter holds these positive counts. -/
structure Tallies (counts : OrderedMap String ℤ) (n : String → Nat) : Prop where
  distinct : counts.keys.Nodup
  value : ∀ v, counts.find v = if n v = 0 then none else some (n v : ℤ)

variable {counts : OrderedMap String ℤ} {n : String → Nat}

theorem tallies_bump (tallies : Tallies counts n) (key : Option String) :
    Tallies (bumpIdentityCount counts key 1) (fun v => n v + if key = some v then 1 else 0) := by
  cases key with
  | none => simpa [bumpIdentityCount] using tallies
  | some k =>
    have old : (counts.find k).getD 0 = (n k : ℤ) := by rw [tallies.value]; split <;> simp_all
    have positive : ¬ ((n k : ℤ) + 1 ≤ 0) := by omega
    simp only [bumpIdentityCount,old,if_neg positive]
    refine ⟨nodup_put tallies.distinct _ _,?_⟩
    intro v
    rw [find_put]
    by_cases same : k = v
    · subst same; simp
    · simp [same,tallies.value]

theorem tallies_drop (tallies : Tallies counts n) {key : Option String}
    (counted : ∀ k, key = some k → 0 < n k) :
    Tallies (bumpIdentityCount counts key (-1)) (fun v => n v - if key = some v then 1 else 0) := by
  cases key with
  | none => simpa [bumpIdentityCount] using tallies
  | some k =>
    have positive := counted k rfl
    have old : (counts.find k).getD 0 = (n k : ℤ) := by rw [tallies.value]; split <;> simp_all
    simp only [bumpIdentityCount,old]
    split
    · rename_i last
      refine ⟨nodup_remove tallies.distinct _,?_⟩
      intro v
      rw [find_remove]
      by_cases same : k = v
      · subst same
        have one : n k = 1 := by omega
        simp [one]
      · simp [same,tallies.value]
    · rename_i more
      refine ⟨nodup_put tallies.distinct _ _,?_⟩
      intro v
      rw [find_put]
      by_cases same : k = v
      · subst same
        have many : ¬ (n k - 1 = 0) := by omega
        simp only [if_true,if_neg many,Option.some.injEq]
        omega
      · simp [same,tallies.value]

theorem find_joinBucket {κ β : Type} [DecidableEq κ] (buckets : OrderedMap κ β) (empty : β) (key : Option κ)
    (change : β → β) (k : κ) :
    ((joinBucket buckets empty key change).find k).getD empty =
      if key = some k then change ((buckets.find k).getD empty) else (buckets.find k).getD empty := by
  cases key with
  | none => simp [joinBucket]
  | some key =>
    simp only [joinBucket,find_put,Option.some.injEq]
    by_cases same : key = k
    · subst same; simp
    · simp [same]

theorem find_leaveBucket {κ β : Type} [DecidableEq κ] {buckets : OrderedMap κ β} {empty : β} {key : Option κ}
    {change : β → β} (still : change empty = empty) (k : κ) :
    ((leaveBucket buckets key change).find k).getD empty =
      if key = some k then change ((buckets.find k).getD empty) else (buckets.find k).getD empty := by
  cases key with
  | none => simp [leaveBucket]
  | some key =>
    simp only [leaveBucket,Option.some.injEq]
    cases held : buckets.find key with
    | none =>
      by_cases same : key = k
      · subst same; simp [held,still]
      · simp [same]
    | some bucket =>
      simp only [find_put]
      by_cases same : key = k
      · subst same; simp [held]
      · simp [same]

def hasComposite (key : String × String) (ref : AccountIdentityRef) : Bool := decide (dedupCompositeKey ref = some key)
def hasEmail (key : String) (ref : AccountIdentityRef) : Bool := decide (ref.emailKey = some key)
def hasToken (key : String) (ref : AccountIdentityRef) : Bool := decide (ref.refreshToken = some key)

/-- Every bucket describes the slots whose row carries the bucket's key. -/
structure Described (s : DedupState T) (slots : List (Option T)) : Prop where
  composite : ∀ k, ((s.compositeIndexes.find k).getD {}).Represents (keysOf slots (hasComposite k))
  email : ∀ k, ((s.emailIndexes.find k).getD {}).newest.Represents (keysOf slots (hasEmail k))
  emailIds : ∀ k, Tallies ((s.emailIndexes.find k).getD {}).accountIds
    (tallyOf slots (hasEmail k) accountId)
  refresh : ∀ k, ((s.refreshIndexes.find k).getD {}).newest.Represents (keysOf slots (hasToken k))
  refreshIds : ∀ k, Tallies ((s.refreshIndexes.find k).getD {}).accountIds
    (tallyOf slots (hasToken k) accountId)
  refreshEmails : ∀ k, Tallies ((s.refreshIndexes.find k).getD {}).emailKeys
    (tallyOf slots (hasToken k) emailKey)
  distinctOwners : ∀ k, ((s.accountIdOwners.find k).getD []).Nodup
  owners : ∀ k i, i ∈ (s.accountIdOwners.find k).getD [] ↔
    ∃ account, slotAt slots i = some account ∧ (identityRef account).accountId = some k

variable {h : DedupNewestIndex}

private theorem represents_join (rep : h.Represents (keysOf slots predicate)) (free : slots[i]? = some none) (account : T) :
    (if predicate (identityRef account) then h.set i (freshKey i account) else h).Represents
      (keysOf (slots.set i (some account)) predicate) := by
  have inside := (List.getElem?_eq_some_iff.mp free).1
  have keys : keysOf (slots.set i (some account)) predicate = fun j =>
      if i = j then (if predicate (identityRef account) then some (freshKey i account) else none)
      else keysOf slots predicate j := by
    funext j; rw [keysOf_set inside]; rfl
  rw [keys]
  split
  · exact represents_set rep i _
  · have empty : (fun j => if i = j then none else keysOf slots predicate j) = keysOf slots predicate := by
      funext j
      split
      · rename_i same; subst same; simp [keysOf,slotAt,free]
      · rfl
    simpa [empty] using rep

private theorem represents_leave {account : T} (rep : h.Represents (keysOf slots predicate)) (held : slots[i]? = some (some account)) :
    (if predicate (identityRef account) then h.delete i else h).Represents (keysOf (slots.set i none) predicate) := by
  have inside := (List.getElem?_eq_some_iff.mp held).1
  have keys : keysOf (slots.set i none) predicate = fun j => if i = j then none else keysOf slots predicate j := by
    funext j; rw [keysOf_set inside]; rfl
  rw [keys]
  split
  · exact represents_delete rep i
  · rename_i other
    have empty : (fun j => if i = j then none else keysOf slots predicate j) = keysOf slots predicate := by
      funext j
      split
      · rename_i same; subst same; simp [keysOf,slotAt,held,other]
      · rfl
    rwa [empty]

private theorem tallies_join (tallies : Tallies counts (tallyOf slots predicate facet))
    (free : slots[i]? = some none) (account : T) :
    Tallies (if predicate (identityRef account) then bumpIdentityCount counts (facet (identityRef account)) 1 else counts)
      (tallyOf (slots.set i (some account)) predicate facet) := by
  have counted : tallyOf (slots.set i (some account)) predicate facet = fun v => tallyOf slots predicate facet v +
      if predicate (identityRef account) = true ∧ facet (identityRef account) = some v then 1 else 0 := by
    funext v; rw [tallyOf_set free]; simp
  rw [counted]
  split
  · rename_i holds; simpa [holds] using tallies_bump tallies (facet (identityRef account))
  · rename_i other; simpa [other] using tallies

private theorem tallies_leave {account : T}
    (tallies : Tallies counts (tallyOf slots predicate facet)) (held : slots[i]? = some (some account)) :
    Tallies (if predicate (identityRef account) then bumpIdentityCount counts (facet (identityRef account)) (-1) else counts)
      (tallyOf (slots.set i none) predicate facet) := by
  have counted : tallyOf (slots.set i none) predicate facet = fun v => tallyOf slots predicate facet v -
      if predicate (identityRef account) = true ∧ facet (identityRef account) = some v then 1 else 0 := by
    funext v; rw [tallyOf_set held]; simp
  rw [counted]
  split
  · rename_i holds
    have present : ∀ k, facet (identityRef account) = some k → 0 < tallyOf slots predicate facet k := by
      intro k same
      exact tallyOf_pos.mpr ⟨i,account,by simp [slotAt,held],holds,same⟩
    simpa [holds] using tallies_drop tallies present
  · rename_i other; simpa [other] using tallies

variable {s : DedupState T}

theorem described_add (described : Described s slots)
    (free : slots[i]? = some none) (account : T) :
    Described (addToIndexes s i account (identityRef account)) (slots.set i (some account)) where
  composite k := by
    simp only [addToIndexes,find_joinBucket]
    simpa [hasComposite] using represents_join (described.composite k) free account
  email k := by
    simp only [addToIndexes,find_joinBucket]
    have := represents_join (described.email k) free account
    simp only [hasEmail,decide_eq_true_eq] at this
    split <;> rename_i same <;> simpa [same,DedupEmailIndex.join] using this
  emailIds k := by
    simp only [addToIndexes,find_joinBucket]
    have := tallies_join (described.emailIds k) free account
    simp only [hasEmail,decide_eq_true_eq] at this
    split <;> rename_i same <;> simpa [same,DedupEmailIndex.join] using this
  refresh k := by
    simp only [addToIndexes,find_joinBucket]
    have := represents_join (described.refresh k) free account
    simp only [hasToken,decide_eq_true_eq] at this
    split <;> rename_i same <;> simpa [same,DedupRefreshIndex.join] using this
  refreshIds k := by
    simp only [addToIndexes,find_joinBucket]
    have := tallies_join (described.refreshIds k) free account
    simp only [hasToken,decide_eq_true_eq] at this
    split <;> rename_i same <;> simpa [same,DedupRefreshIndex.join] using this
  refreshEmails k := by
    simp only [addToIndexes,find_joinBucket]
    have := tallies_join (described.refreshEmails k) free account
    simp only [hasToken,decide_eq_true_eq] at this
    split <;> rename_i same <;> simpa [same,DedupRefreshIndex.join] using this
  distinctOwners k := by
    simp only [addToIndexes,find_joinBucket]
    split
    · exact List.Nodup.insert (described.distinctOwners k)
    · exact described.distinctOwners k
  owners k j := by
    have inside := (List.getElem?_eq_some_iff.mp free).1
    have slot : slotAt (slots.set i (some account)) j = if i = j then some account else slotAt slots j := by
      simp only [slotAt,List.getElem?_set,inside,if_true]
      split <;> rfl
    simp only [addToIndexes,find_joinBucket,slot]
    by_cases here : i = j
    · subst here
      split
      · rename_i same; simp [same]
      · rename_i other
        rw [described.owners k i]
        simp [slotAt,free,other]
    · split
      · rw [mem_insert_iff,described.owners k j]
        simp [Ne.symm here]
      · rw [described.owners k j]

private theorem compositeBucket_leave (s : DedupState T) (i : Nat) (key : Option (String × String)) (k : String × String) :
    ((leaveBucket s.compositeIndexes key (fun newest => newest.delete i)).find k).getD {} =
      if key = some k then ((s.compositeIndexes.find k).getD {}).delete i else (s.compositeIndexes.find k).getD {} :=
  find_leaveBucket rfl k

private theorem emailBucket_leave (s : DedupState T) (i : Nat) (ref : AccountIdentityRef) (key : Option String) (k : String) :
    ((leaveBucket s.emailIndexes key (fun bucket => bucket.leave i ref)).find k).getD {} =
      if key = some k then ((s.emailIndexes.find k).getD {}).leave i ref else (s.emailIndexes.find k).getD {} :=
  find_leaveBucket (by cases h : ref.accountId <;> simp [DedupEmailIndex.leave,h,bumpIdentityCount,LazyHeap.delete,OrderedMap.remove]) k

private theorem refreshBucket_leave (s : DedupState T) (i : Nat) (ref : AccountIdentityRef) (key : Option String) (k : String) :
    ((leaveBucket s.refreshIndexes key (fun bucket => bucket.leave i ref)).find k).getD {} =
      if key = some k then ((s.refreshIndexes.find k).getD {}).leave i ref else (s.refreshIndexes.find k).getD {} :=
  find_leaveBucket (by
    cases h : ref.accountId <;> cases h' : ref.emailKey <;>
      simp [DedupRefreshIndex.leave,h,h',bumpIdentityCount,LazyHeap.delete,OrderedMap.remove]) k

private theorem ownersBucket_leave (s : DedupState T) (i : Nat) (key : Option String) (k : String) :
    ((leaveBucket s.accountIdOwners key (fun owners => owners.erase i)).find k).getD [] =
      if key = some k then ((s.accountIdOwners.find k).getD []).erase i else (s.accountIdOwners.find k).getD [] :=
  find_leaveBucket rfl k

theorem described_remove (described : Described s slots) {account : T}
    (held : slots[i]? = some (some account)) :
    Described (removeFromIndexes s i (identityRef account)) (slots.set i none) where
  composite k := by
    simp only [removeFromIndexes,compositeBucket_leave]
    simpa [hasComposite] using represents_leave (described.composite k) held
  email k := by
    have left := represents_leave (described.email k) held
    simp only [hasEmail,decide_eq_true_eq] at left
    simp only [removeFromIndexes,emailBucket_leave]
    split <;> rename_i same <;> simpa [same,DedupEmailIndex.leave] using left
  emailIds k := by
    have left := tallies_leave (described.emailIds k) held
    simp only [hasEmail,decide_eq_true_eq] at left
    simp only [removeFromIndexes,emailBucket_leave]
    split <;> rename_i same <;> simpa [same,DedupEmailIndex.leave] using left
  refresh k := by
    have left := represents_leave (described.refresh k) held
    simp only [hasToken,decide_eq_true_eq] at left
    simp only [removeFromIndexes,refreshBucket_leave]
    split <;> rename_i same <;> simpa [same,DedupRefreshIndex.leave] using left
  refreshIds k := by
    have left := tallies_leave (described.refreshIds k) held
    simp only [hasToken,decide_eq_true_eq] at left
    simp only [removeFromIndexes,refreshBucket_leave]
    split <;> rename_i same <;> simpa [same,DedupRefreshIndex.leave] using left
  refreshEmails k := by
    have left := tallies_leave (described.refreshEmails k) held
    simp only [hasToken,decide_eq_true_eq] at left
    simp only [removeFromIndexes,refreshBucket_leave]
    split <;> rename_i same <;> simpa [same,DedupRefreshIndex.leave] using left
  distinctOwners k := by
    simp only [removeFromIndexes,ownersBucket_leave]
    split
    · exact List.Nodup.erase i (described.distinctOwners k)
    · exact described.distinctOwners k
  owners k j := by
    have inside := (List.getElem?_eq_some_iff.mp held).1
    have slot : slotAt (slots.set i none) j = if i = j then none else slotAt slots j := by
      simp only [slotAt,List.getElem?_set,inside,if_true]
      split <;> rfl
    simp only [removeFromIndexes,ownersBucket_leave,slot]
    by_cases here : i = j
    · subst here
      split
      · have gone : i ∉ ((s.accountIdOwners.find k).getD []).erase i := by
          rw [List.Nodup.mem_erase_iff (described.distinctOwners k)]; simp
        simp [gone]
      · rename_i other
        rw [described.owners k i]
        simp [slotAt,held,other]
    · split
      · rw [List.Nodup.mem_erase_iff (described.distinctOwners k),described.owners k j]
        simp [Ne.symm here]
      · rw [described.owners k j]

/-! ### Lookups answer as the scans do -/

def filled (accounts : List T) : List (Option T) := accounts.map some

theorem slotAt_filled (accounts : List T) (i : Nat) : slotAt (filled accounts) i = accounts[i]? := by
  simp only [slotAt,filled,List.getElem?_map]
  cases accounts[i]? <;> rfl

variable {accounts : List T}

theorem keysOf_filled {key : FreshKey} :
    keysOf (filled accounts) predicate i = some key ↔
      ∃ account, accounts[i]? = some account ∧ predicate (identityRef account) = true ∧ freshKey i account = key := by
  simp only [keysOf,slotAt_filled]
  cases accounts[i]? <;> simp

theorem newestIndex_eq (rep : h.Represents (keysOf (filled accounts) predicate)) :
    h.newestIndex.1 = findNewestMatchingIndex accounts predicate := by
  have spec := (newestIndex_spec rep).2
  cases found : h.newestIndex.1 with
  | none =>
    rw [found] at spec
    symm
    rw [findNewest_eq_none]
    intro account member
    obtain ⟨i,bound,value⟩ := getElem_of_mem member
    cases holds : predicate (identityRef account) with
    | false => rfl
    | true =>
      have key := keysOf_filled.mpr ⟨account,List.getElem?_eq_some_iff.mpr ⟨bound,value⟩,holds,rfl⟩
      rw [spec i] at key; cases key
  | some i =>
    rw [found] at spec
    obtain ⟨key,holds,most⟩ := spec
    obtain ⟨account,place,matched,rfl⟩ := keysOf_filled.mp holds
    symm
    rw [findNewest_eq_some]
    refine ⟨account,place,matched,?_⟩
    intro j other foundOther matchedOther
    exact most j _ (keysOf_filled.mpr ⟨other,foundOther,matchedOther,rfl⟩)

theorem size_filled_pos (rep : h.Represents (keysOf (filled accounts) predicate)) :
    0 < h.size ↔ ∃ account ∈ accounts, predicate (identityRef account) = true := by
  rw [size_pos rep]
  constructor
  · rintro ⟨i,holds⟩
    obtain ⟨key,holds⟩ := isSome_iff_exists.mp holds
    obtain ⟨account,place,matched,-⟩ := keysOf_filled.mp holds
    exact ⟨account,mem_of_getElem? place,matched⟩
  · rintro ⟨account,member,matched⟩
    obtain ⟨i,bound,value⟩ := getElem_of_mem member
    have key := keysOf_filled.mpr ⟨account,List.getElem?_eq_some_iff.mpr ⟨bound,value⟩,matched,rfl⟩
    exact ⟨i,by rw [key]; rfl⟩

private theorem one_lt_countP {α : Type} {p : α → Bool} {l : List α} :
    1 < l.countP p ↔ ∃ (i j : Nat) (a b : α), i < j ∧ l[i]? = some a ∧ l[j]? = some b ∧ p a = true ∧ p b = true := by
  induction l with
  | nil => simp
  | cons x l ih =>
    constructor
    · intro many
      by_cases holds : p x = true
      · rw [countP_cons_of_pos holds] at many
        have positive : 0 < l.countP p := by omega
        obtain ⟨b,member,holdsB⟩ := countP_pos_iff.mp positive
        obtain ⟨j,bound,value⟩ := getElem_of_mem member
        exact ⟨0,j + 1,x,b,by omega,rfl,by simp [List.getElem?_eq_getElem bound,value],holds,holdsB⟩
      · rw [countP_cons_of_neg holds] at many
        obtain ⟨i,j,a,b,less,foundA,foundB,holdsA,holdsB⟩ := ih.mp many
        exact ⟨i + 1,j + 1,a,b,by omega,foundA,foundB,holdsA,holdsB⟩
    · rintro ⟨i,j,a,b,less,foundA,foundB,holdsA,holdsB⟩
      obtain ⟨j,rfl⟩ : ∃ k, j = k + 1 := ⟨j - 1,by omega⟩
      rw [List.getElem?_cons_succ] at foundB
      cases i with
      | zero =>
        cases foundA
        have := countP_pos_iff.mpr ⟨b,mem_of_getElem? foundB,holdsB⟩
        rw [countP_cons_of_pos holdsA]; omega
      | succ i =>
        have := ih.mpr ⟨i,j,a,b,by omega,foundA,foundB,holdsA,holdsB⟩
        have : l.countP p ≤ (x :: l).countP p := (sublist_cons_self x l).countP_le
        omega

theorem one_lt_size_filled (rep : h.Represents (keysOf (filled accounts) predicate)) :
    1 < h.size ↔ 1 < accounts.countP (fun account => predicate (identityRef account)) := by
  have held : ∀ i, (keysOf (filled accounts) predicate i).isSome = true ↔
      ∃ account, accounts[i]? = some account ∧ predicate (identityRef account) = true := by
    intro i
    simp only [keysOf,slotAt_filled]
    cases accounts[i]? <;> simp
  rw [one_lt_size rep,one_lt_countP]
  simp only [held]
  constructor
  · rintro ⟨i,j,different,⟨a,foundA,holdsA⟩,⟨b,foundB,holdsB⟩⟩
    rcases Nat.lt_or_gt_of_ne different with less | less
    · exact ⟨i,j,a,b,less,foundA,foundB,holdsA,holdsB⟩
    · exact ⟨j,i,b,a,less,foundB,foundA,holdsB,holdsA⟩
  · rintro ⟨i,j,a,b,less,foundA,foundB,holdsA,holdsB⟩
    exact ⟨i,j,Nat.ne_of_lt less,⟨a,foundA,holdsA⟩,⟨b,foundB,holdsB⟩⟩

structure Faithful (s : DedupState T) : Prop where
  refs : s.refs = s.deduplicated.map identityRef
  described : Described s (filled s.deduplicated)

theorem tallies_mem (tallies : Tallies counts n) {v : String} :
    v ∈ counts.keys ↔ 0 < n v := by
  rw [← find_isSome,tallies.value]
  split
  · rename_i zero; simp [zero]
  · rename_i present; simp; omega

theorem tallies_agree (tallies : Tallies counts n) (own : Option String) :
    counts.length + (match own with
        | none => 0
        | some id => if (counts.find id).isSome then 0 else 1) ≤ 1 ↔
      ∀ a b, (own = some a ∨ 0 < n a) → (own = some b ∨ 0 < n b) → a = b := by
  have size : counts.length = counts.keys.length := by simp [OrderedMap.keys]
  obtain ⟨all,distinct,length,member⟩ : ∃ all : List String, all.Nodup ∧
      all.length = counts.length + (match own with
        | none => 0
        | some id => if (counts.find id).isSome then 0 else 1) ∧
      ∀ v, v ∈ all ↔ own = some v ∨ 0 < n v := by
    cases own with
    | none => exact ⟨counts.keys,tallies.distinct,by simp [size],by simp [tallies_mem tallies]⟩
    | some id =>
      by_cases known : id ∈ counts.keys
      · refine ⟨counts.keys,tallies.distinct,by simp [find_isSome,known,size],?_⟩
        intro v
        rw [tallies_mem tallies,Option.some.injEq]
        exact ⟨.inr,fun either => either.elim (fun same => same ▸ (tallies_mem tallies).mp known) (fun holds => holds)⟩
      · refine ⟨id :: counts.keys,nodup_cons.mpr ⟨known,tallies.distinct⟩,by simp [find_isSome,known,size],?_⟩
        intro v
        rw [mem_cons,tallies_mem tallies,Option.some.injEq,eq_comm]
  rw [← length,← not_lt,one_lt_length_of_nodup distinct]
  simp only [member]
  constructor
  · intro alike a b holdsA holdsB
    by_contra different
    exact alike ⟨a,holdsA,b,holdsB,different⟩
  · rintro alike ⟨a,holdsA,b,holdsB,different⟩
    exact different (alike a b holdsA holdsB)

theorem countConflict_iff (tallies : Tallies counts n) (value : Option String) :
    countConflict counts value = true ↔ ∃ v a, value = some v ∧ 0 < n a ∧ a ≠ v := by
  cases value with
  | none => simp [countConflict]
  | some v =>
    have size : counts.length = counts.keys.length := by simp [OrderedMap.keys]
    simp only [countConflict,Bool.or_eq_true,Bool.and_eq_true,decide_eq_true_eq,isNone_iff_eq_none,
      find_eq_none,Option.some.injEq,size,one_lt_length_of_nodup tallies.distinct,tallies_mem tallies]
    constructor
    · rintro (⟨a,heldA,b,heldB,different⟩ | ⟨single,absent⟩)
      · by_cases same : a = v
        · exact ⟨v,b,rfl,heldB,fun other => different (same.trans other.symm)⟩
        · exact ⟨v,a,rfl,heldA,same⟩
      · obtain ⟨only,known⟩ := length_eq_one_iff.mp single
        have held : 0 < n only := (tallies_mem tallies).mp (by rw [known]; simp)
        exact ⟨v,only,rfl,held,fun same => absent (same ▸ held)⟩
    · rintro ⟨_,a,rfl,held,different⟩
      by_cases counted : 0 < n v
      · exact .inl ⟨a,held,v,counted,different⟩
      · by_cases many : 1 < counts.keys.length
        · obtain ⟨b,heldB,c,heldC,apart⟩ := (one_lt_length_of_nodup tallies.distinct).mp many
          exact .inl ⟨b,(tallies_mem tallies).mp heldB,c,(tallies_mem tallies).mp heldC,apart⟩
        · have positive := length_pos_of_mem ((tallies_mem tallies).mpr held)
          exact .inr ⟨by omega,counted⟩

theorem tallyOf_filled {value : String} :
    0 < tallyOf (filled accounts) predicate facet value ↔
      ∃ account ∈ accounts, predicate (identityRef account) = true ∧ facet (identityRef account) = some value := by
  rw [tallyOf_pos]
  simp only [slotAt_filled]
  constructor
  · rintro ⟨i,account,found,holds⟩; exact ⟨account,mem_of_getElem? found,holds⟩
  · rintro ⟨account,member,holds⟩
    obtain ⟨i,bound,value⟩ := getElem_of_mem member
    exact ⟨i,account,List.getElem?_eq_some_iff.mpr ⟨bound,value⟩,holds⟩

/-- What a lookup returns and leaves behind. -/
structure Answers (s : DedupState T) (result : Option Nat × DedupState T) (expected : Option Nat) : Prop where
  found : result.1 = expected
  deduplicated : result.2.deduplicated = s.deduplicated
  faithful : Faithful result.2

theorem newestIndex_empty : ({} : DedupNewestIndex).newestIndex.1 = none := by
  simp [LazyHeap.newestIndex,LazyHeap.settle]

theorem hasComposite_eq {candidateRef : AccountIdentityRef} {key : String × String}
    (composite : dedupCompositeKey candidateRef = some key) (ref : AccountIdentityRef) :
    hasComposite key ref = (decide (ref.accountId = candidateRef.accountId) && decide (ref.emailKey = candidateRef.emailKey)) := by
  obtain ⟨id,email,token⟩ := candidateRef
  cases id <;> cases email <;> simp only [dedupCompositeKey,reduceCtorEq,Option.some.injEq] at composite
  subst composite
  obtain ⟨id',email',token'⟩ := ref
  cases id' <;> cases email' <;> simp [hasComposite,dedupCompositeKey]

section
variable (faithful : Faithful s)
include faithful

variable (candidateRef : AccountIdentityRef)

theorem compositeTier_answers :
    Answers s (compositeTier s candidateRef) (findCompositeAccountMatchIndex s.deduplicated candidateRef) := by
  have described := faithful.described
  cases composite : dedupCompositeKey candidateRef with
  | none =>
    have absent : (candidateRef.accountId.isNone || candidateRef.emailKey.isNone) = true := by
      obtain ⟨id,email,token⟩ := candidateRef
      cases id <;> cases email <;> simp_all [dedupCompositeKey]
    simp only [compositeTier,composite,findCompositeAccountMatchIndex,absent,if_true]
    exact ⟨rfl,rfl,faithful⟩
  | some key =>
    have present : (candidateRef.accountId.isNone || candidateRef.emailKey.isNone) = false := by
      obtain ⟨id,email,token⟩ := candidateRef
      cases id <;> cases email <;> simp_all [dedupCompositeKey]
    have value := newestIndex_eq (described.composite key)
    have same : hasComposite key = fun ref =>
        decide (ref.accountId = candidateRef.accountId) && decide (ref.emailKey = candidateRef.emailKey) :=
      funext (hasComposite_eq composite)
    simp only [compositeTier,composite,findCompositeAccountMatchIndex,present,Bool.false_eq_true,if_false,← same]
    cases held : s.compositeIndexes.find key with
    | none =>
      rw [held,getD_none,newestIndex_empty] at value
      exact ⟨value,rfl,faithful⟩
    | some newest =>
      rw [held,getD_some] at value
      refine ⟨value,rfl,faithful.refs,{ described with composite := ?_ }⟩
      intro k
      have rep := described.composite k
      simp only [find_put]
      split
      · rename_i here
        subst here
        rw [held,getD_some] at rep
        exact (newestIndex_spec rep).1
      · exact rep

theorem emailTier_answers :
    Answers s (emailTier s candidateRef) (findSafeEmailMatchIndex s.deduplicated candidateRef) := by
  have described := faithful.described
  cases email : candidateRef.emailKey with
  | none =>
    simp only [emailTier,email,findSafeEmailMatchIndex,isNone_none,if_true]
    exact ⟨rfl,rfl,faithful⟩
  | some key =>
    obtain ⟨agreed,disagreed⟩ := safeEmail_eq s.deduplicated email
    have value := newestIndex_eq (described.email key)
    have positive := size_filled_pos (described.email key)
    have alike := tallies_agree (described.emailIds key) candidateRef.accountId
    have agreement : (∀ a b, (candidateRef.accountId = some a ∨ 0 < tallyOf (filled s.deduplicated) (hasEmail key) accountId a) →
        (candidateRef.accountId = some b ∨ 0 < tallyOf (filled s.deduplicated) (hasEmail key) accountId b) → a = b) ↔
        Agreeing (candidateRef.accountId :: ((s.deduplicated.map identityRef).filter (fun ref => decide (ref.emailKey = some key))).map
          accountId) := by
      have member : ∀ a, some a ∈ candidateRef.accountId :: ((s.deduplicated.map identityRef).filter
          (fun ref => decide (ref.emailKey = some key))).map accountId ↔
          candidateRef.accountId = some a ∨ 0 < tallyOf (filled s.deduplicated) (hasEmail key) accountId a := by
        intro a
        rw [tallyOf_filled]
        simp [hasEmail,eq_comm,and_assoc]
      simp only [Agreeing,member]
    simp only [emailTier,email]
    cases held : s.emailIndexes.find key with
    | none =>
      rw [held,getD_none] at value
      simp only [newestIndex_empty] at value
      refine ⟨?_,rfl,faithful⟩
      by_cases agree : Agreeing (candidateRef.accountId :: ((s.deduplicated.map identityRef).filter
          (fun ref => decide (ref.emailKey = some key))).map accountId)
      · rw [agreed agree]; exact value
      · rw [disagreed agree]
    | some bucket =>
      rw [held,getD_some] at value positive alike
      rw [agreement] at alike
      by_cases accepted : 0 < bucket.newest.size ∧ bucket.accountIds.length + (match candidateRef.accountId with
          | none => 0
          | some id => if (bucket.accountIds.find id).isSome then 0 else 1) ≤ 1
      · simp only [if_pos accepted]
        rw [agreed (alike.mp accepted.2)]
        refine ⟨value,rfl,faithful.refs,{ described with email := ?_,emailIds := ?_ }⟩
        · intro k
          have rep := described.email k
          simp only [find_put]
          split
          · rename_i here
            subst here
            rw [held,getD_some] at rep
            exact (newestIndex_spec rep).1
          · exact rep
        · intro k
          have tallies := described.emailIds k
          simp only [find_put]
          split
          · rename_i here
            subst here
            rwa [held,getD_some] at tallies
          · exact tallies
      · simp only [if_neg accepted]
        refine ⟨?_,rfl,faithful⟩
        by_cases agree : Agreeing (candidateRef.accountId :: ((s.deduplicated.map identityRef).filter
            (fun ref => decide (ref.emailKey = some key))).map accountId)
        · have unowned : ¬ 0 < bucket.newest.size := fun occupied => accepted ⟨occupied,alike.mpr agree⟩
          rw [agreed agree]
          symm
          rw [findNewest_eq_none]
          intro account member
          by_contra carries
          exact unowned (positive.mpr ⟨account,member,by simpa [hasEmail] using carries⟩)
        · exact (disagreed agree).symm

theorem refreshTier_answers :
    Answers s (refreshTier s candidateRef) (findCompatibleRefreshTokenMatchIndex s.deduplicated candidateRef) := by
  have described := faithful.described
  cases token : candidateRef.refreshToken with
  | none =>
    simp only [refreshTier,token,findCompatibleRefreshTokenMatchIndex,isNone_none,if_true]
    exact ⟨rfl,rfl,faithful⟩
  | some key =>
    rw [compatibleRefresh_eq s.deduplicated token]
    have value := newestIndex_eq (described.refresh key)
    have positive := size_filled_pos (described.refresh key)
    have several := one_lt_size_filled (described.refresh key)
    have differentIds := countConflict_iff (described.refreshIds key) candidateRef.accountId
    have differentEmails := countConflict_iff (described.refreshEmails key) candidateRef.emailKey
    simp only [tallyOf_filled] at differentIds differentEmails
    simp only [refreshTier,token]
    cases held : s.refreshIndexes.find key with
    | none =>
      rw [held,getD_none] at value
      simp only [newestIndex_empty] at value
      refine ⟨?_,rfl,faithful⟩
      show none = _
      split
      · rfl
      · exact value
    | some bucket =>
      rw [held,getD_some] at value positive several differentIds differentEmails
      -- The counters see a contradicting owner exactly when the scan does.
      have conflict : (countConflict bucket.accountIds candidateRef.accountId = true ∨
          countConflict bucket.emailKeys candidateRef.emailKey = true) ↔
          ∃ account ∈ s.deduplicated, (identityRef account).refreshToken = some key ∧
            contradicts candidateRef (identityRef account) = true := by
        rw [differentIds,differentEmails]
        constructor
        · rintro (⟨v,a,own,⟨account,member,carries,facet⟩,different⟩ | ⟨v,a,own,⟨account,member,carries,facet⟩,different⟩)
          · refine ⟨account,member,by simpa [hasToken] using carries,?_⟩
            simp [contradicts,conflicts,own,facet,Ne.symm different]
          · refine ⟨account,member,by simpa [hasToken] using carries,?_⟩
            simp [contradicts,conflicts,own,facet,Ne.symm different]
        · rintro ⟨account,member,carries,bad⟩
          simp only [contradicts,Bool.or_eq_true,conflicts_iff] at bad
          rcases bad with ⟨v,a,own,facet,different⟩ | ⟨v,a,own,facet,different⟩
          · exact .inl ⟨v,a,own,⟨account,member,by simp [hasToken,carries],facet⟩,different.symm⟩
          · exact .inr ⟨v,a,own,⟨account,member,by simp [hasToken,carries],facet⟩,different.symm⟩
      by_cases accepted : 0 < bucket.newest.size ∧ countConflict bucket.accountIds candidateRef.accountId = false ∧
          countConflict bucket.emailKeys candidateRef.emailKey = false ∧
          (isBare candidateRef && decide (1 < bucket.newest.size)) = false
      · simp only [if_pos accepted]
        obtain ⟨-,ids,emails,clear⟩ := accepted
        rw [if_neg]
        · refine ⟨value,rfl,faithful.refs,{ described with refresh := ?_,refreshIds := ?_,refreshEmails := ?_ }⟩
          · intro k
            have rep := described.refresh k
            simp only [find_put]
            split
            · rename_i here
              subst here
              rw [held,getD_some] at rep
              exact (newestIndex_spec rep).1
            · exact rep
          · intro k
            have tallies := described.refreshIds k
            simp only [find_put]
            split
            · rename_i here
              subst here
              rwa [held,getD_some] at tallies
            · exact tallies
          · intro k
            have tallies := described.refreshEmails k
            simp only [find_put]
            split
            · rename_i here
              subst here
              rwa [held,getD_some] at tallies
            · exact tallies
        · rintro (bad | ⟨bare,many⟩)
          · rcases conflict.mpr bad with wrong | wrong
            · rw [ids] at wrong; cases wrong
            · rw [emails] at wrong; cases wrong
          · simp only [bare,Bool.true_and,decide_eq_false_iff_not] at clear
            exact clear (several.mpr many)
      · simp only [if_neg accepted]
        refine ⟨?_,rfl,faithful⟩
        split
        · rfl
        · rename_i fine
          rw [not_or] at fine
          symm
          rw [findNewest_eq_none]
          intro account member
          by_contra carries
          have owned : 0 < bucket.newest.size := positive.mpr ⟨account,member,by simpa [hasToken] using carries⟩
          have ids : countConflict bucket.accountIds candidateRef.accountId = false := by
            by_contra wrong; exact fine.1 (conflict.mp (.inl (by simpa using wrong)))
          have emails : countConflict bucket.emailKeys candidateRef.emailKey = false := by
            by_contra wrong; exact fine.1 (conflict.mp (.inr (by simpa using wrong)))
          refine accepted ⟨owned,ids,emails,?_⟩
          by_contra ambiguous
          simp only [Bool.not_eq_false,Bool.and_eq_true,decide_eq_true_eq] at ambiguous
          exact fine.2 ⟨ambiguous.1,several.mp ambiguous.2⟩

theorem owners_single {id : String} :
    s.accountIdOwners.find id = some [i] ↔
      ∃ account, s.deduplicated[i]? = some account ∧ (identityRef account).accountId = some id ∧
        ∀ j other, s.deduplicated[j]? = some other → (identityRef other).accountId = some id → j = i := by
  have member := faithful.described.owners id
  have distinct := faithful.described.distinctOwners id
  simp only [slotAt_filled] at member
  constructor
  · intro single
    simp only [single,getD_some,mem_singleton] at member
    obtain ⟨account,found,same⟩ := (member i).mp rfl
    exact ⟨account,found,same,fun j other foundOther sameOther => (member j).mpr ⟨other,foundOther,sameOther⟩⟩
  · rintro ⟨account,found,same,sole⟩
    have here : i ∈ (s.accountIdOwners.find id).getD [] := (member i).mpr ⟨account,found,same⟩
    have few : ¬ 1 < ((s.accountIdOwners.find id).getD []).length := by
      rw [one_lt_length_of_nodup distinct]
      rintro ⟨a,memberA,b,memberB,different⟩
      obtain ⟨rowA,foundA,sameA⟩ := (member a).mp memberA
      obtain ⟨rowB,foundB,sameB⟩ := (member b).mp memberB
      exact different ((sole a rowA foundA sameA).trans (sole b rowB foundB sameB).symm)
    cases held : s.accountIdOwners.find id with
    | none => rw [held] at here; cases here
    | some owners =>
      rw [held,getD_some] at here few
      cases owners with
      | nil => cases here
      | cons only rest =>
        cases rest with
        | nil => rw [mem_singleton.mp here]
        | cons => simp at few

theorem accountIdTier_eq :
    accountIdTier s candidateRef = findUniqueAccountIdMatchIndex s.deduplicated candidateRef false := by
  cases id : candidateRef.accountId with
  | none => simp [accountIdTier,findUniqueAccountIdMatchIndex,id]
  | some a =>
    cases email : candidateRef.emailKey with
    | none => simp [accountIdTier,findUniqueAccountIdMatchIndex,id,email]
    | some e =>
      ext i
      rw [uniqueAccountId_eq_some id,email]
      simp only [accountIdTier,id,email,isSome_some,true_or,true_and]
      have refsAt : ∀ k : Nat, s.refs[k]?.bind emailKey =
          s.deduplicated[k]?.bind (fun account => (identityRef account).emailKey) := by
        intro k
        rw [faithful.refs,List.getElem?_map]
        cases s.deduplicated[k]? <;> rfl
      constructor
      · intro result
        split at result
        · rename_i only single
          obtain ⟨account,found,same,sole⟩ := (owners_single faithful).mp single
          rw [refsAt,found,bind_some] at result
          cases known : (identityRef account).emailKey with
          | none =>
            simp only [known,Option.some.injEq] at result
            subst result
            exact ⟨account,found,same,by simp [conflicts,known],sole⟩
          | some own =>
            simp only [known] at result
            split at result
            · rename_i equal
              cases result
              exact ⟨account,found,same,by simp [conflicts,known,equal],sole⟩
            · cases result
        · cases result
      · rintro ⟨account,found,same,fine,sole⟩
        have single := (owners_single faithful).mpr ⟨account,found,same,sole⟩
        simp only [single,refsAt,found,bind_some]
        cases known : (identityRef account).emailKey with
        | none => rfl
        | some own =>
          rw [known,conflicts_eq_false] at fine
          simp [fine own e rfl rfl]

theorem existingIndex_answers :
    Answers s (existingIndex s candidateRef) (findMatchingRefIndex s.deduplicated candidateRef false) := by
  obtain ⟨found,kept,after⟩ := compositeTier_answers faithful candidateRef
  simp only [existingIndex,findMatchingRefIndex]
  rw [found,← found]
  cases first : (compositeTier s candidateRef).1 with
  | some i => exact ⟨by simp,kept,after⟩
  | none =>
    simp only [isSome_none,Bool.false_eq_true,if_false,none_or]
    obtain ⟨found2,kept2,after2⟩ := emailTier_answers after candidateRef
    rw [kept] at found2
    rw [← found2]
    cases second : (emailTier (compositeTier s candidateRef).2 candidateRef).1 with
    | some i => exact ⟨by simp,kept2.trans kept,after2⟩
    | none =>
      simp only [isSome_none,Bool.false_eq_true,if_false,none_or]
      obtain ⟨found3,kept3,after3⟩ := refreshTier_answers after2 candidateRef
      rw [kept2,kept] at found3
      rw [← found3]
      cases third : (refreshTier (emailTier (compositeTier s candidateRef).2 candidateRef).2 candidateRef).1 with
      | some i => exact ⟨by simp,kept3.trans (kept2.trans kept),after3⟩
      | none =>
        simp only [isSome_none,Bool.false_eq_true,if_false,none_or]
        refine ⟨?_,kept3.trans (kept2.trans kept),after3⟩
        rw [accountIdTier_eq after3,kept3,kept2,kept]

end

/-- The reference: scan the survivors for each row. -/
def linearStep (survivors : List T) (account : T) : List T :=
  match findMatchingAccountIndex survivors (AccountRow.toAccountLike account) with
  | none => survivors ++ [account]
  | some i => survivors.set i (selectNewestAccount survivors[i]? account)

def linearPass (accounts : List T) : List T := accounts.foldl linearStep []

theorem described_list (described : Described s slots) (deduplicated : List T)
    (refs : List AccountIdentityRef) : Described { s with deduplicated := deduplicated,refs := refs } slots :=
  ⟨described.composite,described.email,described.emailIds,described.refresh,described.refreshIds,described.refreshEmails,
    described.distinctOwners,described.owners⟩

theorem described_grow (described : Described s slots) :
    Described s (slots ++ [none]) := by
  have slot : ∀ i, slotAt (slots ++ [none]) i = slotAt slots i := by
    intro i
    simp only [slotAt,List.getElem?_append,List.getElem?_singleton]
    split
    · rfl
    · rename_i outside
      rw [List.getElem?_eq_none (by omega)]
      split <;> rfl
  have keys : ∀ predicate, keysOf (slots ++ [none]) predicate = keysOf slots predicate := by
    intro predicate; funext i; simp only [keysOf,slot]
  have tallies : ∀ predicate facet, tallyOf (slots ++ [none]) predicate facet = tallyOf slots predicate facet := by
    intro predicate facet; funext v; simp [tallyOf,countP_append]
  constructor
  · intro k; rw [keys]; exact described.composite k
  · intro k; rw [keys]; exact described.email k
  · intro k; rw [tallies]; exact described.emailIds k
  · intro k; rw [keys]; exact described.refresh k
  · intro k; rw [tallies]; exact described.refreshIds k
  · intro k; rw [tallies]; exact described.refreshEmails k
  · exact described.distinctOwners
  · intro k i; rw [slot]; exact described.owners k i

theorem passStep_faithful (faithful : Faithful s) (account : T) :
    (passStep s account).deduplicated = linearStep s.deduplicated account ∧ Faithful (passStep s account) := by
  obtain ⟨found,kept,after⟩ := existingIndex_answers faithful (identityRef account)
  simp only [passStep,linearStep,findMatchingAccountIndex]
  rw [show toAccountIdentityRef (AccountRow.toAccountLike account) = identityRef account from rfl,← found]
  have matched := fun i (same : (existingIndex s (identityRef account)).1 = some i) =>
    findMatchingRefIndex_compatible (found.symm.trans same)
  generalize existingIndex s (identityRef account) = result at found kept after matched
  obtain ⟨existing,next⟩ := result
  simp only at found kept after matched ⊢
  cases existing with
  | none =>
    refine ⟨by simp [addToIndexes,kept],by simp [addToIndexes,after.refs],?_⟩
    have free : (filled next.deduplicated ++ [none])[next.deduplicated.length]? = some none := by simp [filled]
    have joined := described_add (described_list (described_grow after.described) (next.deduplicated ++ [account])
      (next.refs ++ [identityRef account])) free account
    have slots : (filled next.deduplicated ++ [none]).set next.deduplicated.length (some account) =
        filled (next.deduplicated ++ [account]) := by simp [filled]
    rw [slots] at joined
    exact joined
  | some index =>
    obtain ⟨current,place,-⟩ := matched index rfl
    rw [← kept] at place ⊢
    have inside := (List.getElem?_eq_some_iff.mp place).1
    simp only [place,selectNewestAccount]
    by_cases newer : selectsCandidate current account = true
    · have previous : next.refs[index]? = some (identityRef current) := by
        rw [after.refs,List.getElem?_map,place]; rfl
      simp only [newer,if_true,previous]
      refine ⟨by simp [addToIndexes,removeFromIndexes],by simp [addToIndexes,removeFromIndexes,after.refs,map_set],?_⟩
      have held : (filled next.deduplicated)[index]? = some (some current) := by simp [filled,place]
      have left := described_remove (described_list after.described (next.deduplicated.set index account)
        (next.refs.set index (identityRef account))) held
      have free : ((filled next.deduplicated).set index none)[index]? = some none := by simp [filled,inside]
      have joined := described_add left free account
      have slots : ((filled next.deduplicated).set index none).set index (some account) =
          filled (next.deduplicated.set index account) := by simp [filled,set_set,map_set]
      rw [slots] at joined
      exact joined
    · simp only [newer]
      refine ⟨?_,after⟩
      obtain ⟨bound,value⟩ := List.getElem?_eq_some_iff.mp place
      simp [← value]

theorem faithful_empty : Faithful ({} : DedupState T) where
  refs := rfl
  described := by
    have keys : ∀ predicate, keysOf (filled ([] : List T)) predicate = fun _ => none := by
      intro predicate; funext i; simp [keysOf,slotAt,filled]
    have tallies : ∀ predicate facet, Tallies [] (tallyOf (filled ([] : List T)) predicate facet) := by
      intro predicate facet
      exact ⟨by simp [OrderedMap.keys],by simp [tallyOf,filled]⟩
    constructor
    · intro k; rw [keys]; exact represents_empty
    · intro k; rw [keys]; exact represents_empty
    · intro k; exact tallies _ _
    · intro k; rw [keys]; exact represents_empty
    · intro k; exact tallies _ _
    · intro k; exact tallies _ _
    · intro k; simp
    · intro k i; simp [slotAt,filled]

/-- After any rows the pass has the reference's survivors, and indexes that describe them. -/
theorem runPass_faithful (accounts : List T) :
    (runPass accounts).deduplicated = linearPass accounts ∧ Faithful (runPass accounts) := by
  induction accounts using List.reverseRecOn with
  | nil => exact ⟨rfl,faithful_empty⟩
  | append_singleton accounts account ih =>
    obtain ⟨same,faithful⟩ := ih
    have step := passStep_faithful faithful account
    simp only [runPass,linearPass,foldl_append,foldl_cons,foldl_nil] at same step ⊢
    rw [same] at step
    exact step

theorem pass_eq_linear (accounts : List T) : deduplicateAccountsByIdentityPass accounts = linearPass accounts :=
  (runPass_faithful accounts).1

def survivorCount (accounts : List T) (predicate : AccountIdentityRef → Bool) : Option ℤ :=
  let n := accounts.countP (fun account => predicate (identityRef account))
  if n = 0 then none else some n

/-- Queries, counters and owners read the survivors as they are. -/
structure IndexesDescribe (s : DedupState T) : Prop where
  refs : s.refs = s.deduplicated.map identityRef
  compositeNewest : ∀ k, ((s.compositeIndexes.find k).getD {}).newestIndex.1 =
    findNewestMatchingIndex s.deduplicated (fun ref => decide (dedupCompositeKey ref = some k))
  emailNewest : ∀ k, ((s.emailIndexes.find k).getD {}).newest.newestIndex.1 =
    findNewestMatchingIndex s.deduplicated (fun ref => decide (ref.emailKey = some k))
  emailAccountIds : ∀ k v, ((s.emailIndexes.find k).getD {}).accountIds.find v =
    survivorCount s.deduplicated (fun ref => decide (ref.emailKey = some k) && decide (ref.accountId = some v))
  refreshNewest : ∀ k, ((s.refreshIndexes.find k).getD {}).newest.newestIndex.1 =
    findNewestMatchingIndex s.deduplicated (fun ref => decide (ref.refreshToken = some k))
  refreshAccountIds : ∀ k v, ((s.refreshIndexes.find k).getD {}).accountIds.find v =
    survivorCount s.deduplicated (fun ref => decide (ref.refreshToken = some k) && decide (ref.accountId = some v))
  refreshEmailKeys : ∀ k v, ((s.refreshIndexes.find k).getD {}).emailKeys.find v =
    survivorCount s.deduplicated (fun ref => decide (ref.refreshToken = some k) && decide (ref.emailKey = some v))
  owners : ∀ k i, i ∈ (s.accountIdOwners.find k).getD [] ↔
    ∃ account, s.deduplicated[i]? = some account ∧ (identityRef account).accountId = some k

private theorem counter_eq (tallies : Tallies counts (tallyOf (filled accounts) predicate facet))
    (v : String) :
    counts.find v = survivorCount accounts (fun ref => predicate ref && decide (facet ref = some v)) := by
  rw [tallies.value]
  simp only [survivorCount,tallyOf,filled,countP_map,Function.comp_def,any_some]

theorem indexesDescribe_of_faithful (faithful : Faithful s) : IndexesDescribe s where
  refs := faithful.refs
  compositeNewest k := newestIndex_eq (faithful.described.composite k)
  emailNewest k := newestIndex_eq (faithful.described.email k)
  emailAccountIds k v := counter_eq (faithful.described.emailIds k) v
  refreshNewest k := newestIndex_eq (faithful.described.refresh k)
  refreshAccountIds k v := counter_eq (faithful.described.refreshIds k) v
  refreshEmailKeys k v := counter_eq (faithful.described.refreshEmails k) v
  owners k i := by rw [faithful.described.owners k i]; simp only [slotAt_filled]

/-- The indexed pass returns the fold of the scans, and after every row its
    indexes describe the survivors of that fold. -/
theorem indexedPass_refines_scan (accounts : List T) :
    deduplicateAccountsByIdentityPass accounts =
      accounts.foldl (fun survivors account =>
        match findMatchingAccountIndex survivors (AccountRow.toAccountLike account) with
        | none => survivors ++ [account]
        | some i => survivors.set i (selectNewestAccount survivors[i]? account)) [] ∧
    ∀ n, IndexesDescribe (runPass (accounts.take n)) ∧ (runPass (accounts.take n)).deduplicated = linearPass (accounts.take n) :=
  ⟨pass_eq_linear accounts,fun n =>
    ⟨indexesDescribe_of_faithful (runPass_faithful (accounts.take n)).2,(runPass_faithful (accounts.take n)).1⟩⟩

end
end CodexMultiAuth
