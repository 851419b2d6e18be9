import CodexMultiAuth.AccountPolicies
import CodexMultiAuth.RoutingProfiles

/-!
Stores whose entries carry the date of their last change: the limits of budgets and the policies
of accounts. A save under the lock brings what its writer changed over the entries of the file,
each with a date no earlier than that of the entry it replaces.
-/
namespace CodexMultiAuth.DatedStores
open RoutingProfiles (stampUpdatedAt ordered SHA256)
open AccountPolicies (AccountPolicy)

class Dated (Entry : Type) where
  updatedAt : Entry → ℚ
  redate : Entry → ℚ → Entry
  updatedAt_redate : ∀ entry t, updatedAt (redate entry t) = t

/-- What makes an entry of a store file one of the store. -/
structure Kind (Entry : Type) where
  normalizeKey : String → Option String
  normalizeEntry : String → Entry → Option Entry

section
variable {Entry : Type} [Dated Entry] [DecidableEq Entry]

def Kind.putRaw (kind : Kind Entry) (store : OrderedMap String Entry) (raw : String × Entry) : OrderedMap String Entry :=
  match (kind.normalizeKey raw.1).bind fun key => (kind.normalizeEntry key raw.2).map fun entry => (key,entry) with
  | none => store
  | some (key,entry) => store.put key entry

def Kind.normalizeStore (kind : Kind Entry) (entries : OrderedMap String Entry) : OrderedMap String Entry := entries.foldl kind.putRaw []

/-- One entry brought over the store; with a baseline, only where it differs from it. -/
def mergeEntry (baseline : Option (OrderedMap String Entry)) (merged : OrderedMap String Entry) (entry : String × Entry) : OrderedMap String Entry :=
  match baseline with
  | none =>
    if ((merged.find entry.1).map fun existing => decide (Dated.updatedAt existing ≤ Dated.updatedAt entry.2)).getD true then merged.put entry.1 entry.2 else merged
  | some baseline =>
    if baseline.find entry.1 = some entry.2 then merged
    else merged.put entry.1 (Dated.redate entry.2 (stampUpdatedAt (Dated.updatedAt entry.2) ((merged.find entry.1).map Dated.updatedAt)))

def mergeEntries (current incoming : OrderedMap String Entry) (baseline : Option (OrderedMap String Entry)) : OrderedMap String Entry :=
  incoming.foldl (mergeEntry baseline) current

/-- A save that holds the lock: no other save comes between its reading and its writing. -/
def Kind.saveStore (kind : Kind Entry) (file store : OrderedMap String Entry) (baseline : Option (OrderedMap String Entry)) : OrderedMap String Entry :=
  mergeEntries (kind.normalizeStore file) (kind.normalizeStore store) (baseline.map kind.normalizeStore)

omit [Dated Entry] [DecidableEq Entry] in
theorem nodup_normalizeStore (kind : Kind Entry) (entries : OrderedMap String Entry) : (kind.normalizeStore entries).keys.Nodup := by
  have keeps : ∀ store : OrderedMap String Entry, store.keys.Nodup → (entries.foldl kind.putRaw store).keys.Nodup := by
    induction entries with
    | nil => exact fun _ distinct => distinct
    | cons raw rest ih =>
      refine fun store distinct => ih _ ?_
      unfold Kind.putRaw
      split
      · exact distinct
      · exact OrderedMap.nodup_put distinct _ _
  exact keeps [] List.nodup_nil

section
variable {baseline merged : OrderedMap String Entry}

theorem find_mergeEntry_other {entry : String × Entry} {key : String} (other : entry.1 ≠ key) : (mergeEntry (some baseline) merged entry).find key = merged.find key := by
  simp only [mergeEntry]
  split
  · rfl
  · rw [OrderedMap.find_put,if_neg other]

theorem find_mergeEntries {incoming : OrderedMap String Entry} (distinct : incoming.keys.Nodup) (key : String) :
    (mergeEntries merged incoming (some baseline)).find key =
      match incoming.find key with
      | none => merged.find key
      | some entry => if baseline.find key = some entry then merged.find key
        else some (Dated.redate entry (stampUpdatedAt (Dated.updatedAt entry) ((merged.find key).map Dated.updatedAt))) := by
  induction incoming generalizing merged with
  | nil => rfl
  | cons entry rest ih =>
    obtain ⟨fresh,distinct⟩ := List.nodup_cons.mp distinct
    rw [mergeEntries,List.foldl_cons,← mergeEntries,ih distinct,OrderedMap.find_cons]
    by_cases same : entry.1 = key
    · subst same
      rw [OrderedMap.find_eq_none.mpr fresh,if_pos rfl]
      simp only [mergeEntry]
      split
      · rfl
      · rw [OrderedMap.find_put,if_pos rfl]
    · rw [if_neg same,find_mergeEntry_other same]

end

/-- The file of a store, and the stores that writers have loaded. -/
structure World (Entry : Type) where
  file : OrderedMap String Entry
  baselines : ℕ → Option (OrderedMap String Entry)

inductive Action (Entry : Type) where
  | load (writer : ℕ)
  | save (writer : ℕ) (store : OrderedMap String Entry)

def step (kind : Kind Entry) (w : World Entry) : Action Entry → World Entry
  | .load writer => { w with baselines := Function.update w.baselines writer (some (kind.normalizeStore w.file)) }
  | .save writer store =>
    match w.baselines writer with
    | none => w
    | some baseline => { w with file := kind.saveStore w.file store (some baseline) }

/-- What a save does to the entry of a key: one that its writer set and that is not that of its
    baseline comes with a date no earlier than the one it replaces, and later where its own is
    another; else the store keeps its entry. -/
def Keeps (baseline edited before after : Option Entry) : Prop :=
  match edited with
  | none => after = before
  | some entry =>
    if baseline = some entry then after = before
    else ∃ t, after = some (Dated.redate entry t) ∧ Dated.updatedAt entry ≤ t ∧ (before = none → t = Dated.updatedAt entry) ∧
      ∀ old, before = some old → Dated.updatedAt old ≤ t ∧ (Dated.updatedAt entry ≠ Dated.updatedAt old → Dated.updatedAt old < t)

def SavesKeep (kind : Kind Entry) : Prop :=
  ∀ (file : OrderedMap String Entry) (actions : List (Action Entry)) (writer : ℕ) (store baseline : OrderedMap String Entry),
    let w := actions.foldl (step kind) ⟨file,fun _ => none⟩
    w.baselines writer = some baseline → ∀ key,
      Keeps ((kind.normalizeStore baseline).find key) ((kind.normalizeStore store).find key) ((kind.normalizeStore w.file).find key)
        ((step kind w (.save writer store)).file.find key)

omit [DecidableEq Entry] in
theorem keeps_stamped (entry : Entry) (before : Option Entry) : ∃ t, stampUpdatedAt (Dated.updatedAt entry) (before.map Dated.updatedAt) = t ∧
    Dated.updatedAt entry ≤ t ∧ (before = none → t = Dated.updatedAt entry) ∧
      ∀ old, before = some old → Dated.updatedAt old ≤ t ∧ (Dated.updatedAt entry ≠ Dated.updatedAt old → Dated.updatedAt old < t) := by
  refine ⟨_,rfl,?_⟩
  cases before with
  | none => simp [stampUpdatedAt]
  | some old =>
    simp only [stampUpdatedAt,Option.map_some]
    split
    · next behind =>
      refine ⟨(behind.trans (lt_add_one _)).le,nofun,fun other same => ?_⟩
      obtain rfl := Option.some.inj same
      exact ⟨(lt_add_one _).le,fun _ => lt_add_one _⟩
    · next ahead =>
      refine ⟨le_rfl,nofun,fun other same => ?_⟩
      obtain rfl := Option.some.inj same
      exact ⟨not_lt.mp ahead,fun differ => lt_of_le_of_ne (not_lt.mp ahead) differ.symm⟩

theorem savesKeep (kind : Kind Entry) : SavesKeep kind := by
  intro file actions writer store baseline w loaded key
  simp only [step,loaded,Kind.saveStore,Option.map_some]
  rw [find_mergeEntries (nodup_normalizeStore kind store)]
  cases (kind.normalizeStore store).find key with
  | none => rfl
  | some entry =>
    by_cases carried : (kind.normalizeStore baseline).find key = some entry
    · simp [Keeps,carried]
    · obtain ⟨t,stamped,dates⟩ := keeps_stamped entry ((kind.normalizeStore w.file).find key)
      simp only [Keeps,if_neg carried,stamped]
      exact ⟨t,rfl,dates⟩

end

inductive BudgetWindow where
  | hour
  | day
  | week
  | month
  deriving DecidableEq

structure BudgetLimit where
  key : String
  window : BudgetWindow
  maxRequests : Option ℚ
  maxTokens : Option ℚ
  maxCostUsd : Option ℚ
  updatedAt : ℚ
  deriving DecidableEq

instance : Dated BudgetLimit := ⟨BudgetLimit.updatedAt,fun limit updatedAt => { limit with updatedAt },fun _ _ => rfl⟩

instance : Dated AccountPolicy := ⟨AccountPolicy.updatedAt,fun policy updatedAt => { policy with updatedAt },fun _ _ => rfl⟩

/-- Each run of characters that are not plain becomes a dash. -/
def dashed (plain : Char → Bool) : Bool → List Char → List Char
  | _,[] => []
  | inRun,c :: rest => if plain c then c :: dashed plain false rest else if inRun then dashed plain true rest else '-' :: dashed plain true rest

def isPlain (c : Char) : Bool := ('a' ≤ c && c ≤ 'z') || c.isDigit || ['.','_','-'].contains c

section
variable [Host]

def slug (plain : Char → Bool) (most : ℕ) (value : String) : Option String :=
  nonEmpty (String.ofList ((dashed plain false (Host.toLowerCase (trim value)).toList).take most))

def normalizeLimit (key : String) (limit : BudgetLimit) : Option BudgetLimit :=
  some { limit with
    key
    maxRequests := limit.maxRequests.filter fun n => decide (0 < n)
    maxTokens := limit.maxTokens.filter fun n => decide (0 < n)
    maxCostUsd := limit.maxCostUsd.filter fun n => decide (0 < n) }

def normalizePolicy (key : String) (policy : AccountPolicy) : Option AccountPolicy :=
  some { policy with
    accountKey := key
    tags := (policy.tags.filterMap (slug isPlain 64)).eraseDups.mergeSort ordered
    weight := max 0 (min 10 policy.weight)
    priority := if policy.priority ≤ 9 then policy.priority else 1
    note := (policy.note.bind fun note => nonEmpty (trim note)).map (slice 500) }

def budgetGuardStore : Kind BudgetLimit := ⟨slug (fun c => isPlain c || c = ':') 100,normalizeLimit⟩

def accountPolicyStore : Kind AccountPolicy := ⟨fun key => if SHA256.isPrefixOf key.toList then some key else none,normalizePolicy⟩

/-- In every interleaving, a save brings what its writer set and keeps all else. -/
theorem edits_win_and_others_stay : SavesKeep budgetGuardStore ∧ SavesKeep accountPolicyStore := ⟨savesKeep _,savesKeep _⟩

end

def policy : AccountPolicy := ⟨"sha256:0",[],1,1,false,false,false,false,none,5⟩

def other : AccountPolicy := { policy with accountKey := "sha256:1" }

def stored : OrderedMap String AccountPolicy := [("sha256:0",policy),("sha256:1",other)]

def paused : AccountPolicy := { other with paused := true,updatedAt := 7 }

def drained : AccountPolicy := { policy with drained := true,updatedAt := 6 }

/-- The second of two writers pauses an account between the load and the save of the first. -/
def interleaved : World AccountPolicy :=
  [.load 0,.load 1,.save 1 [("sha256:0",policy),("sha256:1",paused)]].foldl (step (@accountPolicyStore asciiHost)) ⟨stored,fun _ => none⟩

def afterBoth : OrderedMap String AccountPolicy :=
  (step (@accountPolicyStore asciiHost) interleaved (.save 0 [("sha256:0",drained),("sha256:1",other)])).file

theorem two_writers_keep : afterBoth.find "sha256:1" = some paused ∧
    ∃ t, afterBoth.find "sha256:0" = some (Dated.redate drained t) ∧ 6 ≤ t ∧ 5 < t := by
  have keeps := (@edits_win_and_others_stay asciiHost).2 stored [.load 0,.load 1,.save 1 [("sha256:0",policy),("sha256:1",paused)]] 0
    [("sha256:0",drained),("sha256:1",other)] stored (by decide +kernel)
  constructor
  · have stays : Keeps (some other) (some other) (some paused) (afterBoth.find "sha256:1") := by
      convert keeps "sha256:1" using 1 <;> decide +kernel
    simpa [Keeps] using stays
  · have wins : Keeps (some policy) (some drained) (some policy) (afterBoth.find "sha256:0") := by
      convert keeps "sha256:0" using 1 <;> decide +kernel
    rw [Keeps,if_neg (by decide +kernel)] at wins
    obtain ⟨t,after,own,-,later⟩ := wins
    exact ⟨t,after,own,(later policy rfl).2 (by decide +kernel)⟩

/-- A change within the same millisecond keeps the date. -/
theorem date_stays : ¬∀ (file : OrderedMap String AccountPolicy) (actions : List (Action AccountPolicy)) (writer : ℕ) (store baseline : OrderedMap String AccountPolicy),
    let w := actions.foldl (step (@accountPolicyStore asciiHost)) ⟨file,fun _ => none⟩
    w.baselines writer = some baseline → ∀ key old new, ((@accountPolicyStore asciiHost).normalizeStore w.file).find key = some old →
      (step (@accountPolicyStore asciiHost) w (.save writer store)).file.find key = some new → new ≠ old → old.updatedAt < new.updatedAt := by
  intro all_
  have later := all_ [("sha256:0",policy)] [.load 0] 0 [("sha256:0",{ policy with paused := true,updatedAt := stampUpdatedAt 5 (some 5) })] [("sha256:0",policy)]
    (by decide +kernel) "sha256:0" policy { policy with paused := true } (by decide +kernel) (by decide +kernel) (by decide +kernel)
  exact absurd later (by decide +kernel)

end CodexMultiAuth.DatedStores
