import CodexMultiAuth.ClientTokens
import CodexMultiAuth.Lists

/-!
Token stores under any run of their operations, as long as the file can be read by an
operation that would write over it and no other token's id or hash is brought to it.
-/
namespace CodexMultiAuth.ClientTokens
open List JsonStore
open Exclusive (Task safe safe_mono)
open Dialogue (Program)
open JsonStore (Code Disk Request Answer Failure StoreTask Kind Mutate Input)
set_option linter.unusedSectionVars false

/-- The same token, revoked if it was. -/
structure Advances (record later : LocalClientTokenRecord) : Prop where
  id : later.id.text = record.id.text
  tokenHash : later.tokenHash.text = record.tokenHash.text
  revoked : record.revokedAt.isSome = true → later.revokedAt.isSome = true

variable (record : LocalClientTokenRecord)

theorem Advances.refl : Advances record record := ⟨rfl,rfl,fun revoked => revoked⟩

theorem Advances.trans {record later last : LocalClientTokenRecord} (first : Advances record later) (second : Advances later last) :
    Advances record last :=
  ⟨second.id.trans first.id,second.tokenHash.trans first.tokenHash,fun revoked => second.revoked (first.revoked revoked)⟩

def Continues (tokens later : List LocalClientTokenRecord) : Prop := ∀ record ∈ tokens, ∃ next ∈ later, Advances record next

theorem Continues.refl (tokens : List LocalClientTokenRecord) : Continues tokens tokens := fun record member => ⟨record,member,Advances.refl record⟩

theorem Continues.trans {tokens later last : List LocalClientTokenRecord} (first : Continues tokens later) (second : Continues later last) :
    Continues tokens last := by
  intro record member
  obtain ⟨next,among,advances⟩ := first record member
  obtain ⟨final,there,goes⟩ := second next among
  exact ⟨final,there,advances.trans goes⟩

/-- An id belongs to one hash, and a hash to one id. -/
def Consistent (tokens : List LocalClientTokenRecord) : Prop :=
  ∀ one ∈ tokens, ∀ other ∈ tokens, (one.id.text = other.id.text → one.tokenHash.text = other.tokenHash.text) ∧
    (tokenHashEqual one.tokenHash.text other.tokenHash.text = true → one.id.text = other.id.text)

instance (tokens : List LocalClientTokenRecord) : Decidable (Consistent tokens) :=
  inferInstanceAs (Decidable (∀ one ∈ tokens, ∀ other ∈ tokens, _ ∧ _))

def idOf (record : LocalClientTokenRecord) : String := record.id.text

structure Sound (tokens : List LocalClientTokenRecord) : Prop where
  distinct : (tokens.map idOf).Nodup
  consistent : Consistent tokens

def Among (tokens all : List LocalClientTokenRecord) : Prop :=
  ∀ record ∈ tokens, ∃ row ∈ all, row.id.text = record.id.text ∧ row.tokenHash.text = record.tokenHash.text

theorem Consistent.of_among {tokens all : List LocalClientTokenRecord} (consistent : Consistent all) (among : Among tokens all) : Consistent tokens := by
  intro one member other present
  obtain ⟨row,there,id,tokenHash⟩ := among one member
  obtain ⟨next,here,id',tokenHash'⟩ := among other present
  rw [← id,← tokenHash,← id',← tokenHash']
  exact consistent row there next here

variable {change : LocalClientTokenRecord → LocalClientTokenRecord}

theorem among_map (same : ∀ record, Advances record (change record))
    (tokens : List LocalClientTokenRecord) : Among (tokens.map change) tokens := by
  intro record member
  obtain ⟨row,there,rfl⟩ := mem_map.mp member
  exact ⟨row,there,(same row).id.symm,(same row).tokenHash.symm⟩

theorem continues_map (same : ∀ record, Advances record (change record))
    (tokens : List LocalClientTokenRecord) : Continues tokens (tokens.map change) :=
  fun record member => ⟨change record,mem_map_of_mem member,same record⟩

theorem ids_map (same : ∀ record, Advances record (change record))
    (tokens : List LocalClientTokenRecord) : (tokens.map change).map idOf = tokens.map idOf := by
  rw [map_map]
  exact map_congr_left (fun record _ => (same record).id)

theorem Sound.map {tokens : List LocalClientTokenRecord} (sound : Sound tokens)
    (same : ∀ record, Advances record (change record)) : Sound (tokens.map change) :=
  ⟨by rw [ids_map same]; exact sound.distinct,sound.consistent.of_among (among_map same tokens)⟩

def reread (record : LocalClientTokenRecord) : LocalClientTokenRecord :=
  { record with
    label := normalizeLabel (some record.label)
    shown := slice 32 record.shown }

theorem asNumber_timeJson (time : Option ℚ) : (timeJson time).asNumber = time := by cases time <;> rfl

theorem id_text : Record.text record.fields "id" = some record.id.text := rfl
theorem tokenHash_text : Record.text record.fields "tokenHash" = some record.tokenHash.text := rfl
theorem label_text : Record.text record.fields "label" = some record.label := rfl
theorem prefix_text : Record.text record.fields "prefix" = some record.shown := rfl
theorem createdAt_number : Record.number record.fields "createdAt" = some record.createdAt := rfl
theorem lastUsedAt_number : Record.number record.fields "lastUsedAt" = record.lastUsedAt :=
  asNumber_timeJson record.lastUsedAt
theorem revokedAt_number : Record.number record.fields "revokedAt" = record.revokedAt :=
  asNumber_timeJson record.revokedAt

theorem normalizeRecord_toJson : normalizeRecord record.toJson = some (reread record) := by
  rw [normalizeRecord,LocalClientTokenRecord.toJson,Json.asRecord,Option.bind_some,id_text,Option.bind_some]
  rw [dif_neg (by rw [record.id.trimmed]; exact record.id.some),tokenHash_text,Option.bind_some,dif_pos record.tokenHash.marked]
  simp only [label_text,prefix_text,createdAt_number,lastUsedAt_number,revokedAt_number,record.id.trimmed]
  rfl

variable (store : LocalClientTokenStore)

theorem normalizeStore_toJson : normalizeStore store.toJson = ⟨store.tokens.map reread⟩ := by
  have rows : (store.tokens.map LocalClientTokenRecord.toJson).filterMap normalizeRecord = store.tokens.map reread := by
    rw [filterMap_map,show normalizeRecord ∘ LocalClientTokenRecord.toJson = some ∘ reread from funext normalizeRecord_toJson,
      filterMap_eq_map]
  rw [← rows]
  rfl

theorem read_payload : normalizeStore (payloadOf store) = ⟨store.tokens.map (reread ∘ reread)⟩ := by
  rw [payloadOf,normalizeStore_toJson,normalizeStore_toJson,map_map]

theorem reread_advances : Advances record (reread record) where
  id := rfl
  tokenHash := rfl
  revoked revoked := revoked

theorem reread_revokedAt : (reread record).revokedAt = record.revokedAt := rfl

theorem stored_payload (tokens : List LocalClientTokenRecord) :
    ∃ change : LocalClientTokenRecord → LocalClientTokenRecord, (∀ record, Advances record (change record)) ∧
      (∀ record, (change record).revokedAt = record.revokedAt) ∧ tokenKind.normalizeStore (payloadOf ⟨tokens⟩) = ⟨tokens.map change⟩ :=
  ⟨reread ∘ reread,fun record => (reread_advances record).trans (reread_advances (reread record)),
    fun record => (reread_revokedAt (reread record)).trans (reread_revokedAt record),read_payload ⟨tokens⟩⟩

section
variable {such : LocalClientTokenRecord → Bool} {change : LocalClientTokenRecord → LocalClientTokenRecord} {tokens : List LocalClientTokenRecord}

theorem modifyFirst_pairs (same : ∀ record, Advances record (change record)) :
    List.Forall₂ Advances tokens (modifyFirst such change tokens) := by
  induction tokens with
  | nil => exact List.Forall₂.nil
  | cons first rest ih =>
    rw [modifyFirst]
    split
    · exact List.Forall₂.cons (same first) (forall₂_same.mpr (fun record _ => Advances.refl record))
    · exact List.Forall₂.cons (Advances.refl first) ih

theorem modifyFirst_found {record : LocalClientTokenRecord} (found : tokens.find? such = some record) :
    change record ∈ modifyFirst such change tokens := by
  induction tokens with
  | nil => cases found
  | cons first rest ih =>
    rw [List.find?_cons] at found
    rw [modifyFirst]
    split at found
    · next holds =>
      cases found
      rw [if_pos holds]
      exact mem_cons_self
    · next fails =>
      rw [if_neg (by simp [fails])]
      exact mem_cons_of_mem _ (ih found)

end

section
variable {tokens later : List LocalClientTokenRecord}

theorem pairs_continue (pairs : List.Forall₂ Advances tokens later) : Continues tokens later := by
  induction pairs with
  | nil => exact forall_mem_nil _
  | cons first _ ih =>
    intro record member
    rcases mem_cons.mp member with rfl | among
    · exact ⟨_,mem_cons_self,first⟩
    · obtain ⟨next,there,advances⟩ := ih record among
      exact ⟨next,mem_cons_of_mem _ there,advances⟩

theorem pairs_among (pairs : List.Forall₂ Advances tokens later) : Among later tokens := by
  intro record member
  obtain ⟨row,there,advances⟩ := forall₂_member pairs member
  exact ⟨row,there,advances.id.symm,advances.tokenHash.symm⟩

theorem pairs_ids (pairs : List.Forall₂ Advances tokens later) : later.map idOf = tokens.map idOf :=
  forall₂_map_eq (pairs.imp (fun _ _ advances => advances.id))

theorem Sound.pairs (sound : Sound tokens) (pairs : List.Forall₂ Advances tokens later) : Sound later :=
  ⟨by rw [pairs_ids pairs]; exact sound.distinct,sound.consistent.of_among (pairs_among pairs)⟩

end

/-! ### Bringing rows -/

/-- A row of none of the tokens. -/
def Fresh (record : LocalClientTokenRecord) (tokens : List LocalClientTokenRecord) : Prop :=
  ∀ row ∈ tokens, row.id.text ≠ record.id.text ∧ tokenHashEqual row.tokenHash.text record.tokenHash.text = false

instance (record : LocalClientTokenRecord) (tokens : List LocalClientTokenRecord) : Decidable (Fresh record tokens) :=
  inferInstanceAs (Decidable (∀ row ∈ tokens, _ ∧ _))

theorem tokenHashEqual_comm (left right : String) : tokenHashEqual left right = tokenHashEqual right left := by
  rw [tokenHashEqual,tokenHashEqual]
  cases sha256DigestBytes left with
  | none => cases sha256DigestBytes right <;> rfl
  | some leftDigest =>
    cases sha256DigestBytes right with
    | none => rfl
    | some rightDigest => exact Bool.beq_comm

theorem digest_of_equal {left right : String} (equal : tokenHashEqual left right = true) :
    ∃ digest, sha256DigestBytes left = some digest ∧ sha256DigestBytes right = some digest := by
  rw [tokenHashEqual] at equal
  cases leftDigest : sha256DigestBytes left with
  | none =>
    rw [leftDigest] at equal
    cases equal
  | some digest =>
    cases rightDigest : sha256DigestBytes right with
    | none =>
      rw [leftDigest,rightDigest] at equal
      cases equal
    | some other =>
      rw [leftDigest,rightDigest] at equal
      rw [beq_iff_eq.mp equal]
      exact ⟨other,rfl,rfl⟩

theorem tokenHashEqual_trans {left middle right : String} (first : tokenHashEqual left middle = true) (second : tokenHashEqual middle right = true) :
    tokenHashEqual left right = true := by
  obtain ⟨digest,leftDigest,middleDigest⟩ := digest_of_equal first
  obtain ⟨other,middleDigest',rightDigest⟩ := digest_of_equal second
  rw [middleDigest] at middleDigest'
  cases middleDigest'
  rw [tokenHashEqual,leftDigest,rightDigest]
  exact beq_self_eq_true digest

theorem Sound.snoc {tokens : List LocalClientTokenRecord} (sound : Sound tokens) {record : LocalClientTokenRecord} (fresh : Fresh record tokens) :
    Sound (tokens ++ [record]) := by
  refine ⟨?_,?_⟩
  · rw [map_append,nodup_append]
    refine ⟨sound.distinct,nodup_singleton _,?_⟩
    intro id member other added same
    obtain ⟨row,there,rfl⟩ := mem_map.mp member
    exact (fresh row there).1 (same.trans (mem_singleton.mp added))
  · intro one member other present
    rcases mem_append.mp member with old | new
    · rcases mem_append.mp present with old' | new'
      · exact sound.consistent one old other old'
      · rw [mem_singleton.mp new']
        refine ⟨fun same => absurd same (fresh one old).1,fun equal => ?_⟩
        rw [(fresh one old).2] at equal
        cases equal
    · rw [mem_singleton.mp new]
      rcases mem_append.mp present with old' | new'
      · refine ⟨fun same => absurd same.symm (fresh other old').1,fun equal => ?_⟩
        rw [tokenHashEqual_comm,(fresh other old').2] at equal
        cases equal
      · rw [mem_singleton.mp new']
        exact ⟨fun _ => rfl,fun _ => rfl⟩

theorem mergeTokens_advances {existing record : LocalClientTokenRecord} (id : existing.id.text = record.id.text)
    (tokenHash : existing.tokenHash.text = record.tokenHash.text) : Advances existing (mergeTokens existing record) := by
  refine ⟨id.symm,tokenHash.symm,?_⟩
  intro revoked
  show (record.revokedAt.or existing.revokedAt).isSome = true
  rw [Option.isSome_or,revoked]
  exact Bool.or_true _

theorem advances_mergeTokens (existing record : LocalClientTokenRecord) : Advances record (mergeTokens existing record) := by
  refine ⟨rfl,rfl,?_⟩
  intro revoked
  show (record.revokedAt.or existing.revokedAt).isSome = true
  rw [Option.isSome_or,revoked]
  exact Bool.true_or _

theorem mergeInto_spec (tokens : List LocalClientTokenRecord)
    (agrees : ∀ row ∈ tokens, row.id.text = record.id.text → row.tokenHash.text = record.tokenHash.text) :
    (∃ merged, mergeInto record tokens = some merged ∧ List.Forall₂ Advances tokens merged ∧ ∃ next ∈ merged, Advances record next) ∨
      (mergeInto record tokens = none ∧ ∀ row ∈ tokens, row.id.text ≠ record.id.text) := by
  induction tokens with
  | nil => exact Or.inr ⟨rfl,forall_mem_nil _⟩
  | cons first rest ih =>
    rw [mergeInto]
    rcases ih (fun row member => agrees row (mem_cons_of_mem _ member)) with ⟨merged,found,pairs,next,there,advances⟩ | ⟨none,others⟩
    · rw [found]
      exact Or.inl ⟨_,rfl,List.Forall₂.cons (Advances.refl first) pairs,next,mem_cons_of_mem _ there,advances⟩
    · rw [none]
      dsimp only
      by_cases same : first.id.text = record.id.text
      · rw [if_pos same]
        refine Or.inl ⟨_,rfl,?_,_,mem_cons_self,advances_mergeTokens first record⟩
        exact List.Forall₂.cons (mergeTokens_advances same (agrees first mem_cons_self same)) (forall₂_same.mpr (fun row _ => Advances.refl row))
      · rw [if_neg same]
        exact Or.inr ⟨rfl,forall_mem_cons.mpr ⟨same,others⟩⟩

theorem mergeRecord_spec {all tokens : List LocalClientTokenRecord} {record : LocalClientTokenRecord} (consistent : Consistent all)
    (among : Among tokens all) (member : record ∈ all) (distinct : (tokens.map idOf).Nodup) :
    Continues tokens (mergeRecord tokens record) ∧ (∃ next ∈ mergeRecord tokens record, Advances record next) ∧
      Among (mergeRecord tokens record) all ∧ ((mergeRecord tokens record).map idOf).Nodup := by
  have agrees : ∀ row ∈ tokens, row.id.text = record.id.text → row.tokenHash.text = record.tokenHash.text := by
    intro row there same
    obtain ⟨origin,present,id,tokenHash⟩ := among row there
    rw [← tokenHash]
    exact (consistent origin present record member).1 (id.trans same)
  rw [mergeRecord]
  rcases mergeInto_spec record tokens agrees with ⟨merged,found,pairs,there⟩ | ⟨none,others⟩
  · rw [found]
    refine ⟨pairs_continue pairs,there,?_,?_⟩
    · intro row present
      obtain ⟨origin,here,id,tokenHash⟩ := pairs_among pairs row present
      obtain ⟨first,start,id',tokenHash'⟩ := among origin here
      exact ⟨first,start,id'.trans id,tokenHash'.trans tokenHash⟩
    · show (merged.map idOf).Nodup
      rw [pairs_ids pairs]
      exact distinct
  · rw [none]
    refine ⟨fun row there => ⟨row,mem_append_left _ there,Advances.refl row⟩,
      ⟨record,mem_append_right _ mem_cons_self,Advances.refl record⟩,?_,?_⟩
    · intro row present
      rcases mem_append.mp present with old | new
      · exact among row old
      · rw [mem_singleton.mp new]
        exact ⟨record,member,rfl,rfl⟩
    · show ((tokens ++ [record]).map idOf).Nodup
      rw [map_append,nodup_append]
      refine ⟨distinct,nodup_singleton _,?_⟩
      intro id old other new same
      obtain ⟨row,there,rfl⟩ := mem_map.mp old
      exact others row there (same.trans (mem_singleton.mp new))

theorem merge_spec {all : List LocalClientTokenRecord} (consistent : Consistent all) (incoming tokens : List LocalClientTokenRecord)
    (among : Among tokens all) (members : ∀ record ∈ incoming, record ∈ all) (distinct : (tokens.map idOf).Nodup) :
    Continues tokens (incoming.foldl mergeRecord tokens) ∧ Continues incoming (incoming.foldl mergeRecord tokens) ∧
      Sound (incoming.foldl mergeRecord tokens) := by
  induction incoming generalizing tokens with
  | nil => exact ⟨Continues.refl tokens,forall_mem_nil _,distinct,consistent.of_among among⟩
  | cons record rest ih =>
    obtain ⟨here,later⟩ := forall_mem_cons.mp members
    obtain ⟨continues,⟨next,there,advances⟩,stillAmong,stillDistinct⟩ := mergeRecord_spec consistent among here distinct
    obtain ⟨goesOn,brought,sound⟩ := ih (mergeRecord tokens record) stillAmong later stillDistinct
    refine ⟨continues.trans goesOn,?_,sound⟩
    intro row member
    rcases mem_cons.mp member with rfl | among
    · obtain ⟨final,present,goes⟩ := goesOn next there
      exact ⟨final,present,advances.trans goes⟩
    · exact brought row among

def good (store : LocalClientTokenStore) : Prop := Sound store.tokens

def Onward (store later : LocalClientTokenStore) : Prop := Continues store.tokens later.tokens

theorem Onward.refl : Onward store store := Continues.refl store.tokens

theorem Onward.trans (store later last : LocalClientTokenStore) (first : Onward store later) (second : Onward later last) : Onward store last :=
  Continues.trans first second

theorem write_rule (lenient : Prop) (apt : LocalClientTokenStore → Prop) :
    JsonStore.WriteRule tokenKind lenient apt good Onward writeStoreToDisk := by
  intro payload expectedMtimeMs s here goodAfter next
  refine mkdir_then here ?_
  apply Task.safe_bind
  refine safe_mono ?_ (mkdir_safe .chmod here (fun disk input => by cases input <;> rfl))
  rintro found u after rfl
  cases found with
  | error failure => exact rfl
  | ok permitted => exact orUnlink_safe (temp_then after next (fun there temp => moved_safe there temp goodAfter expectedMtimeMs))

/-! ### What an operation should do -/

def Adds (created : CreatedLocalClientToken) (tokens later : List LocalClientTokenRecord) : Prop :=
  later.map idOf = tokens.map idOf ++ [idOf created.record] ∧ ∃ row ∈ later, Advances created.record row

def Revoked (id : String) (tokens : List LocalClientTokenRecord) : Prop := ∃ row ∈ tokens, row.id.text = id ∧ row.revokedAt.isSome = true

section
variable [Host]

/-- What the operation should do, besides leaving every token. -/
def Does : Operation → Result → List LocalClientTokenRecord → List LocalClientTokenRecord → Prop
  | .save store,_,_,later => Continues (normalizeStore store).tokens later
  | .add _ _ _,.created (some created),tokens,later => Adds created tokens later
  | .rotate id _ _ _,.created (some created),tokens,later => Adds created tokens later ∧ Revoked id later
  | .rotate _ _ _ _,.created none,tokens,later => later = tokens
  | .revoke id _,.revoked true,_,later => Revoked id later
  | .verify authorizationHeader _,.verified (some _),_,later =>
    ∃ token, authorizationHeader.bind bearerToken = some token ∧ ∃ row ∈ later, verifies (hashToken token).text row = true
  | _,_,_,_ => True

def Done (operation : Operation) (result : Result) (store later : LocalClientTokenStore) : Prop := Does operation result store.tokens later.tokens

/-- Whether the operation would write nothing to an empty store. -/
def Lenient : Operation → Prop
  | .save _ => False
  | .add _ _ _ => False
  | _ => True

/-- What the operation brings takes no other token's id or hash. -/
def Apt : Operation → LocalClientTokenStore → Prop
  | .save store,current => Consistent (current.tokens ++ (normalizeStore store).tokens)
  | .add label now drawn,current => Fresh (createLocalClientTokenRecord drawn label now).record current.tokens
  | .rotate _ label now drawn,current => Fresh (createLocalClientTokenRecord drawn label now).record current.tokens
  | _,_ => True

instance (operation : Operation) : Decidable (Lenient operation) :=
  match operation with
  | .save _ => isFalse id
  | .add _ _ _ => isFalse id
  | .rotate _ _ _ _ => isTrue trivial
  | .revoke _ _ => isTrue trivial
  | .verify _ _ => isTrue trivial

instance (operation : Operation) (store : LocalClientTokenStore) : Decidable (Apt operation store) :=
  match operation with
  | .save _ => inferInstanceAs (Decidable (Consistent _))
  | .add _ _ _ => inferInstanceAs (Decidable (Fresh _ _))
  | .rotate _ _ _ _ => inferInstanceAs (Decidable (Fresh _ _))
  | .revoke _ _ => isTrue trivial
  | .verify _ _ => isTrue trivial

theorem save_mutates (incoming : Json) :
    JsonStore.Mutates tokenKind False (Apt (.save incoming)) good Onward (fun _ => True) (Done (.save incoming))
      (saveLocalClientTokenStore (normalizeStore incoming)) where
  carries _ _ _ _ := trivial
  keeps _ _ _ _ _ none := by cases none
  writes carry store payload _ here apt some := by
    cases some
    obtain ⟨change,same,_,stored⟩ := stored_payload ((normalizeStore incoming).tokens.foldl mergeRecord store.tokens)
    have among : Among store.tokens (store.tokens ++ (normalizeStore incoming).tokens) :=
      fun row there => ⟨row,mem_append_left _ there,rfl,rfl⟩
    obtain ⟨goesOn,brought,sound⟩ :=
      merge_spec apt (normalizeStore incoming).tokens store.tokens among (fun row there => mem_append_right _ there) here.distinct
    have read := continues_map same ((normalizeStore incoming).tokens.foldl mergeRecord store.tokens)
    rw [mergeTokenStoreRecords,stored]
    exact ⟨sound.map same,goesOn.trans read,brought.trans read⟩
  misses lenient := lenient.elim

variable {change : LocalClientTokenRecord → LocalClientTokenRecord}

theorem adds_written (created : CreatedLocalClientToken) {tokens kept : List LocalClientTokenRecord} (pairs : List.Forall₂ Advances tokens kept) (same : ∀ record, Advances record (change record)) :
    Continues tokens ((kept ++ [created.record]).map change) ∧ Adds created tokens ((kept ++ [created.record]).map change) := by
  refine ⟨?_,?_,?_⟩
  · intro record member
    obtain ⟨next,there,advances⟩ := pairs_continue pairs record member
    exact ⟨change next,mem_map_of_mem (mem_append_left _ there),advances.trans (same next)⟩
  · rw [ids_map same,map_append,pairs_ids pairs]
    rfl
  · exact ⟨change created.record,mem_map_of_mem (mem_append_right _ mem_cons_self),same created.record⟩

theorem add_mutates (label : Option String) (now : ℚ) (drawn : Drawn) :
    JsonStore.Mutates tokenKind False (Apt (.add label now drawn)) good Onward (fun _ => True) (Done (.add label now drawn))
      (addLocalClientToken (createLocalClientTokenRecord drawn label now)) where
  carries _ _ _ _ := trivial
  keeps _ _ _ _ _ none := by cases none
  writes carry store payload _ here apt some := by
    cases some
    obtain ⟨change,same,_,stored⟩ := stored_payload (store.tokens ++ [(createLocalClientTokenRecord drawn label now).record])
    rw [stored]
    exact ⟨(here.snoc apt).map same,
      adds_written _ (forall₂_same.mpr (fun record _ => Advances.refl record)) same⟩
  misses lenient := lenient.elim

theorem revoke_advances (now : ℚ) (record : LocalClientTokenRecord) : Advances record { record with revokedAt := some now } :=
  ⟨rfl,rfl,fun _ => rfl⟩

theorem revokeFirst_revoked {id : String} (now : ℚ) {tokens : List LocalClientTokenRecord} {existing : LocalClientTokenRecord}
    (found : tokens.find? (hasId id) = some existing) :
    ∃ row ∈ revokeFirst id now tokens, row.id.text = id ∧ row.revokedAt.isSome = true := by
  have named : hasId id existing = true := List.find?_some found
  exact ⟨{ existing with revokedAt := some now },modifyFirst_found found,of_decide_eq_true named,rfl⟩

theorem Revoked.map {id : String} {tokens : List LocalClientTokenRecord} (revoked : Revoked id tokens) (same : ∀ record, Advances record (change record)) : Revoked id (tokens.map change) := by
  obtain ⟨row,there,named,ended⟩ := revoked
  exact ⟨change row,mem_map_of_mem there,(same row).id.trans named,(same row).revoked ended⟩

/-- The token that a rotation keeps is the drawn one. -/
def Drew (drawn : Drawn) (created : Option CreatedLocalClientToken) : Prop :=
  ∀ token, created = some token → token.record.id = drawn.id ∧ token.record.tokenHash = hashToken (createPlainToken drawn)

theorem drew_getD {drawn : Drawn} {created : Option CreatedLocalClientToken} (drew : Drew drawn created) (label : Option String) (now : ℚ) :
    Drew drawn (some (created.getD (createLocalClientTokenRecord drawn label now))) := by
  rintro token ⟨⟩
  cases created with
  | none => exact ⟨rfl,rfl⟩
  | some created => exact drew created rfl

theorem rotate_mutates (id : String) (label : Option String) (now : ℚ) (drawn : Drawn) :
    JsonStore.Mutates tokenKind True (Apt (.rotate id label now drawn)) good Onward (Drew drawn) (Done (.rotate id label now drawn))
      (rotateLocalClientToken id label now drawn) where
  carries created store drew _ := by
    rw [rotateLocalClientToken]
    split
    · exact drew
    · split
      · exact drew
      · exact drew_getD drew _ now
  keeps created store drew _ _ none := by
    rw [rotateLocalClientToken] at none ⊢
    split at none
    · exact rfl
    · split at none
      · next revoked =>
        dsimp only
        rw [if_pos revoked]
        exact rfl
      · cases none
  writes created store payload drew here apt some := by
    rw [rotateLocalClientToken] at some ⊢
    split at some
    · cases some
    · next existing found =>
      split at some
      · cases some
      · next active =>
        dsimp only
        rw [if_neg active]
        cases some
        have drew := drew_getD drew (Option.some (label.getD existing.label)) now
        revert drew
        generalize created.getD (createLocalClientTokenRecord drawn (Option.some (label.getD existing.label)) now) = token
        intro drew
        obtain ⟨sameId,sameHash⟩ := drew token rfl
        obtain ⟨change,same,_,stored⟩ := stored_payload (revokeFirst id now store.tokens ++ [token.record])
        rw [stored]
        have pairs : List.Forall₂ Advances store.tokens (revokeFirst id now store.tokens) := modifyFirst_pairs (revoke_advances now)
        have fresh : Fresh token.record (revokeFirst id now store.tokens) := by
          intro row member
          obtain ⟨origin,there,named,hashed⟩ := pairs_among pairs row member
          rw [← named,← hashed,sameId,sameHash]
          exact apt origin there
        obtain ⟨row,there,named,ended⟩ := revokeFirst_revoked now found
        obtain ⟨goesOn,adds⟩ := adds_written token pairs same
        exact ⟨((here.pairs pairs).snoc fresh).map same,goesOn,adds,
          Revoked.map ⟨row,mem_append_left _ there,named,ended⟩ same⟩
  misses _ _ _ _ _ _ := ⟨rfl,rfl⟩

theorem revoke_mutates (id : String) (now : ℚ) :
    JsonStore.Mutates tokenKind True (Apt (.revoke id now)) good Onward (fun _ => True) (Done (.revoke id now)) (revokeLocalClientToken id now) where
  carries _ _ _ _ := trivial
  keeps carry store _ _ _ none := by
    rw [revokeLocalClientToken] at none ⊢
    split at none
    · exact trivial
    · split at none
      · next revoked =>
        rw [if_pos revoked]
        exact trivial
      · cases none
  writes carry store payload _ here _ some := by
    rw [revokeLocalClientToken] at some ⊢
    split at some
    · cases some
    · next existing found =>
      split at some
      · cases some
      · next active =>
        rw [if_neg active]
        cases some
        obtain ⟨change,same,_,stored⟩ := stored_payload (revokeFirst id now store.tokens)
        rw [stored]
        have pairs : List.Forall₂ Advances store.tokens (revokeFirst id now store.tokens) := modifyFirst_pairs (revoke_advances now)
        exact ⟨(here.pairs pairs).map same,(pairs_continue pairs).trans (continues_map same _),Revoked.map (revokeFirst_revoked _ found) same⟩
  misses _ _ _ _ _ _ := ⟨rfl,trivial⟩

theorem use_advances (now : ℚ) (record : LocalClientTokenRecord) : Advances record { record with lastUsedAt := some now } :=
  ⟨rfl,rfl,fun revoked => revoked⟩

theorem verify_mutates {authorizationHeader : Option String} {token : String} (bears : authorizationHeader.bind bearerToken = some token) (now : ℚ) :
    JsonStore.Mutates tokenKind True (Apt (.verify authorizationHeader now)) good Onward (fun _ => True) (Done (.verify authorizationHeader now))
      (verifyToken (hashToken token).text now) where
  carries _ _ _ _ := trivial
  keeps carry store _ _ _ none := by
    rw [verifyToken] at none ⊢
    split at none
    · exact trivial
    · next record found =>
      exact ⟨token,bears,record,mem_of_find?_eq_some found,List.find?_some found⟩
  writes carry store payload _ here _ some := by
    rw [verifyToken] at some ⊢
    split at some
    · cases some
    · next record found =>
      split at some
      · cases some
        obtain ⟨change,same,open_,stored⟩ :=
          stored_payload (modifyFirst (verifies (hashToken token).text) (fun record => { record with lastUsedAt := Option.some now }) store.tokens)
        rw [stored]
        have pairs : List.Forall₂ Advances store.tokens (modifyFirst (verifies (hashToken token).text) _ store.tokens) :=
          modifyFirst_pairs (use_advances now)
        refine ⟨(here.pairs pairs).map same,(pairs_continue pairs).trans (continues_map same _),token,bears,_,
          mem_map_of_mem (modifyFirst_found found),?_⟩
        have used := List.find?_some found
        rw [verifies] at used ⊢
        rw [open_,(same _).tokenHash]
        exact used
      · cases some
  misses _ _ _ _ _ _ := ⟨rfl,trivial⟩

/-- The file can be read by an operation that would write over it, and what is brought to
    it is another token's neither by its id nor by its hash. -/
def Allowed (operation : Operation) : Disk → Request → Input → Prop := JsonStore.Careful tokenKind (Lenient operation) (Apt operation)

instance (operation : Operation) (disk : Disk) (request : Request) (input : Input) : Decidable (Allowed operation disk request input) :=
  inferInstanceAs (Decidable (JsonStore.Readable tokenKind (Lenient operation) disk request input ∧ Apt operation (tokenKind.stored disk)))

theorem Operation.program_safe (operation : Operation) (s : Disk) (here : JsonStore.Kept tokenKind good Onward s) :
    safe JsonStore.respond (Allowed operation) (JsonStore.Kept tokenKind good Onward) operation.program
      (JsonStore.Outcome tokenKind (Done operation) s) s := by
  cases operation with
  | save store => exact update_safe (save_mutates store) (write_rule _ _) trivial here
  | add label now drawn => exact update_safe (add_mutates label now drawn) (write_rule _ _) trivial here
  | rotate id label now drawn =>
    refine update_safe (rotate_mutates id label now drawn) (write_rule _ _) ?_ here
    rintro token ⟨⟩
  | revoke id now => exact update_safe (revoke_mutates id now) (write_rule _ _) trivial here
  | verify authorizationHeader now =>
    rw [Operation.program]
    cases bears : authorizationHeader.bind bearerToken with
    | none => exact ⟨here,fun _ => rfl,trivial⟩
    | some token => exact update_safe (verify_mutates bears now) (write_rule _ _) trivial here

abbrev TokenWorld : Type := Exclusive.World Answer Disk Operation (Except Failure Result)

def tokensOf (disk : Disk) : List LocalClientTokenRecord := (tokenKind.stored disk).tokens

abbrev TokenRuns : TokenWorld → TokenWorld → Prop := Exclusive.Runs JsonStore.respond Allowed Operation.program

def startWith (file : Option JsonStore.StoreFile) : TokenWorld := .quiet ⟨file,none,false⟩

theorem not_verified {tokens later : List LocalClientTokenRecord} (goesOn : Continues tokens later) (sound : Sound later)
    {row : LocalClientTokenRecord} (member : row ∈ tokens) (ended : row.revokedAt.isSome = true) {tokenHash : String}
    (same : tokenHashEqual row.tokenHash.text tokenHash = true) : ∀ other ∈ later, verifies tokenHash other = false := by
  intro other there
  by_contra accepted
  rw [verifies,Bool.not_eq_false,Bool.and_eq_true] at accepted
  obtain ⟨next,present,advances⟩ := goesOn row member
  have digests : tokenHashEqual next.tokenHash.text other.tokenHash.text = true := by
    rw [advances.tokenHash]
    refine tokenHashEqual_trans same ?_
    rw [tokenHashEqual_comm]
    exact accepted.2
  have named : next.id.text = other.id.text := (sound.consistent next present other there).2 digests
  have one : next = other := inj_on_of_nodup_map sound.distinct present there named
  have revoked := advances.revoked ended
  rw [one,Option.isSome_iff_ne_none] at revoked
  exact revoked (Option.isNone_iff_eq_none.mp accepted.1)

/-- From any state of a run on, every token stays and a revoked one stays revoked; an
    operation that has ended has done what it should, and nothing where it could not
    read the store; and no operation verifies a token that was revoked. -/
theorem tokens_kept {file : Option JsonStore.StoreFile} (sound : Sound (tokensOf ⟨file,none,false⟩)) {w w' : TokenWorld}
    (run : TokenRuns (startWith file) w) (later : TokenRuns w w') :
    Continues (tokensOf w.state) (tokensOf w'.state) ∧
      (∀ operation began result, w'.call = some ⟨operation,began,.done (.ok result)⟩ →
        Does operation result (tokensOf began) (tokensOf w'.state)) ∧
      (∀ operation began ended, w'.call = some ⟨operation,began,.done ended⟩ → w'.state.unread = true ∨ ended.isOk = false →
        w'.state.file = began.file) ∧
      ∀ authorizationHeader now began record token, w'.call = some ⟨.verify authorizationHeader now,began,.done (.ok (.verified (some record)))⟩ →
        authorizationHeader.bind bearerToken = some token → ∀ row ∈ tokensOf w.state, row.revokedAt.isSome = true →
          tokenHashEqual row.tokenHash.text (hashToken token).text = false := by
  have start : JsonStore.Kept tokenKind good Onward ⟨file,none,false⟩ := by
    refine ⟨sound,?_⟩
    rintro payload ⟨⟩
  have keeps := Exclusive.Keeps.run Operation.program_safe start run
  obtain ⟨kept,goesOn⟩ := onward_run Onward.refl Onward.trans Operation.program_safe keeps later
  refine ⟨goesOn,?_,?_,?_⟩
  · intro operation began result ended
    exact (kept.ended ended).2
  · intro operation began outcome ended unread
    have outcome_ := kept.ended ended
    cases outcome with
    | ok result => exact outcome_.1 (unread.resolve_right (fun failed => by cases failed))
    | error failure => exact outcome_
  · intro authorizationHeader now began record token ended bears row member revoked
    obtain ⟨other,bears',row',there,accepted⟩ := (kept.ended ended).2
    rw [bears] at bears'
    cases bears'
    by_contra same
    rw [not_verified goesOn kept.1.1 member revoked (Bool.not_eq_false _ ▸ same) row' there] at accepted
    cases accepted

end

end CodexMultiAuth.ClientTokens
