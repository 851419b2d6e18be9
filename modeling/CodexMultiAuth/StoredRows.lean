import CodexMultiAuth.MergeObservations
import CodexMultiAuth.Processes

/-!
One account in the three documents of a save: the row on the disk, the row of a
manager's baseline and the row of its pool. The credential of the pool is never
newer than the baseline's, nor that than the disk's, and a pool that stayed
behind its baseline still finds the disk's row.
-/
namespace CodexMultiAuth
open AccountMetadataV3
set_option linter.unusedSectionVars false

section
variable [Host]

theorem resolveAccountRecordId_ne (row : AccountMetadataV3) : resolveAccountRecordId row ≠ "" := by
  have derived : deriveAccountRecordId row ≠ "" := by
    intro empty
    have length := congrArg String.length empty
    simp [deriveAccountRecordId] at length
  unfold resolveAccountRecordId
  cases found : row.recordId.bind (fun stored => nonEmpty (trim stored)) with
  | none => exact derived
  | some id =>
    obtain ⟨stored,-,kept⟩ := Option.bind_eq_some_iff.mp found
    unfold nonEmpty at kept
    split at kept
    · cases kept
    · next text =>
      rw [← Option.some.inj kept]
      exact text

/-- The row carries the record id that it resolves to. -/
def Carries (row : AccountMetadataV3) : Prop := row.find "recordId" = some (.str (resolveAccountRecordId row))

/-- A carried record id that resolves to itself. -/
structure Named (row : AccountMetadataV3) : Prop where
  carries : Carries row
  trimmed : trim (resolveAccountRecordId row) = resolveAccountRecordId row

variable {row : AccountMetadataV3}

theorem resolve_of_find {id : String} (carries : row.find "recordId" = some (.str id)) (trimmed : trim id = id)
    (text : id ≠ "") : resolveAccountRecordId row = id := by
  simp [resolveAccountRecordId,recordId,Record.text,carries,Json.asText,trimmed,nonEmpty,text]

theorem Named.of_find {row after : AccountMetadataV3} (named : Named row) (same : after.find "recordId" = row.find "recordId") :
    resolveAccountRecordId after = resolveAccountRecordId row ∧ Named after := by
  have resolves : resolveAccountRecordId after = resolveAccountRecordId row :=
    resolve_of_find (same.trans named.carries) named.trimmed (resolveAccountRecordId_ne row)
  refine ⟨resolves,?_,?_⟩
  · rw [Carries,resolves,same]
    exact named.carries
  · rw [resolves]
    exact named.trimmed

variable {other : AccountMetadataV3}

theorem identityKey_congr (parts : identityParts row = identityParts other)
    (token : row.find "refreshToken" = other.find "refreshToken") : getAccountIdentityKey row = getAccountIdentityKey other := by
  obtain ⟨accountId,email⟩ := Prod.mk.inj parts
  have same : row.refreshToken = other.refreshToken := by
    rw [refreshToken,refreshToken,Record.text,Record.text,token]
  simp only [getAccountIdentityKey,toAccountIdentityRef,toAccountLike,accountId,email,same]

theorem diskByIdentity_append (rows : List AccountMetadataV3) (row : AccountMetadataV3) :
    diskByIdentity (rows ++ [row]) =
      match getAccountIdentityKey row with
      | none => diskByIdentity rows
      | some key => (diskByIdentity rows).put key row := by
  rw [diskByIdentity,List.foldl_append]
  rfl

theorem diskByIdentity_sound {rows : List AccountMetadataV3} {key : String}
    (found : (diskByIdentity rows).find key = some row) : row ∈ rows ∧ getAccountIdentityKey row = some key := by
  induction rows using List.reverseRecOn with
  | nil => simp [diskByIdentity] at found
  | append_singleton rows last ih =>
    rw [diskByIdentity_append] at found
    split at found
    · exact ⟨List.mem_append_left _ (ih found).1,(ih found).2⟩
    · next own here =>
      rw [OrderedMap.find_put] at found
      split at found
      · next same =>
        obtain rfl := Option.some.inj found
        exact ⟨by simp,by rw [here,same]⟩
      · exact ⟨List.mem_append_left _ (ih found).1,(ih found).2⟩

theorem diskByIdentity_isSome {rows : List AccountMetadataV3} {key : String} (member : row ∈ rows)
    (own : getAccountIdentityKey row = some key) : ((diskByIdentity rows).find key).isSome := by
  induction rows using List.reverseRecOn with
  | nil => exact absurd member List.not_mem_nil
  | append_singleton rows last ih =>
    rw [diskByIdentity_append]
    rcases List.mem_append.mp member with earlier | here
    · split
      · exact ih earlier
      · rw [OrderedMap.find_put]
        split
        · rfl
        · exact ih earlier
    · rw [List.mem_singleton] at here
      subst here
      rw [own]
      simp

def expiry (row : AccountMetadataV3) : ℚ := (credential row).expires

theorem expiry_eq (row : AccountMetadataV3) : expiry row = row.expiresAt.getD 0 := rfl

theorem expiry_congr (same : credential row = credential other) : expiry row = expiry other := by
  rw [expiry,expiry,same]

/-- A pool's row finds the disk's by its identity key, and the disk's token can be taken over. -/
structure Adopts (live disk : AccountMetadataV3) : Prop where
  key : ∃ key, getAccountIdentityKey live = some key ∧ getAccountIdentityKey disk = some key
  token : (disk.refreshToken.bind nonEmpty).isSome

/-- How the rows of one account stand to each other. -/
structure Held (disk base live : AccountMetadataV3) : Prop where
  named : Carries disk ∨ disk.find "recordId" = base.find "recordId"
  parts : identityParts base = identityParts live
  behind : expiry live ≤ expiry base
  stored : expiry base ≤ expiry disk
  ownCredential : expiry live = expiry base → credential live = credential base
  diskCredential : expiry base = expiry disk → credential base = credential disk
  adopts : expiry base = expiry disk → expiry live < expiry disk → Adopts live disk

/-- A row of the disk after another one of its account: where the credential is not
    a later one, it is the same and so is the identity. -/
structure Advanced (disk after : AccountMetadataV3) : Prop where
  resolves : resolveAccountRecordId after = resolveAccountRecordId disk
  named : Carries after ∨ after.find "recordId" = disk.find "recordId"
  later : expiry disk ≤ expiry after
  same : expiry disk = expiry after → credential after = credential disk ∧ identityParts after = identityParts disk

theorem Advanced.refl (row : AccountMetadataV3) : Advanced row row := ⟨rfl,.inr rfl,le_refl _,fun _ => ⟨rfl,rfl⟩⟩

theorem refreshToken_congr (same : credential row = credential other) :
    row.find "refreshToken" = other.find "refreshToken" := congrArg Credential.refreshToken same

theorem Adopts.of_same {live disk after : AccountMetadataV3} (adopts : Adopts live disk) (same : credential after = credential disk)
    (parts : identityParts after = identityParts disk) : Adopts live after := by
  have token := refreshToken_congr same
  obtain ⟨key,own,found⟩ := adopts.key
  refine ⟨⟨key,own,?_⟩,?_⟩
  · rw [identityKey_congr parts token]
    exact found
  · have read : after.refreshToken = disk.refreshToken := by
      rw [refreshToken,refreshToken,Record.text,Record.text,token]
    rw [read]
    exact adopts.token

theorem Held.advance {disk base live after : AccountMetadataV3} (held : Held disk base live) (advanced : Advanced disk after) :
    Held after base live := by
  have low := held.stored
  have high := advanced.later
  refine ⟨?_,held.parts,held.behind,le_trans low high,held.ownCredential,?_,?_⟩
  · rcases advanced.named with carries | same
    · exact .inl carries
    · rcases held.named with carries | same_base
      · left
        rw [Carries,advanced.resolves,same]
        exact carries
      · exact .inr (same.trans same_base)
  · intro equal
    have kept := advanced.same (le_antisymm high (equal ▸ low))
    rw [kept.1]
    exact held.diskCredential (le_antisymm low (equal ▸ high))
  · intro equal behind
    have still : expiry disk = expiry after := le_antisymm high (equal ▸ low)
    have kept := advanced.same still
    refine (held.adopts (equal.trans still.symm) ?_).of_same kept.1 kept.2
    rw [still]
    exact behind

/-- What a pool's row proposes to a save: the disk's credential where that is later
    and can be taken over, its own elsewhere. -/
structure Proposes (disk live proposed : AccountMetadataV3) : Prop where
  recordId : proposed.find "recordId" = live.find "recordId"
  parts : identityParts proposed = identityParts live
  credential : credential proposed = credential disk ∧ expiry live < expiry disk ∧ Adopts live disk ∨
    credential proposed = credential live ∧ ¬ (expiry live < expiry disk ∧ Adopts live disk)

theorem identityParts_congr (accountId : row.find "accountId" = other.find "accountId")
    (email : row.find "email" = other.find "email") : identityParts row = identityParts other := by
  rw [identityParts,identityParts,AccountMetadataV3.accountId,AccountMetadataV3.accountId,AccountMetadataV3.email,AccountMetadataV3.email,
    Record.text,Record.text,Record.text,Record.text,accountId,email]

theorem reconcileAccount_credential (disk live : AccountMetadataV3) :
    credential (reconcileAccount disk live) =
      if expiry live < expiry disk ∧ (disk.refreshToken.bind nonEmpty).isSome then credential disk else credential live := by
  have marked : ∀ row : AccountMetadataV3, credential
      (if (authInvalidation disk).isSome ∧ (authInvalidation row).isNone then
        if ((disk.text "authInvalidationErrorCode").bind nonEmpty).isSome then
          (row.assign "authInvalidatedAt" (authInvalidation disk)).assign "authInvalidationErrorCode" (disk.find "authInvalidationErrorCode")
        else row.assign "authInvalidatedAt" (authInvalidation disk)
      else row) = credential row := by
    intro row
    split
    · split <;> simp [credential]
    · rfl
  unfold reconcileAccount
  refine (marked _).trans ?_
  rw [expiry_eq,expiry_eq]
  split
  · simp [credential]
  · rfl

theorem proposes_self {disk live : AccountMetadataV3} (unfound : ¬ Adopts live disk) : Proposes disk live live :=
  ⟨rfl,rfl,.inr ⟨rfl,fun both => unfound both.2⟩⟩

theorem proposes_reconciled {disk live : AccountMetadataV3} (key : ∃ key, getAccountIdentityKey live = some key ∧
    getAccountIdentityKey disk = some key) : Proposes disk live (reconcileAccount disk live) := by
  have same := reconcileAccount_sameBut disk live
  refine ⟨same "recordId" (by simp [reconciledKeys]),?_,?_⟩
  · exact identityParts_congr (same "accountId" (by simp [reconciledKeys])) (same "email" (by simp [reconciledKeys]))
  · rw [reconcileAccount_credential]
    by_cases both : expiry live < expiry disk ∧ (disk.refreshToken.bind nonEmpty).isSome
    · rw [if_pos both]
      exact .inl ⟨rfl,both.1,key,both.2⟩
    · rw [if_neg both]
      exact .inr ⟨rfl,fun adopts => both ⟨adopts.1,adopts.2.token⟩⟩

/-! ### Merging the rows of an account -/

theorem settled_owned {disk loc : AccountMetadataV3} {k : String} (member : k ∈ settledKeys) : UserOwned disk loc k := by
  simp only [settledKeys,List.mem_cons,List.not_mem_nil,or_false] at member
  refine ⟨?_,fun _ => ?_⟩ <;> rcases member with rfl | rfl | rfl | rfl | rfl | rfl | rfl <;> simp [observationKeys,workspaceKeys]

theorem credential_ext (same : ∀ k ∈ ["refreshToken","accessToken","expiresAt"], row.find k = other.find k) :
    credential row = credential other := by
  simp only [credential,same "refreshToken" (by simp),same "accessToken" (by simp),same "expiresAt" (by simp)]

theorem credential_find (same : credential row = credential other) :
    ∀ k ∈ ["refreshToken","accessToken","expiresAt"], row.find k = other.find k := by
  simp only [credential,Credential.mk.injEq] at same
  intro k member
  simp only [List.mem_cons,List.not_mem_nil,or_false] at member
  rcases member with rfl | rfl | rfl
  · exact same.1
  · exact same.2.1
  · exact same.2.2

theorem credentialKeys_settled : ∀ k ∈ ["refreshToken","accessToken","expiresAt"], k ∈ settledKeys := by
  intro k member
  simp only [List.mem_cons,List.not_mem_nil,or_false] at member
  rcases member with rfl | rfl | rfl <;> simp [settledKeys]

section
variable {base disk loc merged : AccountMetadataV3}

section
variable (merge : AccountMerged base disk loc merged)
include merge

/-- A merge keeps the disk's credential from a writer that has it, or that kept its baseline's. -/
theorem merged_disk_credential
    (kept : credential loc = credential disk ∨ credential loc = credential base) : credential merged = credential disk := by
  refine credential_ext (fun k member => ?_)
  have field := merge.userOwned k (settled_owned (credentialKeys_settled k member))
  rcases kept with same | same
  · rw [credential_find same k member,mergeValue_same,Except.ok.injEq] at field
    exact field.symm
  · exact (mergeValue_threeWay field).locKept (credential_find same k member)

theorem merged_new_credential (known : credential base = credential disk) :
    credential merged = credential loc := by
  refine credential_ext (fun k member => ?_)
  have field := merge.userOwned k (settled_owned (credentialKeys_settled k member))
  exact (mergeValue_threeWay field).diskKept (credential_find known k member).symm

theorem merged_expiry : ¬ (expiry loc < expiry base ∧ expiry base < expiry disk) := by
  rintro ⟨behind,older⟩
  have apart : ∀ {x y : AccountMetadataV3}, expiry x < expiry y → x.find "expiresAt" ≠ y.find "expiresAt" := by
    intro x y less same
    refine absurd less (not_lt.mpr (le_of_eq ?_))
    simp only [expiry,Credential.expires,credential,same]
  have field := merge.userOwned "expiresAt" (settled_owned (by simp [settledKeys]))
  rcases mergeValue_cases field with ⟨kept | same,-⟩ | ⟨known,-⟩ | ⟨m,d,l,-,onDisk,onLocal,-⟩
  · exact apart behind kept.symm
  · exact apart (behind.trans older) same.symm
  · exact apart older known
  · have numbers : expiry loc = expiry disk := by
      simp [expiry,Credential.expires,credential,onDisk,onLocal,Json.asNumber]
    exact absurd (behind.trans older) (not_lt.mpr (le_of_eq numbers.symm))

theorem mergedText {k : String} (member : k ∈ settledKeys) :
    merged.text k = disk.text k ∨ disk.text k = base.text k ∧ merged.text k = loc.text k := by
  have field := merge.userOwned k (settled_owned member)
  rcases mergeValue_cases field with ⟨-,same⟩ | ⟨known,same⟩ | ⟨m,d,l,merges,onDisk,-,-⟩
  · left
    rw [Record.text,Record.text,same]
  · right
    rw [Record.text,Record.text,Record.text,Record.text,same,known]
    exact ⟨rfl,rfl⟩
  · left
    rw [Record.text,Record.text,merges,onDisk]
    rfl

theorem merged_parts (parts : identityParts base = identityParts loc) :
    identityParts merged = identityParts disk := by
  obtain ⟨accountId,email⟩ := Prod.mk.inj parts
  refine Prod.ext ?_ ?_
  · rcases mergedText merge (show "accountId" ∈ settledKeys by simp [settledKeys]) with same | ⟨known,same⟩
    · exact congrArg normalizeAccountIdKey same
    · exact ((congrArg normalizeAccountIdKey same).trans accountId.symm).trans (congrArg normalizeAccountIdKey known).symm
  · rcases mergedText merge (show "email" ∈ settledKeys by simp [settledKeys]) with same | ⟨known,same⟩
    · exact congrArg normalizeEmailKey same
    · exact ((congrArg normalizeEmailKey same).trans email.symm).trans (congrArg normalizeEmailKey known).symm

theorem merged_recordId (named : Named loc)
    (resolves : resolveAccountRecordId loc = resolveAccountRecordId disk)
    (onDisk : Carries disk ∨ disk.find "recordId" = base.find "recordId") :
    merged.find "recordId" = loc.find "recordId" := by
  have field := merge.userOwned "recordId" (settled_owned (by simp [settledKeys]))
  rcases onDisk with carries | known
  · have same : disk.find "recordId" = loc.find "recordId" := by
      rw [carries,named.carries,resolves]
    rw [same,mergeValue_same,Except.ok.injEq] at field
    exact field.symm
  · exact (mergeValue_threeWay field).diskKept known
end

end

theorem Held.of_same {disk base live : AccountMetadataV3} (named : Carries disk ∨ disk.find "recordId" = base.find "recordId")
    (parts : identityParts base = identityParts live) (stored : credential base = credential disk)
    (own : credential live = credential base) : Held disk base live :=
  ⟨named,parts,le_of_eq (expiry_congr own),le_of_eq (expiry_congr stored),fun _ => own,fun _ => stored,
    fun _ behind => absurd behind (not_lt.mpr (le_of_eq (expiry_congr (own.trans stored)).symm))⟩

theorem Proposes.named {disk live proposed : AccountMetadataV3} (proposes : Proposes disk live proposed) (named : Named live) :
    resolveAccountRecordId proposed = resolveAccountRecordId live ∧ Named proposed := named.of_find proposes.recordId

section
variable {disk base live proposed merged : AccountMetadataV3}

theorem Held.proposed_credential (held : Held disk base live) (proposes : Proposes disk live proposed)
    (merge : AccountMerged base disk proposed merged) : credential merged = credential disk := by
  rcases proposes.credential with ⟨same,-,-⟩ | ⟨same,unfound⟩
  · exact merged_disk_credential merge (.inl same)
  · rcases eq_or_lt_of_le held.behind with equal | behind
    · exact merged_disk_credential merge (.inr (same.trans (held.ownCredential equal)))
    · rcases eq_or_lt_of_le held.stored with equal_disk | older
      · exact absurd ⟨equal_disk ▸ behind,held.adopts equal_disk (equal_disk ▸ behind)⟩ unfound
      · refine absurd ⟨?_,older⟩ (merged_expiry merge)
        rw [expiry_congr same]
        exact behind

theorem Held.save (held : Held disk base live) (named : Named live) (resolves : resolveAccountRecordId live = resolveAccountRecordId disk)
    (proposes : Proposes disk live proposed) (merge : AccountMerged base disk proposed merged) :
    Advanced disk merged ∧ credential merged = credential disk ∧ Held merged proposed live := by
  have kept := held.proposed_credential proposes merge
  have parts := merged_parts merge (held.parts.trans proposes.parts.symm)
  obtain ⟨same_id,named_proposed⟩ := proposes.named named
  have recordId := merged_recordId merge named_proposed (same_id.trans resolves) held.named
  obtain ⟨merged_id,named_merged⟩ := named_proposed.of_find recordId
  refine ⟨⟨merged_id.trans (same_id.trans resolves),.inl named_merged.carries,le_of_eq (expiry_congr kept).symm,fun _ => ⟨kept,parts⟩⟩,
    kept,?_⟩
  rcases proposes.credential with ⟨same,behind,adopts⟩ | ⟨same,unfound⟩
  · have equal : expiry proposed = expiry disk := expiry_congr same
    refine ⟨.inl named_merged.carries,proposes.parts,?_,?_,?_,fun _ => same.trans kept.symm,fun _ _ => adopts.of_same kept parts⟩
    · rw [equal]
      exact le_of_lt behind
    · rw [expiry_congr kept,equal]
    · intro own
      rw [own,equal] at behind
      exact absurd behind (lt_irrefl _)
  · have equal : expiry proposed = expiry live := expiry_congr same
    refine ⟨.inl named_merged.carries,proposes.parts,le_of_eq equal.symm,?_,fun _ => same.symm,?_,?_⟩
    · rw [equal,expiry_congr kept]
      exact le_trans held.behind held.stored
    · intro still
      rw [equal,expiry_congr kept] at still
      have own : expiry live = expiry base := le_antisymm held.behind (still ▸ held.stored)
      rw [same,kept,held.ownCredential own]
      exact held.diskCredential (own.symm.trans still)
    · intro still behind
      rw [equal] at still
      rw [still] at behind
      exact absurd behind (lt_irrefl _)

theorem Held.commit (held : Held disk base live) (named : Named live) (resolves : resolveAccountRecordId live = resolveAccountRecordId disk)
    (fresh : credential live = credential disk) {stored refreshed : AccountMetadataV3}
    (recordId : stored.find "recordId" = live.find "recordId") (parts : identityParts stored = identityParts refreshed)
    (same : credential refreshed = credential stored) (later : expiry live < expiry stored)
    (merge : AccountMerged base disk stored merged) :
    Advanced disk merged ∧ credential merged = credential stored ∧ Held merged stored refreshed := by
  have equal : expiry base = expiry disk := le_antisymm held.stored (by rw [← expiry_congr fresh]; exact held.behind)
  have taken := merged_new_credential merge (held.diskCredential equal)
  obtain ⟨same_id,named_stored⟩ := named.of_find recordId
  have id := merged_recordId merge named_stored (same_id.trans resolves) held.named
  obtain ⟨merged_id,named_merged⟩ := named_stored.of_find id
  have raised : expiry disk < expiry merged := by
    rw [expiry_congr taken,← expiry_congr fresh]
    exact later
  exact ⟨⟨merged_id.trans (same_id.trans resolves),.inl named_merged.carries,le_of_lt raised,
    fun still => absurd still (ne_of_lt raised)⟩,taken,Held.of_same (.inl named_merged.carries) parts taken.symm same⟩
end

end
end CodexMultiAuth
