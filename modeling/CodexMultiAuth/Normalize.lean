import CodexMultiAuth.Dedup

/-!
Reading a stored document of any version: rows without a refresh token are
dropped, the rest are deduplicated, and the selections are resolved against what
remains. The manual pin alone is kept as a position (`pin_kept_iff`).
-/
namespace CodexMultiAuth
open List
set_option linter.unusedSectionVars false

def modelFamilies : List String := ["gpt-5-codex","codex-max","codex","gpt-5.2","gpt-5.1"]

/-- The limits of a version 1 row as a map: what its own map has, and for the
    other families the limit that is still ahead. -/
def migrateRateLimits (now : ℚ) (account : Record) : Record :=
  let existing := ((account.record "rateLimitResetTimes").getD []).filter (fun entry => entry.2.asNumber.isSome)
  match account.number "rateLimitResetTime" with
  | none => existing
  | some reset =>
    if now < reset then
      modelFamilies.foldl (fun limits family => if (limits.find family).isSome then limits else limits.put family (.num reset)) existing
    else existing

def migrateV1ToV3 (now : ℚ) (account : Record) : AccountMetadataV3 :=
  let limits := migrateRateLimits now account
  let passthrough := (account.remove "rateLimitResetTime").remove "rateLimitResetTimes"
  passthrough.assign "rateLimitResetTimes" (if limits.isEmpty then none else some (.obj limits))

/-- Drops an invalidation that has no time. -/
def normalizeInvalidation (account : AccountMetadataV3) : AccountMetadataV3 :=
  if ((account.number "authInvalidatedAt").getD 0) > 0 then account
  else (account.remove "authInvalidatedAt").remove "authInvalidationErrorCode"

/-- A stored row, unless it is not an object with a refresh token. -/
def validAccount (version now : ℚ) (row : Json) : Option AccountMetadataV3 :=
  match row with
  | .obj fields =>
    let account : AccountMetadataV3 := if version = 1 then migrateV1ToV3 now fields else fields
    if ((account.refreshToken.map trim).getD "") = "" then none else some (normalizeInvalidation account)
  | _ => none

section
variable [Host]

/-- Who the row at a raw position is; nobody when the row is not an object. -/
def extractActiveAccountRef (rawAccounts : List Json) (activeIndex : Nat) : AccountIdentityRef :=
  match rawAccounts[activeIndex]? with
  | some (.obj fields) => toAccountIdentityRef (AccountMetadataV3.toAccountLike fields)
  | _ => ⟨none,none,none⟩

def refAsAccount (ref : AccountIdentityRef) : AccountLike := ⟨ref.accountId,ref.emailKey,ref.refreshToken⟩

def normalizeActiveIndexByFamily (version : ℚ) (doc : Record) (rawAccounts : List Json) (rawActiveIndex : Nat)
    (deduplicated : List AccountMetadataV3) : OrderedMap String ℚ :=
  let stored := (doc.record "activeIndexByFamily").getD []
  modelFamilies.map (fun family =>
    let migrated := if version = 1 then (Record.number stored family).or (doc.number "activeIndex") else Record.number stored family
    let rawIndex := migrated.getD rawActiveIndex
    let ref := extractActiveAccountRef rawAccounts (clampIndex rawIndex rawAccounts.length)
    (family,(resolveAccountSelectionIndex deduplicated (refAsAccount ref) rawIndex : ℚ)))

/-- The pin as a position, dropped when it is out of range. -/
def normalizePinnedAccountIndex (doc : Record) (accountCount : Nat) : Option ℚ :=
  (doc.number "pinnedAccountIndex").bind (fun raw =>
    if truncate raw < 0 ∨ (accountCount : ℤ) ≤ truncate raw then none else some (truncate raw : ℚ))

/-- The generation, dropped when it is not a safe natural number. -/
def normalizeAffinityGeneration (doc : Record) : Option Json :=
  (doc.number "affinityGeneration").bind (fun raw =>
    if raw.den = 1 ∧ 0 ≤ raw ∧ raw ≤ 9007199254740991 then some (.num raw) else none)

def normalizeAccountStorage (now : ℚ) (data : Json) : Option AccountStorageV3 :=
  match data with
  | .obj fields =>
    let doc : Record := fields
    match doc.find "version", doc.find "accounts" with
    | some (.num version), some (.arr rawAccounts) =>
      if version = 1 ∨ version = 3 then
        let rawActiveIndex := clampIndex ((doc.number "activeIndex").getD 0) rawAccounts.length
        let activeRef := extractActiveAccountRef rawAccounts rawActiveIndex
        let deduplicated := deduplicateAccounts (rawAccounts.filterMap (validAccount version now))
        some
          { accounts := deduplicated
            activeIndex := (resolveAccountSelectionIndex deduplicated (refAsAccount activeRef) rawActiveIndex : ℚ)
            activeIndexByFamily := some (normalizeActiveIndexByFamily version doc rawAccounts rawActiveIndex deduplicated)
            pinnedAccountIndex := normalizePinnedAccountIndex doc deduplicated.length
            fields := OrderedMap.assign [("version",.num 3)] "affinityGeneration" (normalizeAffinityGeneration doc) }
      else none
    | _, _ => none
  | _ => none

/-! ### Where a row ends up -/

/-- The slot of each row of a pass: its own new one, or the one it merges into. -/
def slotsFrom (survivors : List AccountMetadataV3) : List AccountMetadataV3 → List Nat
  | [] => []
  | account :: rest =>
    (findMatchingAccountIndex survivors (AccountRow.toAccountLike account)).getD survivors.length ::
      slotsFrom (linearStep survivors account) rest

def slotOf (rows : List AccountMetadataV3) (i : Nat) : Nat := (slotsFrom [] rows)[i]?.getD i

/-- The lists that deduplication passes over. -/
def dedupInputs (rows : List AccountMetadataV3) : List (List AccountMetadataV3) :=
  rows :: Passes.inputs linearPass (rows.length + 1) (linearPass rows)

/-- The position of the survivor of a raw row, followed through the filter and
    through every pass. -/
def survivorOf (version now : ℚ) (rawAccounts : List Json) (p : Nat) : Option Nat :=
  ((rawAccounts[p]?).bind (validAccount version now)).map (fun _ =>
    ((dedupInputs (rawAccounts.filterMap (validAccount version now))).map slotOf).foldl (fun j move => move j)
      ((rawAccounts.take p).filterMap (validAccount version now)).length)

/-- No row up to a position is dropped, and none of a pass merges into an earlier one. -/
def KeepsPlace (version now : ℚ) (rawAccounts : List Json) (p : Nat) : Prop :=
  (∀ row ∈ rawAccounts.take (p + 1), (validAccount version now row).isSome = true) ∧
    ∀ rows ∈ dedupInputs (rawAccounts.filterMap (validAccount version now)), ∀ i ≤ p, ∀ row, rows[i]? = some row →
      findMatchingAccountIndex (rows.take i) (AccountRow.toAccountLike row) = none

/-- The rows up to a position are all appended. -/
def Appended (survivors rows : List AccountMetadataV3) (i : Nat) : Prop :=
  ∀ j ≤ i, ∀ row, rows[j]? = some row →
    findMatchingAccountIndex (survivors ++ rows.take j) (AccountRow.toAccountLike row) = none

/-- A row's slot is no later than its position, and equals it when every row so
    far was appended. -/
theorem slotsFrom_spec {rows survivors : List AccountMetadataV3} {i : Nat} (inside : i < rows.length) :
    ∃ slot, (slotsFrom survivors rows)[i]? = some slot ∧ slot ≤ survivors.length + i ∧
      (slot = survivors.length + i ↔ Appended survivors rows i) := by
  induction rows generalizing survivors i with
  | nil => simp at inside
  | cons account rows ih =>
    simp only [slotsFrom]
    rcases linearStep_cases survivors account with ⟨unmatched,step⟩ | ⟨k,current,matched,place,-,step⟩
    · cases i with
      | zero =>
        refine ⟨survivors.length,by simp [unmatched],by simp,fun _ => ?_,fun _ => by simp⟩
        intro j small row found
        obtain rfl : j = 0 := by omega
        simp only [List.getElem?_cons_zero,Option.some.injEq] at found
        subst found
        simpa using unmatched
      | succ i =>
        simp only [length_cons,Nat.add_lt_add_iff_right] at inside
        obtain ⟨slot,found,bound,exact_⟩ := @ih (linearStep survivors account) i inside
        have longer : (linearStep survivors account).length = survivors.length + 1 := by simp [step]
        rw [longer] at bound exact_
        refine ⟨slot,by simpa using found,by omega,?_⟩
        rw [show survivors.length + (i + 1) = survivors.length + 1 + i by omega,exact_,step]
        constructor
        · intro appended j small row foundRow
          cases j with
          | zero =>
            simp only [List.getElem?_cons_zero,Option.some.injEq] at foundRow
            subst foundRow
            simpa using unmatched
          | succ j => simpa using appended j (by omega) row foundRow
        · intro appended j small row foundRow
          simpa using appended (j + 1) (by omega) row foundRow
    · have early : k < survivors.length := (List.getElem?_eq_some_iff.mp place).1
      have stuck : ∀ i, ¬ Appended survivors (account :: rows) i := by
        intro i appended
        have nowhere := appended 0 (by omega) account rfl
        rw [take_zero,append_nil,matched] at nowhere
        cases nowhere
      cases i with
      | zero =>
        refine ⟨k,by simp [matched],by omega,fun equal => ?_,fun appended => absurd appended (stuck 0)⟩
        omega
      | succ i =>
        simp only [length_cons,Nat.add_lt_add_iff_right] at inside
        obtain ⟨slot,found,bound,-⟩ := @ih (linearStep survivors account) i inside
        have same : (linearStep survivors account).length = survivors.length := by simp [step]
        rw [same] at bound
        refine ⟨slot,by simpa using found,by omega,?_⟩
        constructor
        · intro equal; omega
        · intro appended; exact absurd appended (stuck _)

theorem slotOf_le (rows : List AccountMetadataV3) (i : Nat) : slotOf rows i ≤ i := by
  unfold slotOf
  rcases Nat.lt_or_ge i rows.length with inside | outside
  · obtain ⟨slot,found,bound,-⟩ := @slotsFrom_spec _ rows [] i inside
    rw [found]; simpa using bound
  · have length : ∀ (rows survivors : List AccountMetadataV3), (slotsFrom survivors rows).length = rows.length := by
      intro rows
      induction rows with
      | nil => intro _; rfl
      | cons account rows ih => intro survivors; simp [slotsFrom,ih]
    rw [List.getElem?_eq_none (by rw [length]; exact outside)]
    exact Nat.le_refl _

theorem slotOf_eq_self {rows : List AccountMetadataV3} {i : Nat} (inside : i < rows.length) :
    slotOf rows i = i ↔ ∀ j ≤ i, ∀ row, rows[j]? = some row →
      findMatchingAccountIndex (rows.take j) (AccountRow.toAccountLike row) = none := by
  obtain ⟨slot,found,-,equal⟩ := @slotsFrom_spec _ rows [] i inside
  simp only [length_nil,Nat.zero_add,Appended,nil_append] at equal
  rw [slotOf,found,Option.getD_some,equal]

theorem length_dedupInputs {rows l : List AccountMetadataV3} (member : l ∈ dedupInputs rows) :
    (deduplicateAccounts rows).length ≤ l.length := by
  rw [deduplicateAccounts_eq]
  rcases mem_cons.mp member with rfl | member
  · exact le_trans (Passes.length_untilStable length_linearPass _ _) (length_linearPass l)
  · exact Passes.length_inputs length_linearPass member

theorem normalizePinnedAccountIndex_eq {doc : Record} {p : Nat} (pinned : doc.find "pinnedAccountIndex" = some (.num p))
    (accountCount : Nat) : normalizePinnedAccountIndex doc accountCount = if accountCount ≤ p then none else some (p : ℚ) := by
  have whole : truncate (p : ℚ) = p := by simp [truncate]
  simp only [normalizePinnedAccountIndex,Record.number,pinned,Option.bind_some,Json.asNumber,whole]
  have positive : ¬ ((p : ℤ) < 0) := by omega
  simp [positive]

/-- The pin stays on its account exactly when it is dropped or nothing at or
    before it moves. -/
theorem pin_kept_iff (now version : ℚ) (doc : Record) (rawAccounts : List Json) (p : Nat)
    (known : version = 1 ∨ version = 3) (versioned : doc.find "version" = some (.num version))
    (listed : doc.find "accounts" = some (.arr rawAccounts)) (pinned : doc.find "pinnedAccountIndex" = some (.num p))
    (inside : p < rawAccounts.length) :
    ∃ normalized, normalizeAccountStorage now (.obj doc) = some normalized ∧
      ((∀ index, normalized.pinnedAccountIndex = some index →
          ∃ survivor, survivorOf version now rawAccounts p = some survivor ∧ index = survivor) ↔
        (deduplicateAccounts (rawAccounts.filterMap (validAccount version now))).length ≤ p ∨
          KeepsPlace version now rawAccounts p) := by
  refine ⟨_,by simp only [normalizeAccountStorage,versioned,listed,known,if_true]; rfl,?_⟩
  simp only [normalizePinnedAccountIndex_eq pinned]
  have filtered := length_filterMap_le (validAccount version now) (rawAccounts.take p)
  have taken : (rawAccounts.take p).length = p := by simp; omega
  have early : ∀ move ∈ (dedupInputs (rawAccounts.filterMap (validAccount version now))).map slotOf, ∀ i, move i ≤ i := by
    intro move member
    obtain ⟨rows,-,rfl⟩ := mem_map.mp member
    exact slotOf_le rows
  by_cases short : (deduplicateAccounts (rawAccounts.filterMap (validAccount version now))).length ≤ p
  · simp [short]
  · simp only [if_neg short,Option.some.injEq]
    rw [or_iff_right short]
    have long : ∀ rows ∈ dedupInputs (rawAccounts.filterMap (validAccount version now)), p < rows.length :=
      fun rows member => lt_of_lt_of_le (not_le.mp short) (length_dedupInputs member)
    constructor
    · intro kept
      obtain ⟨survivor,found,same⟩ := kept p rfl
      have same : p = survivor := by exact_mod_cast same
      subst same
      simp only [survivorOf,Option.map_eq_some_iff] at found
      obtain ⟨account,valid,followed⟩ := found
      -- The position only shrinks on its way, so nothing shrank it.
      have bound := Passes.follow_le early ((rawAccounts.take p).filterMap (validAccount version now)).length
      rw [followed] at bound
      have whole : ((rawAccounts.take p).filterMap (validAccount version now)).length = p := by omega
      rw [whole] at followed
      constructor
      · rw [take_add_one,List.getElem?_eq_getElem inside]
        intro row member
        rcases mem_append.mp member with member | member
        · exact filterMap_length_eq_length.mp (whole.trans taken.symm) row member
        · rw [List.getElem?_eq_getElem inside,Option.bind_some] at valid
          simp only [Option.toList_some,mem_singleton] at member
          rw [member,valid]; rfl
      · intro rows member i small row place
        have fixed := (Passes.follow_eq_self early).mp followed (slotOf rows) (mem_map_of_mem member)
        exact (slotOf_eq_self (long rows member)).mp fixed i small row place
    · rintro ⟨valid,unmoved⟩ index rfl
      refine ⟨p,?_,rfl⟩
      have last : rawAccounts[p] ∈ rawAccounts.take (p + 1) := by
        rw [take_succ_eq_append_getElem inside]
        exact mem_append_right _ (mem_singleton.mpr rfl)
      have here := valid rawAccounts[p] last
      obtain ⟨account,known⟩ := Option.isSome_iff_exists.mp here
      have whole : ((rawAccounts.take p).filterMap (validAccount version now)).length = p := by
        refine (filterMap_length_eq_length.mpr ?_).trans taken
        intro row member
        exact valid row (take_subset_take_left rawAccounts (Nat.le_succ p) member)
      simp only [survivorOf,List.getElem?_eq_getElem inside,Option.bind_some,known,Option.map_some,whole,Option.some.injEq]
      refine (Passes.follow_eq_self early).mpr ?_
      intro move member
      obtain ⟨rows,given,rfl⟩ := mem_map.mp member
      exact (slotOf_eq_self (long rows given)).mpr (unmoved rows given)

end

section
attribute [local instance] asciiHost

/-- A blank row, then accounts `A` and `B`, pinned to `A`. -/
private def pinnedDocument : Record :=
  [("version",.num 3),
    ("accounts",.arr [.obj [("refreshToken",.str " ")],.obj [("accountId",.str "A"),("refreshToken",.str "a")],
      .obj [("accountId",.str "B"),("refreshToken",.str "b")]]),
    ("activeIndex",.num 1),("pinnedAccountIndex",.num 1)]

/-- The blank row goes, and the pin to `A` becomes a pin to `B`. -/
theorem pin_moves_to_other_account :
    (normalizeAccountStorage 0 (.obj pinnedDocument)).map (fun normalized =>
      normalized.pinnedAccountIndex.map (fun index => (item normalized.accounts index).bind AccountMetadataV3.accountId)) =
        some (some (some "B")) ∧
    survivorOf 3 0 [.obj [("refreshToken",.str " ")],.obj [("accountId",.str "A"),("refreshToken",.str "a")],
      .obj [("accountId",.str "B"),("refreshToken",.str "b")]] 1 = some 0 := by
  constructor
  · simp only [normalizeAccountStorage,pinnedDocument,deduplicateAccounts_eq]
    decide
  · decide

/-- Without the blank row the pin stays on `B`. -/
theorem pin_kept_iff_two : ∃ normalized,
    normalizeAccountStorage 0 (.obj [("version",.num 3),("pinnedAccountIndex",.num 1),
      ("accounts",.arr [.obj [("accountId",.str "A"),("refreshToken",.str "a")],
        .obj [("accountId",.str "B"),("refreshToken",.str "b")]])]) = some normalized ∧
      ((∀ index, normalized.pinnedAccountIndex = some index →
          ∃ survivor, survivorOf 3 0 [.obj [("accountId",.str "A"),("refreshToken",.str "a")],
            .obj [("accountId",.str "B"),("refreshToken",.str "b")]] 1 = some survivor ∧ index = survivor) ↔
        (deduplicateAccounts ([Json.obj [("accountId",.str "A"),("refreshToken",.str "a")],
          .obj [("accountId",.str "B"),("refreshToken",.str "b")]].filterMap (validAccount 3 0))).length ≤ 1 ∨
          KeepsPlace 3 0 [.obj [("accountId",.str "A"),("refreshToken",.str "a")],
            .obj [("accountId",.str "B"),("refreshToken",.str "b")]] 1) :=
  pin_kept_iff 0 3 _ _ 1 (by decide) (by decide) (by decide) (by decide) (by decide)

end
end CodexMultiAuth
