import CodexMultiAuth.ConfirmedReset

/-!
The history of an account's rejections only grows: no key is forgotten, what its
rejections know is never taken back, and a rejection that is recorded raises the
revision of its key.
-/
namespace CodexMultiAuth.ConfirmedReset
open List OrderedMap
set_option linter.unusedSectionVars false

/-- The generation of a scope's receipts that a rejection follows. -/
def follows (rejection : RateLimitObservation) (scopeId : String) : Nat := (rejection.receiptGenerations.find scopeId).getD 0

theorem find_raiseGenerations (generations known : OrderedMap String Nat) (scope : String) :
    (generations.find scope).getD 0 ≤ ((raiseGenerations generations known).find scope).getD 0 ∧
      ∀ generation, known.find scope = some generation → generation ≤ ((raiseGenerations generations known).find scope).getD 0 := by
  induction known generalizing generations with
  | nil => simp [raiseGenerations]
  | cons entry rest ih =>
    obtain ⟨raised,later⟩ := ih (generations.put entry.1 (max ((generations.find entry.1).getD 0) entry.2))
    have at_entry : ((generations.put entry.1 (max ((generations.find entry.1).getD 0) entry.2)).find scope).getD 0 =
        if entry.1 = scope then max ((generations.find scope).getD 0) entry.2 else (generations.find scope).getD 0 := by
      rw [find_put]
      split
      · next here => simp [here]
      · rfl
    rw [at_entry] at raised
    refine ⟨le_trans ?_ raised,?_⟩
    · split <;> omega
    · intro generation found
      rw [find_cons] at found
      split at found
      · next here =>
        obtain rfl := Option.some.inj found
        rw [if_pos here] at raised
        exact le_trans (le_max_right _ _) raised
      · exact later generation found

/-- A rejection that stands in for an earlier one of its key: it follows at least
    the same receipts, and is the same rejection unless its revision is higher. -/
structure Succeeds (before after : RateLimitObservation) : Prop where
  revision : before.revision ≤ after.revision
  follows : ∀ scope, follows before scope ≤ follows after scope
  same : after.revision = before.revision → before.receiptReadFailed = false →
    after.receiptReadFailed = false ∧ ∀ scope, ConfirmedReset.follows after scope = ConfirmedReset.follows before scope

theorem Succeeds.refl (rejection : RateLimitObservation) : Succeeds rejection rejection :=
  ⟨le_refl _,fun _ => le_refl _,fun _ known => ⟨known,fun _ => rfl⟩⟩

theorem Succeeds.trans {first second third : RateLimitObservation} (before : Succeeds first second) (after : Succeeds second third) :
    Succeeds first third := by
  refine ⟨le_trans before.revision after.revision,fun scope => le_trans (before.follows scope) (after.follows scope),?_⟩
  intro same known
  have low := before.revision
  have high := after.revision
  obtain ⟨known_second,second_follows⟩ := before.same (by omega) known
  obtain ⟨known_third,third_follows⟩ := after.same (by omega) known_second
  exact ⟨known_third,fun scope => (third_follows scope).trans (second_follows scope)⟩

/-- What an account's history goes through: no key is forgotten, and new ones have a revision. -/
structure History (before after : LimitedAccount) : Prop where
  kept : ∀ key rejection, before.rateLimitObservations.find key = some rejection →
    ∃ later, after.rateLimitObservations.find key = some later ∧ Succeeds rejection later
  fresh : ∀ key rejection, before.rateLimitObservations.find key = none → after.rateLimitObservations.find key = some rejection →
    0 < rejection.revision

theorem History.of_same {before after : LimitedAccount} (same : after.rateLimitObservations = before.rateLimitObservations) :
    History before after := by
  refine ⟨?_,?_⟩
  · intro key rejection found
    exact ⟨rejection,by rw [same]; exact found,Succeeds.refl rejection⟩
  · intro key rejection missing found
    rw [same,missing] at found
    cases found

variable (account : LimitedAccount)

theorem History.refl : History account account := History.of_same rfl

theorem History.trans {first second third : LimitedAccount} (before : History first second) (after : History second third) :
    History first third := by
  refine ⟨?_,?_⟩
  · intro key rejection found
    obtain ⟨later,found_second,succeeds⟩ := before.kept key rejection found
    obtain ⟨last,found_third,succeeds_again⟩ := after.kept key later found_second
    exact ⟨last,found_third,succeeds.trans succeeds_again⟩
  · intro key rejection missing found
    cases second_found : second.rateLimitObservations.find key with
    | none => exact after.fresh key rejection second_found found
    | some between =>
      obtain ⟨last,found_third,succeeds⟩ := after.kept key between second_found
      rw [found] at found_third
      obtain rfl := Option.some.inj found_third
      exact lt_of_lt_of_le (before.fresh key between missing second_found) succeeds.revision

theorem History.revisionAt_le {before after : LimitedAccount} (history : History before after) (key : ObservationKey) :
    revisionAt before key ≤ revisionAt after key := by
  unfold revisionAt
  cases found : before.rateLimitObservations.find key with
  | none => simp
  | some rejection =>
    obtain ⟨later,found_after,succeeds⟩ := history.kept key rejection found
    rw [found_after]
    exact succeeds.revision

theorem recordRejection_history (key : String) (scopeId : Option String) (observation : Option Observed)
    (observedAt : ℚ) (sequence : Nat) (reason : RateLimitReason) :
    History account (recordRejection account key scopeId observation observedAt sequence reason) := by
  refine ⟨?_,?_⟩
  · intro other rejection found
    simp only [recordRejection,find_put]
    split
    · next here =>
      subst here
      refine ⟨_,rfl,?_,?_,?_⟩
      · simp [found]
      · intro scope
        simp only [found,Option.map_some,Option.getD_some,follows]
        exact (find_raiseGenerations _ _ scope).1
      · intro same
        simp [found] at same
    · exact ⟨rejection,found,Succeeds.refl rejection⟩
  · intro other rejection missing found
    simp only [recordRejection,find_put] at found
    split at found
    · obtain rfl := Option.some.inj found
      simp
    · rw [missing] at found
      cases found

theorem revisionAt_recordRejection (key : String) (scopeId : Option String) (observation : Option Observed)
    (observedAt : ℚ) (sequence : Nat) (reason : RateLimitReason) :
    revisionAt (recordRejection account key scopeId observation observedAt sequence reason) (getRateLimitObservationKey key scopeId) =
      revisionAt account (getRateLimitObservationKey key scopeId) + 1 := by
  simp [revisionAt,recordRejection]

theorem recordRejection_knows (key : String) (scopeId : Option String) (observation : Option Observed)
    (observedAt : ℚ) (sequence : Nat) (reason : RateLimitReason) :
    ∃ recorded, (recordRejection account key scopeId observation observedAt sequence reason).rateLimitObservations.find
        (getRateLimitObservationKey key scopeId) = some recorded ∧
      ∀ scope generation, (knownGenerations ((observation.bind Observed.receipts).getD account.receipts) scopeId).find scope =
        some generation → generation ≤ follows recorded scope := by
  refine ⟨_,(find_put _ _ _ _).trans (if_pos rfl),?_⟩
  intro scope generation known
  exact (find_raiseGenerations _ _ scope).2 generation known

theorem settleReceipt_succeeds (state : ResetState) (rejection : RateLimitObservation) (key : String) :
    (settleReceipt state rejection key).revision = rejection.revision ∧
      ∀ scope, follows rejection scope ≤ follows (settleReceipt state rejection key) scope := by
  unfold settleReceipt
  split
  · exact ⟨rfl,fun _ => le_refl _⟩
  · split
    · exact ⟨rfl,fun scope => (find_raiseGenerations _ _ scope).1⟩
    · exact ⟨rfl,fun _ => le_refl _⟩

theorem settleRejection_succeeds (state : ResetState) (readSequence : Nat) (rejection : RateLimitObservation) :
    Succeeds rejection (settleRejection state readSequence rejection) := by
  have settled : ∀ keys : List String, ∀ rejection,
      (keys.foldl (settleReceipt state) rejection).revision = rejection.revision ∧
        ∀ scope, follows rejection scope ≤ follows (keys.foldl (settleReceipt state) rejection) scope := by
    intro keys
    induction keys with
    | nil => exact fun rejection => ⟨rfl,fun _ => le_refl _⟩
    | cons key rest ih =>
      intro rejection
      obtain ⟨revision,grows⟩ := settleReceipt_succeeds state rejection key
      obtain ⟨same,more⟩ := ih (settleReceipt state rejection key)
      exact ⟨same.trans revision,fun scope => le_trans (grows scope) (more scope)⟩
  unfold settleRejection
  split
  · exact Succeeds.refl rejection
  · next unsettled =>
    obtain ⟨revision,grows⟩ := settled ((state.redemptions.keys ++ (state.lastRedemption.map Receipt.key).toList).eraseDups) rejection
    refine ⟨le_of_eq revision.symm,grows,?_⟩
    intro _ known
    exact absurd (Or.inl known) unsettled

theorem find_map_values {κ ν : Type} [DecidableEq κ] (m : OrderedMap κ ν) (f : ν → ν) (k : κ) :
    OrderedMap.find (m.map (fun entry => (entry.1,f entry.2))) k = (m.find k).map f := by
  induction m with
  | nil => rfl
  | cons entry rest ih =>
    rw [map_cons,find_cons,find_cons,ih]
    split <;> rfl

theorem settleReceiptBaselines_history (state : ResetState) (readSequence : Nat) :
    History account (settleReceiptBaselines account state readSequence) := by
  refine ⟨?_,?_⟩
  · intro key rejection found
    refine ⟨settleRejection state readSequence rejection,?_,settleRejection_succeeds state readSequence rejection⟩
    simp only [settleReceiptBaselines,find_map_values,found,Option.map_some]
  · intro key rejection missing found
    simp only [settleReceiptBaselines,find_map_values,missing,Option.map_none] at found
    cases found

theorem observeReceipt_history (scopeId : String) (receipt : Receipt) :
    History account (observeReceipt account scopeId receipt) := by
  unfold observeReceipt
  split <;> exact History.of_same rfl

section
variable {Account : Type} (request : Request Account)
variable (account : LimitedAccount)

theorem lift_history : History account (lift request account) := by
  have same : ∀ noted : LimitedAccount, ∀ limits, History account noted →
      History account (if noted.cooldownReason = some "rate-limit" then
        { noted with rateLimitResetTimes := limits,coolingDownUntil := none,cooldownReason := none }
      else { noted with rateLimitResetTimes := limits }) := by
    intro noted limits history
    split <;> exact history.trans (History.of_same rfl)
  unfold lift
  simp only
  cases found : account.rateLimitObservations.find request.watched.1 with
  | none => exact same account _ (History.refl account)
  | some rejection =>
    refine same { account with
      rateLimitObservations := account.rateLimitObservations.put request.watched.1 { rejection with liftedByReset := true } } _ ⟨?_,?_⟩
    · intro key other found_other
      simp only [find_put]
      split
      · next here =>
        subst here
        rw [found] at found_other
        obtain rfl := Option.some.inj found_other
        exact ⟨_,rfl,le_refl _,fun _ => le_refl _,fun _ known => ⟨known,fun _ => rfl⟩⟩
      · exact ⟨other,found_other,Succeeds.refl other⟩
    · intro key other missing found_other
      simp only [find_put] at found_other
      split at found_other
      · next here =>
        subst here
        rw [missing] at found
        cases found
      · rw [missing] at found_other
        cases found_other

theorem find_removeAll (keys : List QuotaKey) (limits : OrderedMap QuotaKey ℚ) (key : QuotaKey) (other : key ∉ keys) :
    (keys.foldl (fun limits key => limits.remove key) limits).find key = limits.find key := by
  induction keys generalizing limits with
  | nil => rfl
  | cons first rest ih =>
    rw [foldl_cons,ih _ (fun member => other (mem_cons_of_mem _ member)),find_remove,
      if_neg (by
        rintro rfl
        exact other mem_cons_self)]

theorem lift_limits : (lift request account).rateLimitResetTimes =
    request.deadlines.foldl (fun limits key => limits.remove key) account.rateLimitResetTimes := by
  unfold lift
  simp only
  cases account.rateLimitObservations.find request.watched.1 with
  | none => exact apply_ite LimitedAccount.rateLimitResetTimes _ _ _ |>.trans (ite_self _)
  | some rejection => exact apply_ite LimitedAccount.rateLimitResetTimes _ _ _ |>.trans (ite_self _)

theorem lift_deadline {key : QuotaKey} (other : key ∉ request.deadlines) :
    (lift request account).rateLimitResetTimes.find key = account.rateLimitResetTimes.find key := by
  rw [lift_limits,find_removeAll _ _ _ other]
end

section
variable {Account Call : Type}

def Rejection.key (rejection : Rejection Account) : ObservationKey := getRateLimitObservationKey rejection.quotaKey rejection.scopeId

def Remembered (accounts : Account → LimitedAccount) (rejection : Rejection Account) : Prop :=
  ∃ observation, (accounts rejection.account).rateLimitObservations.find rejection.key = some observation ∧
    ∀ scope generation, rejection.known.find scope = some generation → generation ≤ follows observation scope

/-- A rejection's parts fit together. -/
structure WellFormed (rejection : Rejection Account) : Prop where
  own : ∀ scope, rejection.scopeId = some scope → ∀ other generation, rejection.known.find other = some generation → other = scope
  named : rejection.deadline = .quota rejection.quotaKey ∨ ∃ workspaceId, rejection.deadline = .workspace workspaceId rejection.quotaKey

theorem Remembered.of_history {before after : Account → LimitedAccount} {rejection : Rejection Account}
    (remembered : Remembered before rejection) (history : History (before rejection.account) (after rejection.account)) :
    Remembered after rejection := by
  obtain ⟨observation,found,knows⟩ := remembered
  obtain ⟨later,found_later,succeeds⟩ := history.kept _ _ found
  exact ⟨later,found_later,fun scope generation known => le_trans (knows scope generation known) (succeeds.follows scope)⟩

/-- A state that follows another: histories go on, and each new rejection raised its key's revision. -/
structure Grows (s s' : State Account Call) (added : List (Rejection Account)) : Prop where
  history : ∀ a, History (s.accounts a) (s'.accounts a)
  recorded : s'.recorded = s.recorded ++ added
  sequence : s.rejectionSequence ≤ s'.rejectionSequence
  sequences : added.map Rejection.sequence = List.range' (s.rejectionSequence + 1) (s'.rejectionSequence - s.rejectionSequence)
  remembered : ∀ rejection ∈ added, Remembered s'.accounts rejection
  wellFormed : ∀ rejection ∈ added, WellFormed rejection
  raised : ∀ rejection ∈ added,
    revisionAt (s.accounts rejection.account) rejection.key < revisionAt (s'.accounts rejection.account) rejection.key

theorem Grows.of_history {s s' : State Account Call} (history : ∀ a, History (s.accounts a) (s'.accounts a))
    (recorded : s'.recorded = s.recorded) (sequence : s'.rejectionSequence = s.rejectionSequence) : Grows s s' [] where
  history := history
  recorded := by rw [recorded,append_nil]
  sequence := le_of_eq sequence.symm
  sequences := by simp [sequence]
  remembered _ member := absurd member not_mem_nil
  wellFormed _ member := absurd member not_mem_nil
  raised _ member := absurd member not_mem_nil

theorem Grows.trans {first second third : State Account Call} {added more : List (Rejection Account)}
    (before : Grows first second added) (after : Grows second third more) : Grows first third (added ++ more) := by
  refine ⟨fun a => (before.history a).trans (after.history a),?_,le_trans before.sequence after.sequence,?_,?_,?_,?_⟩
  · rw [after.recorded,before.recorded,append_assoc]
  · rw [map_append,before.sequences,after.sequences]
    have low := before.sequence
    have high := after.sequence
    have between : second.rejectionSequence + 1 = first.rejectionSequence + 1 + (second.rejectionSequence - first.rejectionSequence) := by
      omega
    rw [between,List.range'_append_1]
    congr 1
    omega
  · intro rejection member
    rcases mem_append.mp member with old | new
    · exact (before.remembered rejection old).of_history (after.history _)
    · exact after.remembered rejection new
  · intro rejection member
    rcases mem_append.mp member with old | new
    · exact before.wellFormed rejection old
    · exact after.wellFormed rejection new
  · intro rejection member
    rcases mem_append.mp member with old | new
    · exact lt_of_lt_of_le (before.raised rejection old) ((after.history _).revisionAt_le _)
    · exact lt_of_le_of_lt ((before.history _).revisionAt_le _) (after.raised rejection new)

/-- A state in which more rejections stand, and no call has gone on. -/
structure Records (s s' : State Account Call) (added : List (Rejection Account)) : Prop where
  grows : Grows s s' added
  standing : s'.standing = s.standing ++ added
  lifted : s'.lifted = s.lifted
  phase : s'.phase = s.phase

theorem Records.refl (s : State Account Call) : Records s s [] :=
  ⟨Grows.of_history (fun a => History.refl (s.accounts a)) rfl rfl,(append_nil s.standing).symm,rfl,rfl⟩

theorem Records.trans {first second third : State Account Call} {added more : List (Rejection Account)}
    (before : Records first second added) (after : Records second third more) : Records first third (added ++ more) := by
  refine ⟨before.grows.trans after.grows,?_,after.lifted.trans before.lifted,after.phase.trans before.phase⟩
  rw [after.standing,before.standing,append_assoc]
end

section
variable {Account Call : Type} [DecidableEq Account] [DecidableEq Call]
variable (s : State Account Call)

@[simp] theorem State.goto_accounts (t : Call) (phase : Phase Call) : (s.goto t phase).accounts = s.accounts := rfl

theorem State.goto_phase (t u : Call) (phase : Phase Call) :
    (s.goto t phase).phase u = if u = t then phase else s.phase u := by
  simp [State.goto,Function.update_apply]

theorem State.setAccount_accounts (a b : Account) (account : LimitedAccount) :
    (s.setAccount a account).accounts b = if b = a then account else s.accounts b := by
  simp [State.setAccount,Function.update_apply]

theorem setAccount_history {a : Account} {account : LimitedAccount} (history : History (s.accounts a) account)
    (b : Account) : History (s.accounts b) ((s.setAccount a account).accounts b) := by
  rw [State.setAccount_accounts]
  split
  · next here =>
    subst here
    exact history
  · exact History.refl _

theorem setAccount_records {a : Account} {account : LimitedAccount} (history : History (s.accounts a) account) :
    Records s (s.setAccount a account) [] :=
  ⟨Grows.of_history (setAccount_history s history) rfl rfl,(append_nil s.standing).symm,rfl,rfl⟩

theorem knownGenerations_scoped (known : Receipts) {scope other : String} {generation : Nat}
    (found : (knownGenerations known (some scope)).find other = some generation) : other = scope := by
  simp only [knownGenerations,find_cons,find_nil] at found
  split at found
  · next here => exact here.symm
  · cases found

theorem recordKey_records (recording : Recording Account) (s : State Account Call) (key : String) :
    ∃ rejection, Records s (recordKey recording s key) [rejection] := by
  refine ⟨_,⟨?_,rfl,?_,?_,?_,?_,?_⟩,rfl,rfl,rfl⟩
  · intro a
    refine setAccount_history s ?_ a
    have raised : History (s.accounts recording.account)
        { s.accounts recording.account with
          rateLimitResetTimes := raiseDeadline (s.accounts recording.account).rateLimitResetTimes (deadlineKey recording.observation key)
            (recording.now + retryTime recording.retryAfterMs) } := History.of_same rfl
    exact raised.trans (recordRejection_history _ _ _ _ _ _ _)
  · exact Nat.le_succ _
  · simp [recordKey,limitKey,State.setAccount]
  · intro rejection member
    obtain rfl := mem_singleton.mp member
    simp only [Remembered,recordKey,Rejection.key,State.setAccount,Function.update_self,limitKey]
    exact recordRejection_knows _ _ _ _ _ _ _
  · intro rejection member
    obtain rfl := mem_singleton.mp member
    refine ⟨?_,?_⟩
    · intro scope named other generation found
      simp only at named found
      rw [named] at found
      exact knownGenerations_scoped _ found
    · simp only [deadlineKey]
      split
      · exact .inr ⟨_,rfl⟩
      · exact .inl rfl
  · intro rejection member
    obtain rfl := mem_singleton.mp member
    simp only [recordKey,Rejection.key,State.setAccount,Function.update_self,limitKey,revisionAt_recordRejection]
    exact Nat.lt_succ_self _

theorem record_records (recording : Recording Account) (s : State Account Call) : ∃ added, Records s (record recording s) added := by
  have every : ∀ keys : List String, ∀ s : State Account Call, ∃ added, Records s (keys.foldl (recordKey recording) s) added := by
    intro keys
    induction keys with
    | nil => exact fun s => ⟨[],Records.refl s⟩
    | cons key rest ih =>
      intro s
      obtain ⟨rejection,first⟩ := recordKey_records recording s key
      obtain ⟨added,later⟩ := ih (recordKey recording s key)
      exact ⟨[rejection] ++ added,first.trans later⟩
  obtain ⟨added,limited⟩ := every (limitedKeys recording.family recording.reason recording.model) s
  refine ⟨added ++ [],limited.trans ?_⟩
  exact setAccount_records _ (History.of_same rfl)
end

end CodexMultiAuth.ConfirmedReset
