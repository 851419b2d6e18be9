import CodexMultiAuth.ResetHistory
import CodexMultiAuth.Runs

/-!
A reset never lifts a rejection that came after its receipt: a call that waits
for its permission knows the history of its account as long as no revision has
changed, and lifts nothing once one has.
-/
namespace CodexMultiAuth.ConfirmedReset
open List Function
set_option linter.unusedSectionVars false

section
variable {Account Call : Type} [DecidableEq Account] [DecidableEq Call]

/-- The rejections of a key are readable and came before the receipt. -/
def Precedes (account : LimitedAccount) (key : ObservationKey) (scopeId : String) (receipt : Receipt) : Prop :=
  ∀ observation, account.rateLimitObservations.find key = some observation →
    observation.receiptReadFailed = false ∧ ∀ generation, receipt.generation = some generation → follows observation scopeId < generation

variable {receipt : Receipt}
variable {key : ObservationKey}

theorem precedes_of_judged {account : LimitedAccount} {scopeId : String} {now : ℚ}
    (earlier : ¬ rejectedAfterReceipt receipt scopeId now (account.rateLimitObservations.find key) = true) :
    Precedes account key scopeId receipt := by
  intro observation found
  rw [found] at earlier
  unfold rejectedAfterReceipt at earlier
  simp only [Option.any_some,Option.bind_some] at earlier
  split at earlier
  · exact absurd rfl earlier
  · next readable =>
    refine ⟨by simpa using readable,?_⟩
    intro generation modern
    rw [modern] at earlier
    simpa [follows] using earlier

/-- A permission read starts at the revisions and the count that the state has. -/
structure Opens (s : State Account Call) (request : Request Account) (receipt : Receipt) (startedRevision : Nat × Nat)
    (startedSequence : Nat) : Prop where
  revision : startedRevision = revision request (s.accounts request.account)
  sequence : startedSequence = s.rejectionSequence
  scope : receipt.key = request.scope.id
  own : Precedes (s.accounts request.account) request.watched.1 request.scope.id receipt
  unscoped : Precedes (s.accounts request.account) request.watched.2 request.scope.id receipt

variable (requests : Call → Request Account)

/-- A call goes on: no rejection is forgotten, the other calls stay where they
    are, and a permission read starts with what is known. -/
structure Proceeds (s s' : State Account Call) (t : Call) : Prop where
  grows : Grows s s' []
  others : ∀ u, u ≠ t → s'.phase u = s.phase u
  starts : ∀ receipt startedRevision startedAt startedSequence,
    s'.phase t = .readingPermission receipt startedRevision startedAt startedSequence →
      Opens s' (requests t) receipt startedRevision startedSequence

/-- No deadline is lifted. -/
structure Rests (s s' : State Account Call) : Prop where
  limits : ∀ a, (s'.accounts a).rateLimitResetTimes = (s.accounts a).rateLimitResetTimes
  standing : s'.standing = s.standing
  lifted : s'.lifted = s.lifted

/-- The call got its permission, and lifts the family's deadlines. -/
structure Lifts (s s' : State Account Call) (t : Call) (receipt : Receipt) (startedRevision : Nat × Nat) (startedAt : ℚ)
    (startedSequence : Nat) : Prop where
  waited : s.phase t = .readingPermission receipt startedRevision startedAt startedSequence
  unchanged : revision (requests t) (s.accounts (requests t).account) = startedRevision
  accounts : s'.accounts = Function.update s.accounts (requests t).account (lift (requests t) (s.accounts (requests t).account))
  standing : s'.standing = s.standing.filter (fun rejection => !liftable (requests t) rejection)
  lifted : s'.lifted = s.lifted ++ (s.standing.filter (liftable (requests t))).map (fun rejection => (receipt.generation,rejection))

variable {requests}
variable {s s' : State Account Call}

theorem Proceeds.of_goto {t : Call} {phase : Phase Call}
    (history : ∀ a, History (s.accounts a) (s'.accounts a)) (recorded : s'.recorded = s.recorded)
    (sequence : s'.rejectionSequence = s.rejectionSequence) (phases : ∀ u, s'.phase u = if u = t then phase else s.phase u)
    (starts : ∀ receipt startedRevision startedAt startedSequence,
      phase = .readingPermission receipt startedRevision startedAt startedSequence →
        Opens s' (requests t) receipt startedRevision startedSequence) : Proceeds requests s s' t := by
  refine ⟨Grows.of_history history recorded sequence,?_,?_⟩
  · intro u other
    rw [phases,if_neg other]
  · intro receipt startedRevision startedAt startedSequence reading
    rw [phases,if_pos rfl] at reading
    exact starts receipt startedRevision startedAt startedSequence reading

theorem goto_proceeds (s : State Account Call) (t : Call) {phase : Phase Call}
    (elsewhere : ∀ receipt startedRevision startedAt startedSequence,
      phase ≠ .readingPermission receipt startedRevision startedAt startedSequence) :
    Proceeds requests s (s.goto t phase) t ∧ Rests s (s.goto t phase) := by
  refine ⟨Proceeds.of_goto (fun _ => History.refl _) rfl rfl (fun u => State.goto_phase s t u phase) ?_,fun _ => rfl,rfl,rfl⟩
  intro receipt startedRevision startedAt startedSequence reading
  exact absurd reading (elsewhere _ _ _ _)

theorem begin_proceeds (s : State Account Call) (t : Call) (moment : Moment) :
    Proceeds requests s (begin requests s t moment) t ∧ Rests s (begin requests s t moment) := by
  unfold begin
  simp only
  split
  · exact goto_proceeds s t (by simp)
  · split
    · exact goto_proceeds s t (by simp)
    · exact goto_proceeds s t (by simp)

theorem observeReceipt_observations (account : LimitedAccount) (scopeId : String) (receipt : Receipt) :
    (observeReceipt account scopeId receipt).rateLimitObservations = account.rateLimitObservations ∧
      (observeReceipt account scopeId receipt).rateLimitResetTimes = account.rateLimitResetTimes := by
  unfold observeReceipt
  split <;> exact ⟨rfl,rfl⟩

theorem install_proceeds (s : State Account Call) (t : Call) (moment : Moment)
    (scope : receipt.key = (requests t).scope.id)
    (own : Precedes (s.accounts (requests t).account) (requests t).watched.1 (requests t).scope.id receipt)
    (unscoped : Precedes (s.accounts (requests t).account) (requests t).watched.2 (requests t).scope.id receipt) :
    Proceeds requests s (install requests s t moment receipt) t ∧ Rests s (install requests s t moment receipt) := by
  have noted : ∀ account : LimitedAccount, ∀ scopeId,
      (if receipt.generation.isSome then observeReceipt account scopeId receipt else account).rateLimitObservations =
          account.rateLimitObservations ∧
        (if receipt.generation.isSome then observeReceipt account scopeId receipt else account).rateLimitResetTimes =
          account.rateLimitResetTimes := by
    intro account scopeId
    split
    · exact observeReceipt_observations account scopeId receipt
    · exact ⟨rfl,rfl⟩
  obtain ⟨observations,limits⟩ := noted (s.accounts (requests t).account) (requests t).scope.id
  have account : (install requests s t moment receipt).accounts (requests t).account =
      if receipt.generation.isSome then observeReceipt (s.accounts (requests t).account) (requests t).scope.id receipt
      else s.accounts (requests t).account := by
    simp [install,State.setAccount,State.goto]
  refine ⟨Proceeds.of_goto ?_ rfl rfl (fun u => State.goto_phase _ t u _) ?_,?_,rfl,rfl⟩
  · exact setAccount_history s (History.of_same observations)
  · intro reading startedRevision startedAt startedSequence same
    cases same
    refine ⟨?_,rfl,scope,?_,?_⟩
    · rw [account]
    · unfold Precedes
      rw [account,observations]
      exact own
    · unfold Precedes
      rw [account,observations]
      exact unscoped
  · intro a
    simp only [install,State.goto,State.setAccount,update_apply]
    split
    · next here =>
      subst here
      exact limits
    · rfl

variable (requests) in
theorem judge_proceeds (s : State Account Call) (t : Call) (moment : Moment) (state : Option ResetState) :
    Proceeds requests s (judge requests s t moment state) t ∧ Rests s (judge requests s t moment state) := by
  unfold judge
  simp only
  split
  · exact goto_proceeds s t (by simp)
  · split
    · exact goto_proceeds s t (by simp)
    · next receipt _ =>
      split
      · exact goto_proceeds s t (by simp)
      · next redeemed =>
        have scope : receipt.key = (requests t).scope.id := by
          by_contra other
          exact redeemed (.inr (.inr other))
        split
        · exact goto_proceeds s t (by simp)
        · next judged =>
          split
          · exact goto_proceeds s t (by simp)
          · refine install_proceeds s t moment scope ?_ ?_
            · exact precedes_of_judged (fun later => judged (.inr (.inl later)))
            · exact precedes_of_judged (fun later => judged (.inr (.inr (.inl later))))

theorem receive_proceeds (s : State Account Call) (t : Call) (moment : Moment) (read : Option ReceiptRead) :
    Proceeds requests s (receive requests s t moment read) t ∧ Rests s (receive requests s t moment read) := by
  unfold receive
  simp only
  split
  · exact judge_proceeds requests s t moment none
  · next read =>
    obtain ⟨proceeds,rests⟩ := judge_proceeds requests (s.setAccount (requests t).account
      (settleReceiptBaselines (s.accounts (requests t).account) read.state read.sequence)) t moment (some read.state)
    have settled := (setAccount_records s (settleReceiptBaselines_history (s.accounts (requests t).account) read.state read.sequence)).grows
    refine ⟨⟨settled.trans proceeds.grows,proceeds.others,proceeds.starts⟩,?_,rests.standing,rests.lifted⟩
    intro a
    rw [rests.limits,State.setAccount_accounts]
    split
    · next here =>
      subst here
      rfl
    · rfl

variable {startedRevision : Nat × Nat} {startedSequence : Nat}

theorem permit_proceeds (s : State Account Call) (t : Call) (moment : Moment) (snapshot : Option ResetSnapshot)
    {startedAt : ℚ}
    (waited : s.phase t = .readingPermission receipt startedRevision startedAt startedSequence) :
    Proceeds requests s (permit requests s t moment snapshot receipt startedRevision startedAt) t ∧
      (Rests s (permit requests s t moment snapshot receipt startedRevision startedAt) ∨
        Lifts requests s (permit requests s t moment snapshot receipt startedRevision startedAt) t receipt startedRevision startedAt
          startedSequence) := by
  have ends : ∀ recovered operations,
      Proceeds requests s { s.goto t (.done recovered) with operations := operations } t ∧
        Rests s { s.goto t (.done recovered) with operations := operations } := by
    intro recovered operations
    exact ⟨Proceeds.of_goto (fun _ => History.refl _) rfl rfl (fun u => State.goto_phase s t u _) (by simp),fun _ => rfl,rfl,rfl⟩
  unfold permit
  simp only
  split
  · exact ⟨(ends _ _).1,.inl (ends _ _).2⟩
  · split
    · exact ⟨(ends _ _).1,.inl (ends _ _).2⟩
    · split
      · exact ⟨(ends _ _).1,.inl (ends _ _).2⟩
      · next permitted =>
        have unchanged : revision (requests t) (s.accounts (requests t).account) = startedRevision := by
          by_contra changed
          exact permitted (.inl changed)
        generalize (if (s.accounts (requests t).account).rateLimitObservations = [] then
          (s.accounts (requests t).account).lastRateLimitReason
          else (rejectionForScope (requests t) (s.accounts (requests t).account)).map RateLimitObservation.reason) = reason
        split
        · exact ⟨(ends _ _).1,.inl (ends _ _).2⟩
        · refine ⟨Proceeds.of_goto ?_ rfl rfl (fun u => State.goto_phase _ t u _) (by simp),.inr ⟨waited,unchanged,rfl,rfl,rfl⟩⟩
          exact setAccount_history s (lift_history (requests t) _)

theorem share_proceeds (s : State Account Call) (t owner : Call) (moment : Moment) (waits : s.phase t = .sharing owner) :
    Proceeds requests s (share requests s t owner moment) t ∧ Rests s (share requests s t owner moment) := by
  unfold share
  simp only
  split
  · exact goto_proceeds s t (by simp)
  · refine ⟨⟨Grows.of_history (fun _ => History.refl _) rfl rfl,fun _ _ => rfl,?_⟩,fun _ => rfl,rfl,rfl⟩
    intro receipt startedRevision startedAt startedSequence reading
    rw [waits] at reading
    cases reading

variable (requests) in
theorem reconcile_proceeds (s : State Account Call) (t : Call) (moment : Moment) (read : Option ReceiptRead)
    (snapshot : Option ResetSnapshot) :
    Proceeds requests s (reconcile requests s t moment read snapshot) t ∧
      (Rests s (reconcile requests s t moment read snapshot) ∨
        ∃ receipt startedRevision startedAt startedSequence,
          Lifts requests s (reconcile requests s t moment read snapshot) t receipt startedRevision startedAt startedSequence) := by
  unfold reconcile
  split
  · exact (begin_proceeds s t moment).imp_right .inl
  · exact (receive_proceeds s t moment read).imp_right .inl
  · next owner waits => exact (share_proceeds s t owner moment waits).imp_right .inl
  · next receipt startedRevision startedAt startedSequence waited =>
    refine (permit_proceeds s t moment snapshot waited).imp_right ?_
    rintro (rests | lifts)
    · exact .inl rests
    · exact .inr ⟨receipt,startedRevision,startedAt,startedSequence,lifts⟩
  · next recovered finished =>
    refine ⟨⟨Grows.of_history (fun _ => History.refl _) rfl rfl,fun _ _ => rfl,?_⟩,.inl ⟨fun _ => rfl,rfl,rfl⟩⟩
    intro receipt startedRevision startedAt startedSequence reading
    rw [finished] at reading
    cases reading

/-- As long as the key has the revision that a permission read started with, its
    rejections came before the receipt, and none was recorded since. -/
structure KeyGuard (s : State Account Call) (a : Account) (key : ObservationKey) (scopeId : String) (receipt : Receipt)
    (started startedSequence : Nat) : Prop where
  passed : started ≤ revisionAt (s.accounts a) key
  precedes : revisionAt (s.accounts a) key = started → Precedes (s.accounts a) key scopeId receipt
  earlier : revisionAt (s.accounts a) key = started → ∀ rejection ∈ s.recorded, rejection.account = a → rejection.key = key →
    rejection.sequence ≤ startedSequence

theorem Precedes.of_history {before after : LimitedAccount} {scopeId : String}
    (precedes : Precedes before key scopeId receipt) (history : History before after)
    (same : revisionAt after key = revisionAt before key) : Precedes after key scopeId receipt := by
  intro later found_later
  cases found : before.rateLimitObservations.find key with
  | none =>
    have raised := history.fresh key later found found_later
    simp only [revisionAt,found,found_later,Option.map_some,Option.map_none,Option.getD_some,Option.getD_none] at same
    omega
  | some observation =>
    obtain ⟨again,found_again,succeeds⟩ := history.kept key observation found
    rw [found_later] at found_again
    obtain rfl := Option.some.inj found_again
    simp only [revisionAt,found,found_later,Option.map_some,Option.getD_some] at same
    obtain ⟨readable,knows⟩ := precedes observation found
    obtain ⟨readable_later,follows_later⟩ := succeeds.same same readable
    refine ⟨readable_later,?_⟩
    intro generation modern
    rw [follows_later]
    exact knows generation modern

variable {added : List (Rejection Account)}

theorem KeyGuard.grows {a : Account} {scopeId : String}
    {started startedSequence : Nat} (guard : KeyGuard s a key scopeId receipt started startedSequence)
    (grows : Grows s s' added) : KeyGuard s' a key scopeId receipt started startedSequence := by
  have low := guard.passed
  have high := (grows.history a).revisionAt_le key
  refine ⟨le_trans low high,?_,?_⟩
  · intro same
    exact (guard.precedes (by omega)).of_history (grows.history a) (by omega)
  · intro same rejection member here at_key
    rw [grows.recorded] at member
    rcases mem_append.mp member with old | new
    · exact guard.earlier (by omega) rejection old here at_key
    · have raised := grows.raised rejection new
      rw [here,at_key] at raised
      omega

/-- Both keys of the request are guarded. -/
structure Guard (s : State Account Call) (request : Request Account) (receipt : Receipt) (startedRevision : Nat × Nat)
    (startedSequence : Nat) : Prop where
  scope : receipt.key = request.scope.id
  own : KeyGuard s request.account request.watched.1 request.scope.id receipt startedRevision.1 startedSequence
  unscoped : KeyGuard s request.account request.watched.2 request.scope.id receipt startedRevision.2 startedSequence

theorem Guard.grows {request : Request Account}
    (guard : Guard s request receipt startedRevision startedSequence)
    (grows : Grows s s' added) : Guard s' request receipt startedRevision startedSequence :=
  ⟨guard.scope,guard.own.grows grows,guard.unscoped.grows grows⟩

theorem Opens.guard {request : Request Account}
    (opens : Opens s request receipt startedRevision startedSequence)
    (counted : ∀ rejection ∈ s.recorded, rejection.sequence ≤ s.rejectionSequence) :
    Guard s request receipt startedRevision startedSequence := by
  have so_far : ∀ rejection ∈ s.recorded, rejection.sequence ≤ startedSequence := by
    rw [opens.sequence]
    exact counted
  refine ⟨opens.scope,⟨?_,fun _ => opens.own,fun _ rejection member _ _ => so_far rejection member⟩,
    ⟨?_,fun _ => opens.unscoped,fun _ rejection member _ _ => so_far rejection member⟩⟩
  · rw [opens.revision]
    exact le_refl _
  · rw [opens.revision]
    exact le_refl _

/-- The rejections that were recorded, each either standing or lifted once. -/
structure Remembers (s : State Account Call) : Prop where
  remembered : ∀ rejection ∈ s.recorded, Remembered s.accounts rejection
  wellFormed : ∀ rejection ∈ s.recorded, WellFormed rejection
  counted : ∀ rejection ∈ s.recorded, rejection.sequence ≤ s.rejectionSequence
  distinct : (s.recorded.map Rejection.sequence).Nodup
  parts : (s.standing ++ s.lifted.map Prod.snd).Perm s.recorded

variable (requests) in
structure Inv (s : State Account Call) : Prop where
  remembers : Remembers s
  waits : ∀ t receipt startedRevision startedAt startedSequence,
    s.phase t = .readingPermission receipt startedRevision startedAt startedSequence →
      Guard s (requests t) receipt startedRevision startedSequence

theorem Remembers.grows (remembers : Remembers s) (grows : Grows s s' added)
    (parts : (s'.standing ++ s'.lifted.map Prod.snd).Perm s'.recorded) : Remembers s' := by
  have sequences : ∀ rejection ∈ added, s.rejectionSequence < rejection.sequence ∧ rejection.sequence ≤ s'.rejectionSequence := by
    intro rejection member
    have among : rejection.sequence ∈ added.map Rejection.sequence := mem_map_of_mem member
    rw [grows.sequences,mem_range'_1] at among
    have grown := grows.sequence
    omega
  refine ⟨?_,?_,?_,?_,parts⟩
  · intro rejection member
    rw [grows.recorded] at member
    rcases mem_append.mp member with old | new
    · exact (remembers.remembered rejection old).of_history (grows.history _)
    · exact grows.remembered rejection new
  · intro rejection member
    rw [grows.recorded] at member
    rcases mem_append.mp member with old | new
    · exact remembers.wellFormed rejection old
    · exact grows.wellFormed rejection new
  · intro rejection member
    rw [grows.recorded] at member
    rcases mem_append.mp member with old | new
    · exact le_trans (remembers.counted rejection old) grows.sequence
    · exact (sequences rejection new).2
  · rw [grows.recorded,map_append]
    refine List.Nodup.append remembers.distinct ?_ ?_
    · rw [grows.sequences]
      exact nodup_range'
    · intro sequence old new
      obtain ⟨before,member,rfl⟩ := mem_map.mp old
      obtain ⟨after,member_after,same⟩ := mem_map.mp new
      have low := remembers.counted before member
      have high := (sequences after member_after).1
      omega

theorem Inv.records (inv : Inv requests s) (records : Records s s' added) :
    Inv requests s' := by
  refine ⟨inv.remembers.grows records.grows ?_,?_⟩
  · rw [records.standing,records.lifted,records.grows.recorded]
    refine List.Perm.trans ?_ (inv.remembers.parts.append_right added)
    rw [append_assoc,append_assoc]
    exact perm_append_comm.append_left s.standing
  · intro t receipt startedRevision startedAt startedSequence reading
    rw [records.phase] at reading
    exact (inv.waits t receipt startedRevision startedAt startedSequence reading).grows records.grows

theorem Inv.reconcile (inv : Inv requests s) (t : Call) (moment : Moment) (read : Option ReceiptRead)
    (snapshot : Option ResetSnapshot) : Inv requests (reconcile requests s t moment read snapshot) := by
  obtain ⟨proceeds,outcome⟩ := reconcile_proceeds requests s t moment read snapshot
  have recorded := proceeds.grows.recorded
  rw [append_nil] at recorded
  have remembers : Remembers (ConfirmedReset.reconcile requests s t moment read snapshot) := by
    refine inv.remembers.grows proceeds.grows ?_
    rw [recorded]
    rcases outcome with rests | ⟨receipt,startedRevision,startedAt,startedSequence,lifts⟩
    · rw [rests.standing,rests.lifted]
      exact inv.remembers.parts
    · refine List.Perm.trans ?_ inv.remembers.parts
      have names : ((s.standing.filter (liftable (requests t))).map (fun rejection => (receipt.generation,rejection))).map Prod.snd =
          s.standing.filter (liftable (requests t)) := by
        simp [map_map,comp_def]
      rw [lifts.standing,lifts.lifted,map_append,names]
      have both := filter_append_perm (fun rejection => liftable (requests t) rejection) s.standing
      refine List.Perm.trans ?_ (both.append_right (s.lifted.map Prod.snd))
      refine List.Perm.trans ?_ (perm_append_comm.append_right (s.lifted.map Prod.snd))
      rw [append_assoc]
      exact perm_append_comm.append_left _
  refine ⟨remembers,?_⟩
  intro u receipt startedRevision startedAt startedSequence reading
  by_cases here : u = t
  · subst here
    exact (proceeds.starts receipt startedRevision startedAt startedSequence reading).guard remembers.counted
  · rw [proceeds.others u here] at reading
    exact (inv.waits u receipt startedRevision startedAt startedSequence reading).grows proceeds.grows

theorem step_inv (s : State Account Call) (action : Action Account Call) (enabled : Enabled s action) (inv : Inv requests s) :
    Inv requests (step requests s action) := by
  cases action with
  | record recording =>
    obtain ⟨added,records⟩ := record_records recording s
    exact inv.records records
  | observe a scopeId receipt => exact inv.records (setAccount_records s (observeReceipt_history (s.accounts a) scopeId receipt))
  | settle a read => exact inv.records (setAccount_records s (settleReceiptBaselines_history (s.accounts a) read.state read.sequence))
  | reconcile t moment read snapshot => exact inv.reconcile t moment read snapshot
  | change a changed => exact inv.records (setAccount_records s (History.of_same enabled.1))

theorem Start.inv (start : Start s) : Inv requests s := by
  refine ⟨⟨?_,?_,?_,?_,?_⟩,?_⟩
  · simp [start.recorded]
  · simp [start.recorded]
  · simp [start.recorded]
  · simp [start.recorded]
  · simp [start.recorded,start.standing,start.lifted]
  · intro t receipt startedRevision startedAt startedSequence reading
    rw [start.phase] at reading
    cases reading

/-! ### Newer rejections -/

/-- The request's receipt came after the rejection: the rejection knew only older
    receipts of the scope, and if it watches the scope it was recorded before the
    permission read began. -/
structure OlderThan (rejection : Rejection Account) (request : Request Account) (receipt : Receipt) (startedSequence : Nat) : Prop where
  scope : receipt.key = request.scope.id
  known : ∀ generation, receipt.generation = some generation →
    ∀ known, rejection.known.find request.scope.id = some known → known < generation
  before : rejection.scopeId = none ∨ rejection.scopeId = some request.scope.id → rejection.sequence ≤ startedSequence

theorem lifts_older {t : Call} {startedAt : ℚ}
    (inv : Inv requests s) (lifts : Lifts requests s s' t receipt startedRevision startedAt startedSequence)
    {rejection : Rejection Account} (member : rejection ∈ s.recorded) (liftable : liftable (requests t) rejection = true) :
    OlderThan rejection (requests t) receipt startedSequence := by
  have guard := inv.waits t receipt startedRevision startedAt startedSequence lifts.waited
  obtain ⟨own_revision,unscoped_revision⟩ := Prod.mk.inj lifts.unchanged
  simp only [ConfirmedReset.liftable,Bool.and_eq_true,decide_eq_true_eq,contains_iff_mem,Request.deadlines,mem_cons,
    not_mem_nil,or_false] at liftable
  obtain ⟨same_account,deadline⟩ := liftable
  have family : rejection.quotaKey = (requests t).family_key := by
    rcases (inv.remembers.wellFormed rejection member).named with named | ⟨workspaceId,named⟩
    · rw [named] at deadline
      simpa using deadline
    · rw [named] at deadline
      simp only [reduceCtorEq,QuotaKey.workspace.injEq,false_or] at deadline
      exact deadline.2
  obtain ⟨observation,found,knows⟩ := inv.remembers.remembered rejection member
  rw [same_account] at found
  have watched : rejection.scopeId = none ∨ rejection.scopeId = some (requests t).scope.id →
      (∀ generation, receipt.generation = some generation → follows observation (requests t).scope.id < generation) ∧
        rejection.sequence ≤ startedSequence := by
    rintro (unscoped | own)
    · have at_key : rejection.key = (requests t).watched.2 := by
        simp [Rejection.key,Request.watched,unscoped,family]
      rw [at_key] at found
      exact ⟨(guard.unscoped.precedes unscoped_revision observation found).2,
        guard.unscoped.earlier unscoped_revision rejection member same_account at_key⟩
    · have at_key : rejection.key = (requests t).watched.1 := by
        simp [Rejection.key,Request.watched,own,family]
      rw [at_key] at found
      exact ⟨(guard.own.precedes own_revision observation found).2,
        guard.own.earlier own_revision rejection member same_account at_key⟩
  refine ⟨guard.scope,?_,fun concerned => (watched concerned).2⟩
  intro generation modern known holds
  have concerned : rejection.scopeId = none ∨ rejection.scopeId = some (requests t).scope.id := by
    cases scope : rejection.scopeId with
    | none => exact .inl rfl
    | some scopeId =>
      right
      rw [(inv.remembers.wellFormed rejection member).own scopeId scope _ _ holds]
  exact lt_of_le_of_lt (knows _ _ holds) ((watched concerned).1 generation modern)

/-- In every reachable state, a step of a call changes the deadline of a recorded
    rejection only with a receipt that came after the rejection; and no rejection
    is ever lifted twice. -/
theorem resets_lift_older (requests : Call → Request Account) {start s : State Account Call} (starts : Start start)
    (run : Runs.Run (step requests) Enabled start s) :
    (∀ t moment read snapshot, ∀ rejection ∈ s.recorded,
      ((reconcile requests s t moment read snapshot).accounts rejection.account).rateLimitResetTimes.find rejection.deadline ≠
        (s.accounts rejection.account).rateLimitResetTimes.find rejection.deadline →
      ∃ receipt startedRevision startedAt startedSequence,
        s.phase t = .readingPermission receipt startedRevision startedAt startedSequence ∧
          OlderThan rejection (requests t) receipt startedSequence ∧
          rejection ∈ (reconcile requests s t moment read snapshot).lifted.map Prod.snd) ∧
    (s.lifted.map (fun entry => entry.2.sequence)).Nodup ∧ (s.recorded.map Rejection.sequence).Nodup := by
  have inv : Inv requests s := run.invariant step_inv starts.inv
  have distinct : ((s.standing ++ s.lifted.map Prod.snd).map Rejection.sequence).Nodup :=
    (inv.remembers.parts.map Rejection.sequence).nodup_iff.mpr inv.remembers.distinct
  refine ⟨?_,?_,inv.remembers.distinct⟩
  · intro t moment read snapshot rejection member changed
    rcases (reconcile_proceeds requests s t moment read snapshot).2 with
      rests | ⟨receipt,startedRevision,startedAt,startedSequence,lifts⟩
    · rw [rests.limits] at changed
      exact absurd rfl changed
    · have here : rejection.account = (requests t).account := by
        by_contra elsewhere
        rw [lifts.accounts,update_of_ne elsewhere] at changed
        exact changed rfl
      have deadline : rejection.deadline ∈ (requests t).deadlines := by
        by_contra other
        rw [lifts.accounts,here,update_self,lift_deadline _ _ other] at changed
        exact changed rfl
      have liftable : liftable (requests t) rejection = true := by
        simp [ConfirmedReset.liftable,here,deadline]
      refine ⟨receipt,startedRevision,startedAt,startedSequence,lifts.waited,lifts_older inv lifts member liftable,?_⟩
      rw [lifts.lifted,map_append]
      rcases mem_append.mp (inv.remembers.parts.mem_iff.mpr member) with standing | lifted
      · refine mem_append_right _ ?_
        simpa [map_map,comp_def] using And.intro standing liftable
      · exact mem_append_left _ lifted
  · rw [map_append] at distinct
    have lifted := (nodup_append.mp distinct).2.1
    simpa [map_map,comp_def] using lifted
end

section
/-- Both calls are about one scope of one account. -/
private def scopeCall (_ : Bool) : Request Unit where
  account := ()
  scope := ⟨"s","w"⟩
  model := "gpt-5"
  family := .gpt51
  manager := 0

private def limitedStart : State Unit Bool where
  accounts _ := { rateLimitResetTimes := [(.quota (getQuotaKey .gpt51 none),1000000)] }
  rejectionSequence := 0
  operations := []
  phase _ := .created
  recorded := []
  standing := []
  lifted := []

private def redeemed : Receipt := { key := "s",generation := some 1 }

private def receiptsRead : Option ReceiptRead := some ⟨{ redemptions := [("s",redeemed)] },0⟩

private def allowedAt (now : ℚ) : Option ResetSnapshot := some ⟨now,some true⟩

/-- The rejected request was sent before the receipt was known. -/
private def sentBefore : Recording Unit where
  account := ()
  retryAfterMs := 3600000
  family := .gpt51
  reason := .quota
  scopeId := some "s"
  observation := some { workspaceId := "w",receipts := some {} }
  now := 1

private def untilReading : List (Action Unit Bool) :=
  [.reconcile false { now := 0 } none none,.reconcile false { now := 0 } receiptsRead none]

private def untilPermitted : List (Action Unit Bool) :=
  [.reconcile false { now := 2 } none (allowedAt 1),.reconcile true { now := 6000 } none none,
    .reconcile true { now := 6000 } receiptsRead none]

private def inFlight : State Unit Bool := untilReading.foldl (step scopeCall) limitedStart

private def outranked : State Unit Bool := step scopeCall inFlight (.record sentBefore)

private def rechecked : State Unit Bool := untilPermitted.foldl (step scopeCall) outranked

private def sentBeforeRejection : Rejection Unit where
  account := ()
  quotaKey := getQuotaKey .gpt51 none
  scopeId := some "s"
  deadline := .workspace "w" (getQuotaKey .gpt51 none)
  known := [("s",0)]
  sequence := 1

private theorem limitedStart_start : Start limitedStart := ⟨fun _ => rfl,rfl,rfl,rfl⟩

private theorem rechecked_run : Runs.Run (step scopeCall) Enabled limitedStart rechecked := by
  have reading : Runs.Run (step scopeCall) Enabled limitedStart inFlight :=
    (Runs.Run.nil limitedStart).ofList untilReading ⟨trivial,trivial,trivial⟩
  have recorded : Runs.Run (step scopeCall) Enabled limitedStart outranked :=
    reading.snoc (show Enabled inFlight (.record sentBefore) from trivial)
  exact recorded.ofList untilPermitted ⟨trivial,trivial,trivial,trivial⟩

/-- A rejection that is recorded while the permission for a receipt is read may be
    lifted with the same receipt later, if its request was sent before the receipt
    was known. -/
theorem rejection_in_flight_lifted :
    Start limitedStart ∧ Runs.Run (step scopeCall) Enabled limitedStart rechecked ∧
      inFlight.phase false = .readingPermission redeemed (0,0) 0 0 ∧ inFlight.recorded = [] ∧
      outranked.recorded = [sentBeforeRejection] ∧ outranked.phase false = .readingPermission redeemed (0,0) 0 0 ∧
      rechecked.phase true = .readingPermission redeemed (1,0) 6000 1 ∧
      ((rechecked.accounts ()).rateLimitResetTimes.find sentBeforeRejection.deadline = some 3600001) ∧
      (((reconcile scopeCall rechecked true { now := 6001 } none (allowedAt 6000)).accounts ()).rateLimitResetTimes.find
        sentBeforeRejection.deadline = none) := by
  refine ⟨limitedStart_start,rechecked_run,?_⟩
  decide +kernel

theorem resets_lift_older_rechecked : ∃ receipt startedRevision startedAt startedSequence,
    rechecked.phase true = .readingPermission receipt startedRevision startedAt startedSequence ∧
      OlderThan sentBeforeRejection (scopeCall true) receipt startedSequence ∧
      sentBeforeRejection ∈
        (reconcile scopeCall rechecked true { now := 6001 } none (allowedAt 6000)).lifted.map Prod.snd := by
  refine (resets_lift_older scopeCall limitedStart_start rechecked_run).1 true { now := 6001 } none (allowedAt 6000)
    sentBeforeRejection ?_ ?_
  · decide +kernel
  · decide +kernel
end

end CodexMultiAuth.ConfirmedReset
