import CodexMultiAuth.ResetCredits

/-!
The rules of the reset-credit service. A credit is asked for only as the record
on the file says; the record goes only after an outcome and a read that followed
it; an automatic call spends only where it found nothing pending, no recent
redemption and every target blocked. Every call of the service keeps them.
-/
namespace CodexMultiAuth.ResetCredits
open List
open LockedFile (Await Held Program Rules Under Outside)

abbrev Event : Type := LockedFile.Event State Request Answer

abbrev Hold : Type := Held State Request Answer

def contents (file : Option State) : State := file.getD {}

/-- In this order: the pending credit was asked for, its outcome came, and its account was read. -/
def Confirmed (hold : List Event) (pending : Pending) : Prop :=
  ∃ target outcome reading before between after, target.key = pending.key ∧ reading.accountId = target.accountId ∧
    hold = before ++ .asked (.consume target pending.idempotencyKey pending.creditId) (some (.outcome outcome)) ::
      (between ++ .asked (.read target false) (some (.reading reading)) :: after)

/-- No redemption, one that is five minutes old, or one from a clock that has stepped back. -/
def Rested (redeemedAt : Option ℚ) (now : ℚ) : Prop := ∀ time, redeemedAt = some time → 300000 ≤ now - time ∨ now + 300000 < time

/-- What an automatic call has seen under the lock before it spends. -/
structure Blocked (targets : List ResetTarget) (hold : List Event) : Prop where
  idle : ∃ file time, .loaded file ∈ hold ∧ .asked .now (some (.time time)) ∈ hold ∧ (contents file).pending = none ∧
    Rested (contents file).lastRedemptionAt time
  refused : ∀ target ∈ targets, ∃ reading, .asked (.read target true) (some (.reading reading)) ∈ hold ∧
    reading.accountId = target.accountId ∧ reading.ordinaryUsageAllowed = some false

/-- What a save may make of the file. -/
structure Saves (hold : List Event) (before after : State) : Prop where
  pending : ∀ pending, before.pending = some pending → after.pending = some pending ∨ (after.pending = none ∧ Confirmed hold pending)
  redemption : (after.lastRedemption = before.lastRedemption ∧ after.redemptionGeneration = before.redemptionGeneration) ∨
    ∃ receipt generation, after.lastRedemption = some receipt ∧ receipt.generation = some generation ∧
      after.redemptionGeneration = some generation ∧ before.redemptionGeneration.getD 0 < generation

def MayAsk (call : Call) (held : Hold) : Request → Prop
  | .consume target idempotencyKey creditId =>
    (contents held.file).pending = some ⟨target.key,idempotencyKey,creditId⟩ ∧
      ∀ targets evidence, call = .automatic targets evidence → target ∈ targets ∧ Blocked targets held.hold
  | _ => True

def Free : Request → Prop
  | .consume _ _ _ => False
  | _ => True

def rules : Rules State Request Answer Call where
  mayAsk := MayAsk
  free := Free
  mayStore := fun _ held state => Saves held.hold (contents held.file) state

theorem Blocked.later {targets : List ResetTarget} {hold later : List Event} (blocked : Blocked targets hold) (extends_ : hold <+: later) :
    Blocked targets later := by
  have there : ∀ event ∈ hold, event ∈ later := fun event member => extends_.subset member
  obtain ⟨⟨file,time,loaded,asked,idle⟩,refused⟩ := blocked
  refine ⟨⟨file,time,there _ loaded,there _ asked,idle⟩,?_⟩
  intro target member
  obtain ⟨reading,read,same⟩ := refused target member
  exact ⟨reading,there _ read,same⟩

theorem Saves.same {hold : List Event} {before after : State} (pending : after.pending = before.pending)
    (last : after.lastRedemption = before.lastRedemption) (generation : after.redemptionGeneration = before.redemptionGeneration) :
    Saves hold before after := by
  refine ⟨?_,Or.inl ⟨last,generation⟩⟩
  intro record here
  exact Or.inl (pending.trans here)

section
variable {call : Call} {held : Hold}

/-- The state in memory has what the file has of pending and redeemed. -/
structure Matches (state : State) (file : Option State) : Prop where
  pending : state.pending = (contents file).pending
  last : state.lastRedemption = (contents file).lastRedemption
  generation : state.redemptionGeneration = (contents file).redemptionGeneration

theorem under_now {post : Hold → ℚ → Prop} (holds : ∀ time, post ⟨held.hold ++ [.asked .now (some (.time time))],held.file⟩ time) :
    Under rules call now post held := by
  refine Under.bind (Under.ask trivial ?_)
  intro answer
  cases answer with
  | time time => exact Under.pure (holds time)
  | _ => exact Under.throw

theorem under_status {post : Hold → State → Prop} (holds : post ⟨held.hold ++ [.loaded held.file],held.file⟩ (contents held.file)) :
    Under rules call status post held := by
  refine Under.bind (Under.load ?_)
  cases file : held.file with
  | none =>
    rw [file] at holds
    exact Under.pure holds
  | some state =>
    rw [file] at holds
    exact Under.pure holds

theorem under_save {state : State} {post : Hold → Unit → Prop} (may : Saves held.hold (contents held.file) (versioned state))
    (holds : post ⟨held.hold ++ [.stored (versioned state)],some (versioned state)⟩ ()) : Under rules call (save state) post held := by
  unfold save
  split
  · exact Under.store may holds
  · exact Under.throw

theorem outside_now : Outside rules call now := by
  refine Outside.bind (Outside.ask trivial) ?_
  intro answer
  cases answer with
  | time time => exact Outside.pure
  | _ => exact Outside.throw

theorem outside_status : Outside rules call status := by
  refine Outside.bind Outside.load ?_
  intro file
  cases file <;> exact Outside.pure

variable {row : ResetReading}

theorem parseResetReading_some {reading : Reading} {accountId : String} {time : ℚ}
    (parsed : parseResetReading reading accountId time = some row) :
    reading.accountId = accountId ∧ row.snapshot.ordinaryUsageAllowed = reading.ordinaryUsageAllowed := by
  unfold parseResetReading at parsed
  split at parsed
  · cases parsed
  · next same =>
    cases parsed
    exact ⟨not_not.mp same,rfl⟩

/-- A read that succeeds was answered for its target, and a clock was read after it. -/
structure Read (target : ResetTarget) (creditDetails : Bool) (before after : Hold) (row : ResetReading) : Prop where
  file : after.file = before.file
  answered : ∃ reading time, after.hold = before.hold ++ [.asked (.read target creditDetails) (some (.reading reading)),.asked .now (some (.time time))] ∧
    reading.accountId = target.accountId ∧ row.snapshot.ordinaryUsageAllowed = reading.ordinaryUsageAllowed

variable {target : ResetTarget}
variable {creditDetails : Bool}

theorem wp_readDetails :
    LockedFile.wp rules call (readDetails target creditDetails)
      (fun mode result => ∃ after, mode = some after ∧ after.file = held.file ∧ held.hold <+: after.hold ∧
        ∀ row, result = some row → Read target creditDetails held after row) (some held) := by
  refine ⟨trivial,?_⟩
  intro answer
  rcases answer with _ | answer
  · exact ⟨_,rfl,rfl,prefix_append _ _,fun _ none => nomatch none⟩
  · cases answer with
    | reading reading =>
      refine ⟨trivial,?_⟩
      intro answer
      have extended : held.hold <+: (held.hold ++ [LockedFile.Event.asked (.read target creditDetails) (some (.reading reading))]) ++
          [.asked .now answer] := (prefix_append _ _).trans (prefix_append _ _)
      rcases answer with _ | answer
      · exact ⟨_,rfl,rfl,extended,fun _ none => nomatch none⟩
      · cases answer with
        | time time =>
          refine ⟨_,rfl,rfl,extended,?_⟩
          intro row parsed
          obtain ⟨same,allowed⟩ := parseResetReading_some parsed
          exact ⟨rfl,reading,time,by simp,same,allowed⟩
        | _ => exact ⟨_,rfl,rfl,extended,fun _ none => nomatch none⟩
    | _ => exact ⟨_,rfl,rfl,prefix_append _ _,fun _ none => nomatch none⟩

theorem under_readDetails :
    Under rules call (readDetails target creditDetails) (fun after row => Read target creditDetails held after row) held := by
  refine LockedFile.wp_mono ?_ wp_readDetails
  rintro mode result ⟨after,rfl,-,-,was⟩
  exact ⟨after,rfl,was⟩

theorem under_read :
    Under rules call (read target) (fun after _ => ∃ row, Read target false held after row) held :=
  Under.bind (under_readDetails.mono (fun _ row was => Under.pure ⟨row,was⟩))

theorem outside_readDetails : Outside rules call (readDetails target creditDetails) := by
  refine Outside.bind (Outside.ask trivial) ?_
  intro answer
  cases answer with
  | reading reading =>
    exact Outside.bind outside_now (fun time => Outside.orThrow)
  | _ => exact Outside.throw

theorem outside_readEach (targets : List ResetTarget) : Outside rules call (readEach targets) := by
  induction targets with
  | nil => exact Outside.pure
  | cons target targets ih =>
    refine Outside.bind (Outside.attempt outside_readDetails) ?_
    intro row
    exact Outside.bind ih (fun rows => Outside.pure)

/-- A target's row was answered in this hold of the lock. -/
def Answered (hold : List Event) (target : ResetTarget) (row : ResetReading) : Prop :=
  ∃ reading, .asked (.read target true) (some (.reading reading)) ∈ hold ∧ reading.accountId = target.accountId ∧
    row.snapshot.ordinaryUsageAllowed = reading.ordinaryUsageAllowed

theorem Answered.later {hold later : List Event} (answered : Answered hold target row)
    (extends_ : hold <+: later) : Answered later target row := by
  obtain ⟨reading,member,same⟩ := answered
  exact ⟨reading,extends_.subset member,same⟩

theorem Read.answered_later {before after : Hold} (was : Read target true before after row) :
    Answered after.hold target row := by
  obtain ⟨reading,time,here,same⟩ := was.answered
  exact ⟨reading,by rw [here]; simp,same⟩

theorem under_readEach (targets : List ResetTarget) :
    Under rules call (readEach targets) (fun after rows => after.file = held.file ∧ held.hold <+: after.hold ∧
      List.Forall₂ (fun target row => ∀ here, row = some here → Answered after.hold target here) targets rows) held := by
  induction targets generalizing held with
  | nil => exact Under.pure ⟨rfl,prefix_refl _,List.Forall₂.nil⟩
  | cons target targets ih =>
    refine Under.bind (Under.attempt (LockedFile.wp_mono ?_ wp_readDetails))
    rintro mode row ⟨middle,rfl,file,longer,was⟩
    refine ⟨middle,rfl,Under.bind (ih.mono ?_)⟩
    rintro after rows ⟨sameFile,further,each⟩
    refine Under.pure ⟨sameFile.trans file,longer.trans further,List.Forall₂.cons ?_ each⟩
    intro here same
    exact (was here same).answered_later.later further

/-! ### Redeeming -/

theorem le_foldl_max (receipts : OrderedMap String Receipt) (start : Nat) :
    start ≤ receipts.foldl (fun maximum entry => max maximum (entry.2.generation.getD 0)) start := by
  induction receipts generalizing start with
  | nil => exact Nat.le_refl start
  | cons entry receipts ih => exact (Nat.le_max_left _ _).trans (ih _)

theorem lt_nextGeneration (state : State) : state.redemptionGeneration.getD 0 < nextGeneration state := by
  have bound := le_foldl_max (receiptsOf state) (state.redemptionGeneration.getD 0)
  unfold nextGeneration
  omega

theorem under_pendingFor {state : State} {creditId : Option String}
    (own : ∀ pending, state.pending = some pending → pending.key = target.key) :
    Under rules call (pendingFor state target creditId) (fun after pending => after.file = held.file ∧ held.hold <+: after.hold ∧
      pending.key = target.key ∧ ∀ before, state.pending = some before → pending = before) held := by
  unfold pendingFor
  cases present : state.pending with
  | some pending =>
    refine Under.pure ⟨rfl,prefix_refl _,own pending present,?_⟩
    intro before same
    exact Option.some.inj same
  | none =>
    refine Under.bind (Under.bind (Under.ask trivial ?_))
    intro answer
    cases answer with
    | uuid id => exact Under.pure (Under.pure ⟨rfl,prefix_append _ _,rfl,fun _ none => nomatch none⟩)
    | _ => exact Under.throw

theorem under_consume {pending : Pending} (may : MayAsk call held (.consume target pending.idempotencyKey pending.creditId)) :
    Under rules call (consume target pending) (fun after outcome => after.file = held.file ∧
      after.hold = held.hold ++ [.asked (.consume target pending.idempotencyKey pending.creditId) (some (.outcome outcome))]) held := by
  refine Under.bind (Under.ask may ?_)
  intro answer
  cases answer with
  | outcome outcome => exact Under.pure ⟨rfl,rfl⟩
  | _ => exact Under.throw

theorem confirmed_of_answers {before : List Event} {pending : Pending} {outcome : ResetOutcome} {reading : Reading}
    {first second : ℚ} (key : target.key = pending.key) (account : reading.accountId = target.accountId) :
    Confirmed (before ++ [.asked (.consume target pending.idempotencyKey pending.creditId) (some (.outcome outcome))] ++
      [.asked (.read target false) (some (.reading reading)),.asked .now (some (.time first))] ++ [.asked .now (some (.time second))]) pending := by
  refine ⟨target,outcome,reading,before,[],[.asked .now (some (.time first)),.asked .now (some (.time second))],key,account,?_⟩
  simp only [append_assoc,cons_append,nil_append]

/-- Where the state is that of the file, and an automatic call has seen every target blocked,
    a redemption keeps the rules. -/
theorem under_consumeLocked {state : State} {automatic : Bool} {creditId : Option String} (same : Matches state held.file)
    (blocked : ∀ targets evidence, call = .automatic targets evidence → target ∈ targets ∧ Blocked targets held.hold) :
    Under rules call (consumeLocked state target automatic creditId) (fun _ _ => True) held := by
  unfold consumeLocked
  split
  · exact Under.throw
  · next other =>
    have own : ∀ pending, state.pending = some pending → pending.key = target.key := by
      intro pending here
      rw [here] at other
      simpa using other
    refine Under.bind ((under_pendingFor own).mono ?_)
    rintro chosen pending ⟨file,longer,key,kept⟩
    refine Under.bind (under_now ?_)
    intro startedAt
    have begun : Saves (chosen.hold ++ [.asked .now (some (.time startedAt))]) (contents chosen.file)
        (versioned { state with pending := some pending,lastRedemptionAt := some startedAt }) := by
      rw [file]
      refine ⟨?_,Or.inl ⟨same.last,same.generation⟩⟩
      intro before there
      exact Or.inl (congrArg some (kept before (same.pending.trans there)))
    refine Under.bind (under_save begun (Under.bind ((under_consume ⟨?_,?_⟩).mono ?_)))
    · show some pending = _
      rw [← key]
    · intro targets evidence automatically
      obtain ⟨among,refused⟩ := blocked targets evidence automatically
      exact ⟨among,refused.later (longer.trans ((prefix_append _ _).trans (prefix_append _ _)))⟩
    · rintro spent outcome ⟨spentFile,spentHold⟩
      refine Under.bind (under_read.mono ?_)
      rintro seen snapshot ⟨row,was⟩
      refine Under.bind (under_now ?_)
      intro time
      obtain ⟨reading,readAt,answered,account,_⟩ := was.answered
      refine Under.bind (under_save ?_ (Under.pure trivial))
      rw [was.file,spentFile]
      refine ⟨?_,Or.inr ⟨_,_,rfl,rfl,rfl,lt_nextGeneration _⟩⟩
      intro record there
      have record_eq : pending = record := Option.some.inj there
      subst record_eq
      refine Or.inr ⟨rfl,?_⟩
      rw [answered,spentHold]
      exact confirmed_of_answers key.symm account

theorem versioned_matches (state : State) : Matches state (some (versioned state)) := ⟨rfl,rfl,rfl⟩

theorem contents_matches (file : Option State) : Matches (contents file) file := ⟨rfl,rfl,rfl⟩

theorem under_redeemLocked (manual : ∀ targets evidence, call ≠ .automatic targets evidence) :
    Under rules call (redeemLocked target) (fun _ _ => True) held := by
  have never : ∀ targets evidence, call = .automatic targets evidence → ∀ hold, target ∈ targets ∧ Blocked targets hold := by
    intro targets evidence automatically
    exact absurd automatically (manual targets evidence)
  refine Under.bind (under_status ?_)
  cases present : (contents held.file).pending with
  | some pending =>
    simp only
    exact under_consumeLocked (contents_matches _) (fun targets evidence automatically => never targets evidence automatically _)
  | none =>
    simp only
    refine Under.bind (under_now ?_)
    intro time
    split
    · exact Under.throw
    · refine Under.bind (under_read.mono ?_)
      rintro seen snapshot ⟨row,was⟩
      refine Under.bind (under_save ?_ ?_)
      · rw [was.file]
        exact Saves.same present.symm rfl rfl
      · split
        · exact Under.throw
        · exact Under.pure trivial
        · exact under_consumeLocked (versioned_matches _) (fun targets evidence automatically => never targets evidence automatically _)

theorem outside_redeem (manual : ∀ targets evidence, call ≠ .automatic targets evidence) : Outside rules call (redeem target) :=
  Outside.withLock (fun _ => under_redeemLocked manual)

theorem outside_setPolicy {policy : Policy} : Outside rules call (setPolicy policy) :=
  Outside.withLock (fun _ => Under.bind (under_status (under_save (Saves.same rfl rfl rfl) trivial)))

variable {targets : List ResetTarget}

theorem outside_refresh : Outside rules call (refresh targets) := by
  refine Outside.bind (outside_readEach targets) ?_
  intro rows
  refine Outside.withLock (fun file => Under.bind (under_status (Under.bind (under_now ?_))))
  intro time
  exact Under.bind (under_save (Saves.same rfl rfl rfl) (Under.pure trivial))

/-! ### Automatic redemption -/

theorem rested_of_within {redeemedAt : Option ℚ} {time : ℚ} (past : within redeemedAt time 300000 = false) : Rested redeemedAt time := by
  rintro at_ rfl
  rw [within,FUTURE_SKEW_MS,Bool.and_eq_false_iff,decide_eq_false_iff_not,decide_eq_false_iff_not,not_le,not_lt] at past
  exact past.symm

theorem under_resetsSoon (windows : List Window) :
    Under rules call (resetsSoon windows) (fun after _ => after.file = held.file ∧ held.hold <+: after.hold) held := by
  induction windows generalizing held with
  | nil => exact Under.pure ⟨rfl,prefix_refl _⟩
  | cons window windows ih =>
    unfold resetsSoon
    split
    · split
      · refine Under.bind (under_now ?_)
        intro time
        split
        · exact Under.pure ⟨rfl,prefix_append _ _⟩
        · exact ih.mono (fun after _ later => ⟨later.1,(prefix_append _ _).trans later.2⟩)
      · exact ih
    · exact ih

theorem under_chooseTarget (targets : List ResetTarget) {chosen : Option Choice} {pairs : List (ResetTarget × Option ResetReading)}
    (so_far : ∀ choice, chosen = some choice → choice.target ∈ targets) (among : ∀ pair ∈ pairs, pair.1 ∈ targets) :
    Under rules call (chooseTarget chosen pairs) (fun after result => after.file = held.file ∧ held.hold <+: after.hold ∧
      ∀ choice, result = some choice → choice.target ∈ targets) held := by
  induction pairs generalizing chosen held with
  | nil => exact Under.pure ⟨rfl,prefix_refl _,so_far⟩
  | cons pair pairs ih =>
    have rest : ∀ pair ∈ pairs, pair.1 ∈ targets := fun other member => among other (mem_cons_of_mem _ member)
    obtain ⟨target,row⟩ := pair
    have here : ∀ credit choice, some (⟨target,credit⟩ : Choice) = some choice → choice.target ∈ targets := by
      intro credit choice same
      cases same
      exact among _ mem_cons_self
    cases row with
    | none => exact ih so_far rest
    | some row =>
      unfold chooseTarget
      split
      · exact ih so_far rest
      · refine Under.bind (under_now ?_)
        intro time
        have later : ∀ next : Option Choice, (∀ choice, next = some choice → choice.target ∈ targets) →
            Under rules call (chooseTarget next pairs) (fun after result => after.file = held.file ∧ held.hold <+: after.hold ∧
              ∀ choice, result = some choice → choice.target ∈ targets) ⟨held.hold ++ [.asked .now (some (.time time))],held.file⟩ := by
          intro next fine
          exact (ih fine rest).mono (fun after _ was => ⟨was.1,(prefix_append _ _).trans was.2.1,was.2.2⟩)
        dsimp only
        split
        · exact later _ (here _)
        · split
          · exact later _ (here _)
          · exact later _ so_far

theorem refused_of_blocked {hold : List Event} {rows : List (Option ResetReading)}
    (each : List.Forall₂ (fun target row => ∀ here, row = some here → Answered hold target here) targets rows) (blocked : rows.all isBlocked = true) :
    ∀ target ∈ targets, ∃ reading, .asked (.read target true) (some (.reading reading)) ∈ hold ∧
      reading.accountId = target.accountId ∧ reading.ordinaryUsageAllowed = some false := by
  induction each with
  | nil => exact fun _ none => absurd none not_mem_nil
  | @cons target row targets rows first _ ih =>
    rw [all_cons,Bool.and_eq_true] at blocked
    intro other member
    rcases mem_cons.mp member with rfl | later
    · cases row with
      | none => exact absurd blocked.1 Bool.false_ne_true
      | some here =>
        obtain ⟨reading,answered,account,allowed⟩ := first here rfl
        have refused := blocked.1
        simp only [isBlocked,Option.any_some,Bool.and_eq_true,beq_iff_eq] at refused
        exact ⟨reading,answered,account,allowed.symm.trans refused.2⟩
    · exact ih blocked.2 other later

variable {evidence : List ResetExhaustionEvidence}

theorem under_automaticHold (this : ∀ others proofs, call = .automatic others proofs → others = targets) :
    Under rules call (automaticHold targets evidence) (fun _ _ => True) held := by
  refine Under.bind (under_status (Under.bind (under_now ?_)))
  intro time
  split
  · exact Under.pure trivial
  · next goes =>
    rw [not_or,not_or,Option.not_isSome_iff_eq_none,Bool.not_eq_true] at goes
    split
    · exact Under.pure trivial
    · refine Under.bind (under_save (Saves.same rfl rfl rfl) (Under.bind ((under_readEach targets).mono ?_)))
      rintro read rows ⟨readFile,readHold,each⟩
      refine Under.bind (under_save ?_ ?_)
      · rw [readFile]
        exact Saves.same rfl rfl rfl
      · split
        · exact Under.pure trivial
        · next all =>
          refine Under.bind ((under_resetsSoon _).mono ?_)
          rintro waited soon ⟨waitedFile,waitedHold⟩
          split
          · exact Under.pure trivial
          · refine Under.bind ((under_chooseTarget targets ?_ ?_).mono ?_)
            · intro _ absent
              cases absent
            · intro pair member
              exact (of_mem_zip member).1
            · rintro chosen result ⟨chosenFile,chosenHold,among⟩
              cases result with
              | none => exact Under.pure trivial
              | some choice =>
                refine Under.bind ((under_consumeLocked ?_ ?_).mono (fun _ _ _ => Under.pure trivial))
                · rw [chosenFile,waitedFile]
                  exact ⟨rfl,rfl,rfl⟩
                · intro others proofs automatically
                  rw [this others proofs automatically]
                  refine ⟨among choice rfl,?_⟩
                  have refused := refused_of_blocked each (Bool.not_eq_false _ ▸ all)
                  have earlier : read.hold <+: chosen.hold := ((prefix_append _ _).trans waitedHold).trans chosenHold
                  refine Blocked.later ⟨⟨held.file,time,?_,?_,goes.2.1,rested_of_within goes.2.2⟩,refused⟩ earlier
                  · exact readHold.subset (by simp)
                  · exact readHold.subset (by simp)

theorem outside_currentCheck {id : Nat} : Outside rules call (currentCheck id) := Outside.bind Outside.update (fun _ => Outside.orThrow)

section
variable (this : ∀ others proofs, call = .automatic others proofs → others = targets)
include this

theorem outside_automaticLocked
    : Outside rules call (automaticLocked targets evidence) := by
  unfold automaticLocked
  split
  · exact Outside.pure
  · refine Outside.bind outside_status ?_
    intro state
    split
    · exact Outside.pure
    · exact Outside.withLock (fun file => under_automaticHold this)

theorem outside_automaticBatch {id : Nat}
    (passes : Nat) : Outside rules call (automaticBatch id targets passes) := by
  induction passes with
  | zero => exact Outside.pure
  | succ passes ih =>
    refine Outside.bind outside_currentCheck ?_
    intro before
    refine Outside.bind (outside_automaticLocked this) ?_
    intro result
    refine Outside.bind outside_currentCheck ?_
    intro after
    split
    · exact Outside.pure
    · exact ih

theorem outside_automatic
    : Outside rules call (automatic targets evidence) := by
  refine Outside.bind outside_now ?_
  intro time
  refine Outside.bind Outside.update ?_
  intro memory
  split
  · exact Outside.pure
  · exact Outside.pure
  · exact Outside.pure
  · have closes : ∀ id, Outside rules call (closeCheck id) := fun id => Outside.bind Outside.update (fun _ => Outside.pure)
    have deletes : ∀ id, Outside rules call (deleteCheck id) := fun id => Outside.bind Outside.update (fun _ => Outside.pure)
    exact Outside.ensure (Outside.ensure (outside_automaticBatch this _) (closes _)) (deletes _)

end

end

theorem api_keeps_rules (call : Call) : LockedFile.wp rules call (api call) (fun mode _ => mode = none) none := by
  cases call with
  | redeem target => exact Outside.forget (outside_redeem (fun _ _ other => nomatch other))
  | automatic targets evidence =>
    refine Outside.forget (outside_automatic ?_)
    intro others proofs same
    cases same
    rfl
  | refresh targets => exact Outside.forget outside_refresh
  | setPolicy policy => exact Outside.forget outside_setPolicy

end CodexMultiAuth.ResetCredits
