import CodexMultiAuth.ResetCreditsRules

/-!
Whole runs of the reset-credit service: any number of processes and calls on one
state file, any replies and rejections, crashes at every await.
-/
namespace CodexMultiAuth.ResetCredits
open LockedFile.World
open LockedFile (Secure Writes)
open LockedFile.World (toIssue)

section
variable {fresh : Memory} {w : World}

/-- A call has come to sending a consume. -/
def Sends (w : World) (call : Nat) (r : LockedFile.Running State Memory Request Answer Call) (target : ResetTarget) (idempotencyKey : String)
    (creditId : Option String) : Prop :=
  w.running call = some r ∧ toIssue r = some (.consume target idempotencyKey creditId)

/-- Steps that leave some pending record on the file. -/
abbrev KeepsPending (fresh : Memory) : World → World → Prop :=
  Runs.Run (fun w action => step w api fresh action) (fun w action =>
    enabled w api fresh action ∧ (contents (step w api fresh action).file).pending.isSome)

def redemption (file : Option State) : Option Receipt × Option Nat := ((contents file).lastRedemption,(contents file).redemptionGeneration)

def Records (w after : World) (generation : Nat) : Prop :=
  redemption after.file ≠ redemption w.file ∧ (contents after.file).lastRedemption.bind Receipt.generation = some generation

/-- What holds wherever a run has come to. -/
structure NeverDoubleSpent (fresh : Memory) (w : World) : Prop where
  /-- What is sent is what the file has pending. -/
  recorded : ∀ call r target idempotencyKey creditId, Sends w call r target idempotencyKey creditId →
    (contents w.file).pending = some ⟨target.key,idempotencyKey,creditId⟩
  /-- As long as there is a pending record, nothing else is sent. -/
  retried : ∀ pending later, (contents w.file).pending = some pending → KeepsPending fresh w later →
    ∀ call r target idempotencyKey creditId, Sends later call r target idempotencyKey creditId → (⟨target.key,idempotencyKey,creditId⟩ : Pending) = pending
  /-- The record goes only when the holder of the lock has had an outcome and a read for it. -/
  removed : ∀ action pending, w.enabled api fresh action → (contents w.file).pending = some pending →
    (contents (w.step api fresh action).file).pending ≠ some pending →
    (contents (w.step api fresh action).file).pending = none ∧
      ∃ call r, w.running call = some r ∧ w.holder = some call ∧ Confirmed r.hold pending
  /-- A redemption that is recorded has a generation, and a later one has a higher one. -/
  increasing : ∀ action, w.enabled api fresh action → redemption (w.step api fresh action).file ≠ redemption w.file →
    ∃ generation, Records w (w.step api fresh action) generation ∧
      ∀ between next higher, LockedFile.Runs api fresh (w.step api fresh action) between → enabled between api fresh next →
        Records between (step between api fresh next) higher → generation < higher
  /-- An automatic call spends for one of its targets, after it has seen all of them blocked. -/
  automatic : ∀ call r target idempotencyKey creditId targets evidence, Sends w call r target idempotencyKey creditId →
    r.tag = .automatic targets evidence → target ∈ targets ∧ Blocked targets r.hold

theorem sends_under_rules (secure : Secure rules w) {call : Nat} {r : LockedFile.Running State Memory Request Answer Call} {target : ResetTarget}
    {idempotencyKey : String} {creditId : Option String} (sends : Sends w call r target idempotencyKey creditId) :
    MayAsk r.tag ⟨r.hold,w.file⟩ (.consume target idempotencyKey creditId) := by
  obtain ⟨held,free⟩ := secure.asks sends.1 sends.2
  by_cases holder : w.holder = some call
  · exact held holder
  · exact (free holder).elim

variable {action : LockedFile.Action Answer Call}

theorem step_saves (secure : Secure rules w) (may : w.enabled api fresh action) :
    Secure rules (w.step api fresh action) ∧ ((w.step api fresh action).file = w.file ∨
      ∃ call r, w.running call = some r ∧ w.holder = some call ∧
        Saves r.hold (contents w.file) (contents (w.step api fresh action).file)) := by
  obtain ⟨kept,files⟩ := LockedFile.act_secure api_keeps_rules secure (act_of_enabled may)
  refine ⟨kept,files.imp_right ?_⟩
  rintro ⟨call,r,under,writes⟩
  obtain ⟨state,stored,saves⟩ := writes.may
  exact ⟨call,r,under,writes.held,by rw [stored]; exact saves⟩

theorem pending_kept (secure : Secure rules w) {pending : Pending} (there : (contents w.file).pending = some pending) {later : World}
    (run : KeepsPending fresh w later) : Secure rules later ∧ (contents later.file).pending = some pending := by
  refine run.invariant (P := fun w => Secure rules w ∧ (contents w.file).pending = some pending) ?_ ⟨secure,there⟩
  rintro s action ⟨may,still⟩ ⟨safe,here⟩
  obtain ⟨kept,files⟩ := step_saves safe may
  refine ⟨kept,?_⟩
  rcases files with same | ⟨call,r,_,_,saves⟩
  · rw [same]
    exact here
  · rcases saves.pending pending here with kept | ⟨gone,_⟩
    · exact kept
    · rw [gone] at still
      cases still

theorem pending_removed (secure : Secure rules w) (may : w.enabled api fresh action) {pending : Pending}
    (there : (contents w.file).pending = some pending) (gone : (contents (w.step api fresh action).file).pending ≠ some pending) :
    (contents (w.step api fresh action).file).pending = none ∧ ∃ call r, w.running call = some r ∧ w.holder = some call ∧ Confirmed r.hold pending := by
  obtain ⟨_,files⟩ := step_saves secure may
  rcases files with same | ⟨call,r,under,held,saves⟩
  · exact absurd (same ▸ there) gone
  · rcases saves.pending pending there with kept | ⟨none,confirmed⟩
    · exact absurd kept gone
    · exact ⟨none,call,r,under,held,confirmed⟩

def counted (file : Option State) : Nat := (contents file).redemptionGeneration.getD 0

theorem step_counted (secure : Secure rules w) (may : w.enabled api fresh action) :
    counted w.file ≤ counted (w.step api fresh action).file := by
  obtain ⟨_,files⟩ := step_saves secure may
  rcases files with same | ⟨call,r,_,_,saves⟩
  · rw [same]
  · rcases saves.redemption with ⟨_,same⟩ | ⟨receipt,generation,_,_,count,higher⟩
    · rw [counted,counted,same]
    · rw [counted,counted,count]
      exact Nat.le_of_lt higher

theorem step_records (secure : Secure rules w) (may : w.enabled api fresh action)
    (changed : redemption (w.step api fresh action).file ≠ redemption w.file) :
    Records w (w.step api fresh action) (counted (w.step api fresh action).file) ∧ counted w.file < counted (w.step api fresh action).file := by
  obtain ⟨_,files⟩ := step_saves secure may
  rcases files with same | ⟨call,r,_,_,saves⟩
  · exact absurd (congrArg redemption same) changed
  · rcases saves.redemption with ⟨last,same⟩ | ⟨receipt,generation,last,numbered,count,higher⟩
    · exact absurd (by rw [redemption,redemption,last,same]) changed
    · have is_count : counted (w.step api fresh action).file = generation := by
        rw [counted,count]
        rfl
      rw [is_count]
      exact ⟨⟨changed,by rw [last]; exact numbered⟩,higher⟩

theorem generations_increase (secure : Secure rules w) (may : w.enabled api fresh action)
    (changed : redemption (w.step api fresh action).file ≠ redemption w.file) :
    ∃ generation, Records w (w.step api fresh action) generation ∧
      ∀ between next higher, LockedFile.Runs api fresh (w.step api fresh action) between → enabled between api fresh next →
        Records between (step between api fresh next) higher → generation < higher := by
  refine ⟨_,(step_records secure may changed).1,?_⟩
  intro between next higher run mayNext records
  have reached : Secure rules between ∧ counted (w.step api fresh action).file ≤ counted between.file := by
    refine run.invariant (P := fun s => Secure rules s ∧ counted (w.step api fresh action).file ≤ counted s.file) ?_
      ⟨(step_saves secure may).1,Nat.le_refl _⟩
    rintro s following enabled ⟨safe,atLeast⟩
    exact ⟨(step_saves safe enabled).1,atLeast.trans (step_counted safe enabled)⟩
  obtain ⟨recorded,more⟩ := step_records reached.1 mayNext records.1
  have same : higher = counted (step between api fresh next).file := Option.some.inj (records.2.symm.trans recorded.2)
  rw [same]
  exact Nat.lt_of_le_of_lt reached.2 more

/-- In every run on whatever file a credit is never spent twice. -/
theorem reset_credit_spent_once (file : Option State) (run : LockedFile.Runs api fresh (quiet file fresh) w) :
    NeverDoubleSpent fresh w := by
  have secure : Secure rules w := Secure.run api_keeps_rules run Secure.quiet
  refine ⟨?_,?_,?_,?_,?_⟩
  · intro call r target idempotencyKey creditId sends
    exact (sends_under_rules secure sends).1
  · intro pending later there kept call r target idempotencyKey creditId sends
    obtain ⟨safe,still⟩ := pending_kept secure there kept
    exact Option.some.inj ((sends_under_rules safe sends).1.symm.trans still)
  · intro action pending may there gone
    exact pending_removed secure may there gone
  · intro action may changed
    exact generations_increase secure may changed
  · intro call r target idempotencyKey creditId targets evidence sends automatically
    exact (sends_under_rules secure sends).2 targets evidence automatically

/-- A redemption on no file, up to the request that spends the credit. -/
def redeemActions : List (LockedFile.Action Answer Call) :=
  let answer : Answer → List (LockedFile.Action Answer Call) := fun answer => [.issue 0,.settle 0 (.answered answer)]
  [.start 0 0 (.redeem ⟨"a","a"⟩),.settle 0 .resolved,.settle 0 .resolved] ++ answer (.time 0) ++
    answer (.reading ⟨"a",some false,some (2,.null),some "pro",none,none⟩) ++ answer (.time 0) ++ [.settle 0 .resolved] ++
    answer (.uuid "u") ++ answer (.time 0) ++ [.settle 0 .resolved]

def spending : World := redeemActions.foldl (fun w action => step w api {} action) (quiet none {})

theorem redeem_sends_what_is_pending : ∃ r, Sends spending 0 r ⟨"a","a"⟩ "u" none ∧ (contents spending.file).pending = some ⟨"a","u",none⟩ := by
  have run : LockedFile.Runs api {} (quiet none {}) spending :=
    Runs.Run.ofList (Runs.Run.nil _) redeemActions (by decide)
  have comes : (spending.running 0).bind toIssue = some (.consume ⟨"a","a"⟩ "u" none) := by rfl
  obtain ⟨r,under,sent⟩ := Option.bind_eq_some_iff.mp comes
  exact ⟨r,⟨under,sent⟩,(reset_credit_spent_once none run).recorded 0 r _ _ _ ⟨under,sent⟩⟩

end
end CodexMultiAuth.ResetCredits
