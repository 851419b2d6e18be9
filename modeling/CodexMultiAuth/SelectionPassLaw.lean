import CodexMultiAuth.SelectionPass

/-!
What a pass of the selection loop does to the token and the probe that it takes
(`selectionPass_accounts`).
-/
namespace CodexMultiAuth.RuntimeProxy
open Trace
open PluginHost (TokenBucketConfig TokenBucketEntry Buckets TOKEN_REFUND_WINDOW_MS tryConsume refundToken isRecent eraseRecent hasRecent refundToken_successful setEntry)

/-- The pass is given up on the way to the upstream, by an exception or with an answer that
    tells the client to try again. -/
def Exit.abandons : Exit → Bool
  | .refreshThrew => true
  | .adoptionFailed => true
  | .storageThrew => true
  | .eligibilityChanged => true
  | .headersThrew => true
  | _ => false

/-- The response says something about the account. -/
def Exit.resolves : Exit → Bool
  | .deactivated accountWasEnabled => accountWasEnabled
  | .unauthorized attributed => attributed
  | .serverError => true
  | .streamBroke => true
  | .succeeded => true
  | _ => false

/-- What a pass takes it gives back once if it sends nothing; the probe of a pass that sends
    is resolved or released once. -/
def Balanced {Account : Type} (trace : Trace Account) : Prop :=
  if trace.dispatched then trace.refunds ≤ trace.takes ∧ (trace.probes = 1 → trace.verdicts + trace.releases = 1)
  else trace.refunds = trace.takes ∧ trace.releases = trace.probes

instance {Account : Type} (trace : Trace Account) : Decidable (Balanced trace) :=
  inferInstanceAs (Decidable (if trace.dispatched then _ else _))

/-- What the token and the probe of a pass come to. A refund is a call of `refundToken`,
    whatever account it names and whether or not it finds a token to give back. -/
structure Accounts {Account : Type} (trace : Trace Account) : Prop where
  one : trace.takes ≤ 1 ∧ trace.probes ≤ 1
  released : trace.dispatched = false → trace.releases = trace.probes
  refunded : trace.dispatched = false → trace.exit.abandons = false → trace.refunds = trace.takes
  kept : trace.dispatched = true → trace.releases = 0
  refundedOnce : trace.dispatched = true → trace.refunds ≤ trace.takes
  resolved : trace.dispatched = true → trace.verdicts = if trace.exit.resolves then 1 else 0

section
variable {Account : Type} (act : Act Account) (trace : Trace Account)

namespace Trace

@[simp] theorem takes_after : (trace.after act).takes = trace.takes + (match act with | .consumeToken _ => 1 | _ => 0) := by
  cases act <;> simp [after,takes]

@[simp] theorem refunds_after : (trace.after act).refunds = trace.refunds + (match act with | .refundToken _ => 1 | _ => 0) := by
  cases act <;> simp [after,refunds]

@[simp] theorem probes_after : (trace.after act).probes = trace.probes + (match act with | .acquireProbe => 1 | _ => 0) := by
  cases act <;> simp [after,probes]

@[simp] theorem releases_after : (trace.after act).releases = trace.releases + (match act with | .releaseProbe => 1 | _ => 0) := by
  cases act <;> simp [after,releases]

@[simp] theorem verdicts_after :
    (trace.after act).verdicts = trace.verdicts + (match act with | .recordFailure _ => 1 | .recordSuccess _ => 1 | _ => 0) := by
  cases act <;> simp [after,verdicts]

@[simp] theorem dispatched_after : (trace.after act).dispatched = (trace.dispatched || match act with | .dispatch => true | _ => false) := by
  cases act <;> simp [after,dispatched]

@[simp] theorem exit_after : (trace.after act).exit = trace.exit := rfl

variable (exit : Exit) (flow : Flow)

@[simp] theorem takes_ends : (ends exit flow : Trace Account).takes = 0 := rfl

@[simp] theorem refunds_ends : (ends exit flow : Trace Account).refunds = 0 := rfl

@[simp] theorem probes_ends : (ends exit flow : Trace Account).probes = 0 := rfl

@[simp] theorem releases_ends : (ends exit flow : Trace Account).releases = 0 := rfl

@[simp] theorem verdicts_ends : (ends exit flow : Trace Account).verdicts = 0 := rfl

@[simp] theorem dispatched_ends : (ends exit flow : Trace Account).dispatched = false := rfl

@[simp] theorem exit_ends : (ends exit flow : Trace Account).exit = exit := rfl

end Trace

/-- The tokens that a pass has to give back. -/
def owed (r : Request) : ℕ := if r.bypassPoolTokenBucket then 0 else 1

/-! ### After the request was sent -/

/-- A part of a pass that takes nothing and releases nothing. -/
structure Idle (trace : Trace Account) : Prop where
  takes : trace.takes = 0
  probes : trace.probes = 0
  releases : trace.releases = 0

theorem Idle.ends (exit : Exit) (flow : Flow) : Idle (.ends exit flow : Trace Account) := ⟨rfl,rfl,rfl⟩

variable {trace : Trace Account}

theorem Idle.recordFailure (idle : Idle trace) (account : Account) : Idle (trace.after (.recordFailure account)) :=
  ⟨by simp [idle.takes],by simp [idle.probes],by simp [idle.releases]⟩

theorem Idle.refund (idle : Idle trace) (r : Request) (account : Account) :
    Idle (refundConsumedPoolToken r account trace) := by
  unfold refundConsumedPoolToken
  split
  · exact idle
  · exact ⟨by simp [idle.takes],by simp [idle.probes],by simp [idle.releases]⟩

/-- The rest of a pass that has sent its request, with so many refunds at most. -/
structure Sent (most : ℕ) (trace : Trace Account) : Prop where
  idle : Idle trace
  refunds : trace.refunds ≤ most
  verdicts : trace.verdicts = if trace.exit.resolves then 1 else 0

theorem Sent.ends (most : ℕ) {exit : Exit} (silent : exit.resolves = false) (flow : Flow) : Sent most (.ends exit flow : Trace Account) :=
  ⟨Idle.ends exit flow,Nat.zero_le _,by simp [silent]⟩

theorem Sent.mono {most : ℕ} (sent : Sent 0 trace) : Sent most trace :=
  ⟨sent.idle,le_trans sent.refunds (Nat.zero_le _),sent.verdicts⟩

theorem Sent.refund (sent : Sent 0 trace) (r : Request) (account : Account) :
    Sent (owed r) (refundConsumedPoolToken r account trace) := by
  have refunds : trace.refunds = 0 := Nat.le_zero.mp sent.refunds
  refine ⟨sent.idle.refund r account,?_,?_⟩
  · unfold refundConsumedPoolToken owed
    split
    · exact sent.refunds
    · simp [refunds]
  · unfold refundConsumedPoolToken
    split
    · exact sent.verdicts
    · rw [verdicts_after]
      exact sent.verdicts

theorem Sent.verdict (most : ℕ) {exit : Exit} (tells : exit.resolves = true) (flow : Flow) (account : Account) :
    Sent most (after (.recordFailure account) (.ends exit flow)) :=
  ⟨(Idle.ends exit flow).recordFailure account,Nat.zero_le _,by simp [tells]⟩

theorem Sent.success (most : ℕ) (flow : Flow) (account : Account) :
    Sent most (after (.recordSuccess account) (.ends .succeeded flow)) :=
  ⟨⟨by simp,by simp,by simp⟩,by simp,by simp [Exit.resolves]⟩

theorem Sent.limited {most : ℕ} (sent : Sent most trace) (account : Account) :
    Sent most (trace.after (.recordRateLimit account)) :=
  ⟨⟨by simp [sent.idle.takes],by simp [sent.idle.probes],by simp [sent.idle.releases]⟩,by simpa using sent.refunds,
    (verdicts_after _ trace).trans sent.verdicts⟩

variable (r : Request) (account : Account) (reply : Reply Account)

theorem withCapacity_sent (hint : Option ℚ) {otherwise : Trace Account} (sent : Sent (owed r) otherwise) :
    Sent (owed r) (withCapacity r account reply hint otherwise) := by
  have waited (flow : Flow) : Sent 0 (.ends .capacityWait flow : Trace Account) := Sent.ends 0 rfl flow
  unfold withCapacity
  split
  · cases waitOutModelCapacity reply.wait hint with
    | retry => exact (waited .continues).refund r account
    | clientGone refunded =>
      cases refunded with
      | true => exact (waited .returns).refund r account
      | false => exact (waited .returns).mono
    | giveUp => exact sent
  · exact sent

theorem forwardOnly_sent (most : ℕ) : Sent most (forwardOnly reply) := by
  unfold forwardOnly
  cases reply.forwarding with
  | threw => exact Sent.ends most rfl _
  | complete => exact Sent.ends most rfl _
  | broke => exact Sent.ends most rfl _
  | unfinished => exact Sent.ends most rfl _

theorem afterRateLimit_sent : Sent (owed r) (afterRateLimit r account reply) := by
  unfold afterRateLimit
  split
  · exact Sent.ends _ rfl _
  split
  · exact Sent.ends _ rfl _
  refine withCapacity_sent r account reply _ (Sent.limited ?_ _)
  split
  · split
    · exact Sent.ends _ rfl _
    · exact Sent.ends _ rfl _
    · split
      · exact Sent.ends _ rfl _
      · exact Sent.ends _ rfl _
  · exact Sent.ends _ rfl _

theorem afterForbidden_sent (requestScope : Option Scope) : Sent (owed r) (afterForbidden r account requestScope reply) := by
  unfold afterForbidden
  split
  · split
    · exact (Sent.ends 0 rfl _).refund r account
    · refine Sent.refund ?_ r account
      split
      · exact Sent.verdict 0 rfl _ _
      · exact Sent.ends 0 rfl _
  · exact Sent.ends _ rfl _

theorem Sent.unauthorized (target : Option Account) (flow : Flow) : Sent 0 (match target with
    | some target => after (.recordFailure target) (.ends (.unauthorized true) flow)
    | none => .ends (.unauthorized false) flow) := by
  cases target with
  | none => exact Sent.ends 0 rfl flow
  | some target => exact Sent.verdict 0 rfl flow target

theorem afterUnauthorized_sent : Sent (owed r) (afterUnauthorized r account reply) := by
  unfold afterUnauthorized
  refine Sent.refund ?_ r account
  split
  · split
    · exact Sent.unauthorized _ .throws
    · exact Sent.unauthorized _ .returns
  split
  · exact Sent.unauthorized _ .returns
  · exact Sent.unauthorized _ .continues

theorem afterServerError_sent : Sent (owed r) (afterServerError r account reply) :=
  withCapacity_sent r account reply _ ((Sent.verdict 0 rfl _ _).refund r account)

theorem afterAnswer_sent (most : ℕ) : Sent most (afterAnswer r reply) := by
  unfold afterAnswer
  cases reply.forwarding with
  | threw => exact Sent.ends most rfl _
  | unfinished => exact Sent.ends most rfl _
  | broke =>
    dsimp only
    split
    · exact Sent.ends most rfl _
    · exact Sent.verdict most rfl _ _
  | complete =>
    dsimp only
    split
    · exact Sent.success most _ _
    · exact Sent.ends most rfl _

theorem afterReply_sent (pending : Option (List Scope)) : Sent (owed r) (afterReply r account pending reply) := by
  unfold afterReply
  split
  · split
    · exact (Sent.ends 0 rfl _).refund r account
    · exact (Sent.ends 0 rfl _).refund r account
  split
  · exact afterRateLimit_sent r account reply
  split
  · exact afterForbidden_sent r account reply _
  split
  · exact afterUnauthorized_sent r account reply
  split
  · exact forwardOnly_sent reply _
  split
  · exact forwardOnly_sent reply _
  split
  · exact afterServerError_sent r account reply
  split
  · split
    · exact Sent.ends _ rfl _
    · exact forwardOnly_sent reply _
  · exact afterAnswer_sent r reply _

theorem dispatch_sent (pending : Option (List Scope)) (fetched : Fetched Account) : Sent (owed r) (dispatch r account pending fetched) := by
  cases fetched with
  | replied reply => exact afterReply_sent r account reply pending
  | rejected clientGone redirectRejected =>
    refine Sent.refund ?_ r account
    split
    · exact Sent.ends 0 rfl _
    split
    · exact Sent.ends 0 rfl _
    split
    · exact Sent.ends 0 rfl _
    · exact Sent.ends 0 rfl _

/-! ### Before the request is sent -/

/-- A pass from its admission on, apart from the release of the probe. -/
structure Admitted (trace : Trace Account) : Prop where
  idle : Idle trace
  refunded : trace.dispatched = false → trace.exit.abandons = false → trace.refunds = owed r
  refundedOnce : trace.dispatched = true → trace.refunds ≤ owed r
  resolved : trace.dispatched = true → trace.verdicts = if trace.exit.resolves then 1 else 0

variable {r account}

theorem Admitted.abandoned {exit : Exit} (abandons : exit.abandons = true) (flow : Flow) : Admitted r (.ends exit flow : Trace Account) :=
  ⟨Idle.ends exit flow,fun _ keeps => absurd (abandons.symm.trans keeps) (by decide),(fun sent => nomatch sent),(fun sent => nomatch sent)⟩

theorem Admitted.recordFailure (admitted : Admitted r trace) (unsent : trace.dispatched = false) (account : Account) :
    Admitted r (trace.after (.recordFailure account)) :=
  ⟨admitted.idle.recordFailure account,fun _ keeps => by simpa using admitted.refunded unsent keeps,
    fun sent => absurd sent (by simp [unsent]),fun sent => absurd sent (by simp [unsent])⟩

theorem Admitted.refund (idle : Idle trace) (unsent : trace.dispatched = false) (refunds : trace.refunds = 0)
    (account : Account) : Admitted r (refundConsumedPoolToken r account trace) := by
  have never : (refundConsumedPoolToken r account trace).dispatched = false := by
    unfold refundConsumedPoolToken
    split
    · exact unsent
    · simp [unsent]
  refine ⟨idle.refund r account,fun _ _ => ?_,fun sent => absurd sent (by simp [never]),fun sent => absurd sent (by simp [never])⟩
  unfold refundConsumedPoolToken owed
  split
  · exact refunds
  · simp [refunds]

theorem Admitted.sent (sent : Sent (owed r) trace) : Admitted r (trace.after .dispatch) :=
  ⟨⟨by simp [sent.idle.takes],by simp [sent.idle.probes],by simp [sent.idle.releases]⟩,fun unsent => absurd unsent (by simp),
    fun _ => by simpa using sent.refunds,fun _ => (verdicts_after _ trace).trans sent.verdicts⟩

variable (a : Answers Account)

theorem afterEligibility_admitted : Admitted r (afterEligibility r account a) := by
  unfold afterEligibility
  split
  · exact Admitted.abandoned rfl _
  · exact Admitted.sent (dispatch_sent r account _ _)

theorem afterChecks_admitted (accountId : String) : Admitted r (afterChecks r account accountId a) := by
  unfold afterChecks
  split
  · exact Admitted.refund (Idle.ends _ _) rfl rfl account
  · cases a.readNativeAccountStorage with
    | none => exact afterEligibility_admitted a
    | some read =>
      cases read with
      | threw => exact Admitted.abandoned rfl _
      | read disk =>
        dsimp only
        split
        · exact afterEligibility_admitted a
        · exact Admitted.abandoned rfl _

theorem afterRefresh_admitted : Admitted r (afterRefresh r account a) := by
  unfold afterRefresh
  dsimp only
  split
  · exact Admitted.refund (Idle.ends _ _) rfl rfl account
  split
  · exact Admitted.refund (Idle.ends _ _) rfl rfl account
  split
  · exact Admitted.refund ((Idle.ends _ _).recordFailure account) (by simp) (by simp) account
  · exact afterChecks_admitted a _

theorem Admitted.recorded (recorded : Option Account) {trace : Trace Account} (admitted : Admitted r trace) (unsent : trace.dispatched = false) :
    Admitted r (match recorded with
      | some account => trace.after (.recordFailure account)
      | none => trace) := by
  cases recorded with
  | none => exact admitted
  | some account => exact admitted.recordFailure unsent account

theorem refreshAndSend_admitted (selected : Account) : Admitted r (refreshAndSend r selected a) := by
  unfold refreshAndSend
  cases a.ensureFreshAccessToken with
  | none => exact Admitted.abandoned rfl _
  | some refreshed =>
    cases refreshed with
    | ok account =>
      dsimp only
      split
      · exact afterRefresh_admitted a
      · exact Admitted.abandoned rfl _
    | selectionRestart =>
      dsimp only
      split
      · exact Admitted.refund (Idle.ends _ _) rfl rfl selected
      · exact Admitted.abandoned rfl _
    | failed recorded retryable invalidated coordinationFailed =>
      dsimp only
      -- The refresh records a failure before anything else becomes of the pass.
      refine Admitted.recorded recorded ?_ ?_
      · split
        · exact Admitted.refund (Idle.ends _ _) rfl rfl selected
        · exact Admitted.abandoned rfl _
      · unfold refundConsumedPoolToken
        split
        · split <;> simp
        · rfl

theorem Accounts.ends (exit : Exit) (flow : Flow) : Accounts (.ends exit flow : Trace Account) :=
  ⟨⟨Nat.zero_le _,Nat.zero_le _⟩,fun _ => rfl,fun _ _ => rfl,(fun sent => nomatch sent),(fun sent => nomatch sent),(fun sent => nomatch sent)⟩

section
variable (r : Request) (selected : Account) (trace : Trace Account)

theorem owed_le : owed r ≤ 1 := by
  unfold owed
  split <;> decide

theorem takes_takeToken : (takeToken r selected trace).takes = trace.takes + owed r := by
  unfold takeToken owed
  split <;> simp

theorem refunds_takeToken : (takeToken r selected trace).refunds = trace.refunds := by
  unfold takeToken
  split <;> simp

theorem probes_takeToken : (takeToken r selected trace).probes = trace.probes := by
  unfold takeToken
  split <;> simp

theorem releases_takeToken : (takeToken r selected trace).releases = trace.releases := by
  unfold takeToken
  split <;> simp

theorem verdicts_takeToken : (takeToken r selected trace).verdicts = trace.verdicts := by
  unfold takeToken
  split <;> simp

theorem dispatched_takeToken : (takeToken r selected trace).dispatched = trace.dispatched := by
  unfold takeToken
  split <;> simp

theorem exit_takeToken : (takeToken r selected trace).exit = trace.exit := by
  unfold takeToken
  split <;> rfl

end

/-- A pass whose token is still to be taken. -/
structure Ready (r : Request) (trace : Trace Account) : Prop where
  takes : trace.takes = 0
  probes : trace.probes ≤ 1
  released : trace.dispatched = false → trace.releases = trace.probes
  refunded : trace.dispatched = false → trace.exit.abandons = false → trace.refunds = owed r
  kept : trace.dispatched = true → trace.releases = 0
  refundedOnce : trace.dispatched = true → trace.refunds ≤ owed r
  resolved : trace.dispatched = true → trace.verdicts = if trace.exit.resolves then 1 else 0

theorem Admitted.unprobed (admitted : Admitted r trace) : Ready r trace :=
  ⟨admitted.idle.takes,by simp [admitted.idle.probes],fun _ => by rw [admitted.idle.releases,admitted.idle.probes],admitted.refunded,
    fun _ => admitted.idle.releases,admitted.refundedOnce,admitted.resolved⟩

theorem releaseUnused_sent (sent : trace.dispatched = true) : releaseUnused true trace = trace := by
  rw [releaseUnused,sent]
  rfl

theorem releaseUnused_unsent (unsent : trace.dispatched = false) :
    releaseUnused true trace = { trace with acts := trace.acts ++ [.releaseProbe] } := by
  rw [releaseUnused,unsent]
  rfl

theorem Admitted.probed (admitted : Admitted r trace) : Ready r ((releaseUnused true trace).after .acquireProbe) := by
  have idle := admitted.idle
  cases sent : trace.dispatched with
  | true =>
    rw [releaseUnused_sent sent]
    have goes : (trace.after .acquireProbe).dispatched = true := by simp [sent]
    exact ⟨by simp [idle.takes],by simp [idle.probes],fun unsent => absurd (goes.symm.trans unsent) (by decide),
      fun unsent => absurd (goes.symm.trans unsent) (by decide),fun _ => by simp [idle.releases],
      fun _ => by simpa using admitted.refundedOnce sent,fun _ => (verdicts_after _ trace).trans (admitted.resolved sent)⟩
  | false =>
    rw [releaseUnused_unsent sent]
    have takes := idle.takes
    have probes := idle.probes
    have releases := idle.releases
    have refunded := admitted.refunded sent
    unfold Trace.takes at takes
    unfold Trace.probes at probes
    unfold Trace.releases at releases
    unfold Trace.refunds at refunded
    unfold dispatched at sent
    have stays : (after .acquireProbe { trace with acts := trace.acts ++ [.releaseProbe] }).dispatched = false := by
      rw [dispatched_after,dispatched,List.any_append,sent]
      rfl
    refine ⟨?_,?_,fun _ => ?_,fun _ keeps => ?_,fun goes => absurd (stays.symm.trans goes) (by decide),
      fun goes => absurd (stays.symm.trans goes) (by decide),fun goes => absurd (stays.symm.trans goes) (by decide)⟩
    · rw [takes_after,Trace.takes,List.countP_append,takes]
      rfl
    · rw [probes_after,Trace.probes,List.countP_append,probes]
      exact le_refl _
    · rw [releases_after,probes_after,Trace.releases,Trace.probes,List.countP_append,List.countP_append,releases,probes]
      rfl
    · rw [refunds_after,Trace.refunds,List.countP_append,refunded keeps]
      rfl

theorem Ready.accounts (ready : Ready r trace) (selected : Account) : Accounts (takeToken r selected trace) := by
  constructor
  · rw [takes_takeToken,probes_takeToken,ready.takes,Nat.zero_add]
    exact ⟨owed_le r,ready.probes⟩
  · rw [dispatched_takeToken,releases_takeToken,probes_takeToken]
    exact ready.released
  · rw [dispatched_takeToken,exit_takeToken,refunds_takeToken,takes_takeToken,ready.takes,Nat.zero_add]
    exact ready.refunded
  · rw [dispatched_takeToken,releases_takeToken]
    exact ready.kept
  · rw [dispatched_takeToken,refunds_takeToken,takes_takeToken,ready.takes,Nat.zero_add]
    exact ready.refundedOnce
  · rw [dispatched_takeToken,verdicts_takeToken,exit_takeToken]
    exact ready.resolved

theorem admittedPass_accounts (selected : Account) (probe : Bool) : Accounts (admittedPass r selected probe a) := by
  have admitted : Admitted r (refreshAndSend r selected a) := refreshAndSend_admitted a selected
  cases probe with
  | false => exact admitted.unprobed.accounts selected
  | true => exact admitted.probed.accounts selected

end

theorem selectionPass_accounts {Account Key : Type} [DecidableEq Key] (r : Request) (selected : Account) (bucket : TokenBucketConfig)
    (circuit : CircuitBreakerConfig) (now : ℚ) (key : Key) (gates : Gates Key) (a : Answers Account) :
    Accounts (selectionPass r selected bucket circuit now key gates a) := by
  unfold selectionPass
  dsimp only
  split
  · exact admittedPass_accounts a selected false
  split
  · exact admittedPass_accounts a selected _
  · exact Accounts.ends _ _
  · unfold takeToken refundConsumedPoolToken
    cases r.bypassPoolTokenBucket with
    | true => exact Accounts.ends _ _
    | false => exact ⟨by simp,by simp,by simp,by simp,by simp,by simp⟩

/-- A transport error says nothing about the account: its probe is neither resolved nor
    released. -/
theorem transport_error_keeps_probe :
    ¬Balanced (selectionPass { route := .responses } (0 : ℕ) {} {} 30000 () ⟨fun _ => none,{ state := .open_ }⟩
      { ensureFreshAccessToken := some (.ok 0)
        resolveAccountId := some "org"
        fetched := .rejected false false }) := by
  decide +kernel

end CodexMultiAuth.RuntimeProxy
