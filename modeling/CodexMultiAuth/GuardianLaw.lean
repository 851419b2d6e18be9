import CodexMultiAuth.RefreshGuardian
import CodexMultiAuth.Runs

/-!
Which runs of the guardian respect the credential that a row holds. A refresh that
is started and an outcome that is applied are compared with the row itself, an
object that keeps its reference while its token changes.
-/
namespace CodexMultiAuth.RefreshGuardian
open List
set_option linter.unusedSectionVars false

def Flight.source : Flight → LiveAccount
  | .refreshing source _ => source
  | .outcome source _ => source
  | .committing source _ => source
  | .persisting source _ _ => source
  | .failing source _ _ => source
  | .threw source _ _ => source
  | .uncommitted source _ => source
  | .committed source _ _ => source

/-- The token that the outcome was obtained for, or what the outcome has put in its place. -/
def Flight.token : Flight → String
  | .persisting _ auth (some _) => auth.refresh
  | .committed _ auth _ => auth.refresh
  | flight => flight.source.refreshToken

/-- What an outcome changes of a row: the credential, the cooldown, the failures, the limits and the flag. -/
def LiveAccount.guarded (account : LiveAccount) :=
  (account.refreshToken,account.access,account.expires,account.coolingDownUntil,account.cooldownReason,
    account.consecutiveAuthFailures,account.rateLimitResetTimes,account.enabled)

def starts (now bufferMs : ℚ) (queue : RefreshQueue) (source : LiveAccount) : Prop :=
  shouldRefreshProactively now bufferMs source = true ∧ (nonEmpty source.refreshToken).isSome ∧ queue.joins source.refreshToken = false

/-- The row that a snapshot was taken of is there with the token of the snapshot. -/
def HoldsSnapshot (accounts : List LiveAccount) (source : LiveAccount) : Prop :=
  ∃ account ∈ accounts, account.ref = source.ref ∧ account.refreshToken = source.refreshToken

def StartsCurrent (s : State) (now bufferMs : ℚ) : Prop :=
  ∀ source rest, s.waiting = source :: rest → starts now bufferMs s.queue source → HoldsSnapshot s.accounts source

/-- Only rows with the token of what is in flight are changed. -/
def ChangesOwn (s after : State) : Prop :=
  ∀ (i : Nat) (account : LiveAccount), s.accounts[i]? = some account → ∃ changed, after.accounts[i]? = some changed ∧
    (changed.guarded ≠ account.guarded → ∃ flight, s.flight = some flight ∧ account.refreshToken = flight.token)

section
variable [Host]

/-- A refresh is started with the current token of its row, and an outcome changes only a row with the token that it is for. -/
def Obeys (bufferMs : ℚ) (s : State) : Action → Prop
  | .outside _ _ => True
  | .tick now =>
    StartsCurrent { s with waiting := snapshot now bufferMs s.accounts } now bufferMs ∧ ChangesOwn s (step bufferMs s (.tick now))
  | .next now => StartsCurrent s now bufferMs ∧ ChangesOwn s (step bufferMs s (.next now))
  | action => ChangesOwn s (step bufferMs s action)

def Flight.found (accounts : List LiveAccount) : Flight → Option Nat
  | .outcome source result =>
    match result.reason,result.tokenResult with
    | .success,some (.success _) => none
    | .notNeeded,_ => none
    | _,_ => getAccountByIdentity accounts source none
  | .committing source auth => getAccountByIdentity accounts source (some auth)
  | .failing source auth error => if error = .fatal then none else getAccountByIdentity accounts source (some auth)
  | .threw source auth _ => blamed accounts source auth
  | .uncommitted source auth => blamed accounts source auth
  | _ => none

def FindsOwn (s : State) : Prop :=
  ∀ flight i account, s.flight = some flight → flight.found s.accounts = some i → s.accounts[i]? = some account →
    account.ref = flight.source.ref

/-- Nobody else rotates an account that the tick works on or removes one that it has still to do, and no neighbour is taken
    for it. -/
def Undisturbed (s : State) : Action → Prop
  | .outside accounts _ =>
    (∀ source ∈ s.waiting, HoldsSnapshot accounts source) ∧
      ∀ flight, s.flight = some flight → ∀ account ∈ accounts, account.ref = flight.source.ref → account.refreshToken = flight.token
  | .apply _ => FindsOwn s
  | .commit _ resolved => resolved = true → FindsOwn s
  | .settle _ => FindsOwn s
  | _ => True

end

structure Start (s : State) : Prop where
  pool : Pool s.accounts
  waiting : s.waiting = []
  flight : s.flight = none

/-! ### Changes of one object -/

/-- Only the object `ref` is changed, and it has the token `token` then. -/
structure Touches (ref : Nat) (token : String) (rows after : List LiveAccount) : Prop where
  length : after.length = rows.length
  kept : ∀ (i : Nat) account, rows[i]? = some account → ∃ changed, after[i]? = some changed ∧ changed.ref = account.ref ∧
    changed.index = account.index ∧ (account.ref ≠ ref → changed = account) ∧ (account.ref = ref → changed.refreshToken = token)

section
variable {ref : Nat} {token : String} {rows after : List LiveAccount}

theorem Pool.unique (pool : Pool rows) {i j : Nat} {a b : LiveAccount} (first : rows[i]? = some a) (second : rows[j]? = some b)
    (same : a.ref = b.ref) : i = j := by
  obtain ⟨hi,rfl⟩ := List.getElem?_eq_some_iff.mp first
  obtain ⟨hj,rfl⟩ := List.getElem?_eq_some_iff.mp second
  have refs := pool.refs
  rw [nodup_iff_injective_get] at refs
  have positions := @refs ⟨i,by simpa using hi⟩ ⟨j,by simpa using hj⟩ (by simpa using same)
  exact congrArg Fin.val positions

section
variable (touches : Touches ref token rows after)
include touches

theorem Touches.refs :
    after.map (fun account => account.ref) = rows.map (fun account => account.ref) := by
  refine ext_getElem? (fun i => ?_)
  rw [List.getElem?_map,List.getElem?_map]
  rcases found : rows[i]? with _ | account
  · rw [List.getElem?_eq_none_iff,← touches.length,← List.getElem?_eq_none_iff] at found
    rw [found]
  · obtain ⟨changed,there,same,_⟩ := touches.kept i account found
    rw [there,Option.map_some,Option.map_some,same]

theorem Touches.source {i : Nat} {changed : LiveAccount} (there : after[i]? = some changed) :
    ∃ account, rows[i]? = some account ∧ changed.ref = account.ref ∧ changed.index = account.index ∧
      (account.ref ≠ ref → changed = account) ∧ (account.ref = ref → changed.refreshToken = token) := by
  have bound : i < rows.length := by
    rw [← touches.length]
    exact (List.getElem?_eq_some_iff.mp there).1
  obtain ⟨other,found,facts⟩ := touches.kept i rows[i] (List.getElem?_eq_getElem bound)
  obtain rfl := Option.some.inj (there.symm.trans found)
  exact ⟨rows[i],List.getElem?_eq_getElem bound,facts⟩

theorem Touches.pool (pool : Pool rows) : Pool after := by
  refine ⟨?_,?_⟩
  · rw [touches.refs]
    exact pool.refs
  · intro i changed there
    obtain ⟨account,found,_,index,_⟩ := touches.source there
    rw [index]
    exact pool.indexes i account found

theorem Touches.holdsSnapshot {source : LiveAccount} (other : source.ref ≠ ref)
    (holds : HoldsSnapshot rows source) : HoldsSnapshot after source := by
  obtain ⟨account,member,same,current⟩ := holds
  obtain ⟨i,found⟩ := mem_iff_getElem?.mp member
  obtain ⟨changed,there,_,_,untouched,_⟩ := touches.kept i account found
  obtain rfl := untouched (same ▸ other)
  exact ⟨changed,mem_of_getElem? there,same,current⟩

end

theorem touches_refl (held : ∀ account ∈ rows, account.ref = ref → account.refreshToken = token) : Touches ref token rows rows :=
  ⟨rfl,fun _ account found => ⟨account,found,rfl,rfl,fun _ => rfl,held account (mem_of_getElem? found)⟩⟩

theorem Touches.trans {middle : List LiveAccount} {between : String} (first : Touches ref between rows middle)
    (second : Touches ref token middle after) : Touches ref token rows after := by
  refine ⟨second.length.trans first.length,?_⟩
  intro i account found
  obtain ⟨halfway,there,same,index,untouched,_⟩ := first.kept i account found
  obtain ⟨changed,last,same',index',untouched',holds⟩ := second.kept i halfway there
  refine ⟨changed,last,same'.trans same,index'.trans index,?_,?_⟩
  · intro other
    rw [untouched' (same ▸ other),untouched other]
  · intro own
    exact holds (same.trans own)

def KeepsPlace (change : LiveAccount → LiveAccount) : Prop := ∀ account, (change account).ref = account.ref ∧ (change account).index = account.index

theorem touches_object {change : LiveAccount → LiveAccount} (place : KeepsPlace change)
    (holds : ∀ account ∈ rows, account.ref = ref → (change account).refreshToken = token) :
    Touches ref token rows (rows.map (fun account => if account.ref = ref then change account else account)) := by
  refine ⟨length_map ..,?_⟩
  intro i account found
  refine ⟨if account.ref = ref then change account else account,by rw [List.getElem?_map,found]; rfl,?_⟩
  by_cases own : account.ref = ref
  · rw [if_pos own]
    exact ⟨(place account).1,(place account).2,fun other => absurd own other,fun _ => holds account (mem_of_getElem? found) own⟩
  · rw [if_neg own]
    exact ⟨rfl,rfl,fun _ => rfl,fun same => absurd same own⟩

theorem touches_modify (pool : Pool rows) {i : Nat} {account : LiveAccount} (found : rows[i]? = some account) (own : account.ref = ref)
    {change : LiveAccount → LiveAccount} (place : KeepsPlace change) (holds : (change account).refreshToken = token) :
    Touches ref token rows (rows.modify i change) := by
  refine ⟨length_modify ..,?_⟩
  intro j other there
  rw [List.getElem?_modify,there]
  by_cases same : i = j
  · subst same
    obtain rfl := Option.some.inj (found.symm.trans there)
    simp only [if_true]
    exact ⟨_,rfl,(place account).1,(place account).2,fun foreign => absurd own foreign,fun _ => holds⟩
  · simp only [if_neg same]
    refine ⟨other,rfl,rfl,rfl,fun _ => rfl,?_⟩
    intro again
    exact absurd (pool.unique found there (own.trans again.symm)) same

end

section
variable (bufferMs now : ℚ) (auth : OAuthAuthDetails) (account : LiveAccount)

def KeepsToken (change : LiveAccount → LiveAccount) : Prop := ∀ account, (change account).refreshToken = account.refreshToken

theorem penalize_place (reason : CooldownReason) : KeepsPlace (penalize bufferMs now reason) := by
  intro account
  cases reason <;> exact ⟨rfl,rfl⟩

theorem penalize_token (reason : CooldownReason) : KeepsToken (penalize bufferMs now reason) := by
  intro account
  cases reason <;> rfl

theorem recordSuccess_place : KeepsPlace (recordSuccess now) := by
  intro account
  unfold recordSuccess
  split <;> exact ⟨rfl,rfl⟩

theorem recordSuccess_token : KeepsToken (recordSuccess now) := by
  intro account
  unfold recordSuccess
  split <;> rfl

@[simp] theorem updateFromAuth_ref : (updateFromAuth auth account).ref = account.ref := by
  unfold updateFromAuth
  cases auth.accountId with
  | none => rfl
  | some accountId => simp only []; split <;> rfl

@[simp] theorem updateFromAuth_index : (updateFromAuth auth account).index = account.index := by
  unfold updateFromAuth
  cases auth.accountId with
  | none => rfl
  | some accountId => simp only []; split <;> rfl

theorem commitLive_place : KeepsPlace (commitLive now auth) := by
  intro account
  unfold commitLive
  split <;> exact ⟨updateFromAuth_ref auth account,updateFromAuth_index auth account⟩

theorem commitLive_token : (commitLive now auth account).refreshToken = auth.refresh := by
  unfold commitLive
  split <;> rfl

theorem rescueLive_place : KeepsPlace (rescueLive auth) := by
  intro account
  unfold rescueLive
  simp only []
  split <;> exact ⟨updateFromAuth_ref auth account,updateFromAuth_index auth account⟩

theorem rescueLive_token : (rescueLive auth account).refreshToken = auth.refresh := by
  unfold rescueLive
  simp only []
  split <;> rfl

end

/-- The objects that a commit has taken down are the snapshot's. -/
def Flight.Own : Flight → Prop
  | .persisting source _ (some previous) => previous.ref = source.ref ∧ previous.refreshToken = source.refreshToken
  | .committed source _ ref => ref = source.ref
  | _ => True

/-- Every row of the snapshot that the tick has still to do is current, and so is the row of what is in flight. -/
structure Sound (s : State) : Prop where
  pool : Pool s.accounts
  apart : (s.waiting.map (fun source => source.ref)).Nodup
  waiting : ∀ source ∈ s.waiting, HoldsSnapshot s.accounts source
  other : ∀ flight, s.flight = some flight → ∀ source ∈ s.waiting, source.ref ≠ flight.source.ref
  held : ∀ flight, s.flight = some flight → ∀ account ∈ s.accounts, account.ref = flight.source.ref → account.refreshToken = flight.token
  own : ∀ flight, s.flight = some flight → flight.Own

/-- A piece of work on what is in flight: it changes only the object of the snapshot, and what it leaves in flight is about
    the same object, with the token that this has by then. -/
structure Works (flight : Flight) (s after : State) : Prop where
  touches : ∃ token, Touches flight.source.ref token s.accounts after.accounts ∧
    ∀ left, after.flight = some left → left.source.ref = flight.source.ref ∧ left.token = token ∧ left.Own
  waiting : after.waiting = s.waiting

section
variable {s after : State} {flight : Flight}

theorem Start.sound (start : Start s) : Sound s := by
  refine ⟨start.pool,?_,?_,?_,?_,?_⟩
  · rw [start.waiting]
    exact nodup_nil
  · rw [start.waiting]
    exact forall_mem_nil _
  all_goals
    intro flight flying
    rw [start.flight] at flying
    cases flying

theorem Works.sound (works : Works flight s after) (sound : Sound s) (flying : s.flight = some flight) : Sound after := by
  obtain ⟨⟨token,touches,left⟩,waiting⟩ := works
  refine ⟨touches.pool sound.pool,?_,?_,?_,?_,?_⟩
  · rw [waiting]
    exact sound.apart
  · rw [waiting]
    intro source member
    exact touches.holdsSnapshot (sound.other flight flying source member) (sound.waiting source member)
  · rw [waiting]
    intro next still source member
    rw [(left next still).1]
    exact sound.other flight flying source member
  · intro next still account member same
    obtain ⟨object,current,_⟩ := left next still
    obtain ⟨i,there⟩ := mem_iff_getElem?.mp member
    obtain ⟨before,_,ref,_,_,holds⟩ := touches.source there
    rw [current]
    exact holds (ref.symm.trans (same.trans object))
  · exact fun next still => (left next still).2.2

theorem Works.changesOwn (works : Works flight s after) (sound : Sound s) (flying : s.flight = some flight) : ChangesOwn s after := by
  obtain ⟨⟨token,touches,_⟩,_⟩ := works
  intro i account found
  obtain ⟨changed,there,_,_,untouched,_⟩ := touches.kept i account found
  refine ⟨changed,there,?_⟩
  intro differs
  refine ⟨flight,flying,sound.held flight flying account (mem_of_getElem? found) ?_⟩
  by_contra foreign
  rw [untouched foreign] at differs
  exact differs rfl

theorem works_idle (sound : Sound s) (flying : s.flight = some flight) (accounts : after.accounts = s.accounts)
    (waiting : after.waiting = s.waiting)
    (left : ∀ next, after.flight = some next → next.source.ref = flight.source.ref ∧ next.token = flight.token ∧ next.Own) :
    Works flight s after := by
  refine ⟨⟨flight.token,?_,left⟩,waiting⟩
  rw [accounts]
  exact touches_refl (sound.held flight flying)

theorem works_modify (sound : Sound s) (flying : s.flight = some flight) {position : Option Nat}
    (own : ∀ i account, position = some i → s.accounts[i]? = some account → account.ref = flight.source.ref)
    {change : LiveAccount → LiveAccount} (place : KeepsPlace change) (token : KeepsToken change) : Works flight s (s.modify position change).landed := by
  refine ⟨⟨flight.token,?_,fun _ still => nomatch still⟩,by cases position <;> rfl⟩
  cases position with
  | none => exact touches_refl (sound.held flight flying)
  | some i =>
    rcases found : s.accounts[i]? with _ | account
    · have same : s.accounts.modify i change = s.accounts :=
        modify_eq_self (List.getElem?_eq_none_iff.mp found)
      show Touches _ _ s.accounts (s.accounts.modify i change)
      rw [same]
      exact touches_refl (sound.held flight flying)
    · have ref := own i account rfl found
      refine touches_modify sound.pool found ref place ?_
      rw [token account]
      exact sound.held flight flying account (mem_of_getElem? found) ref

end

/-! ### One piece of work -/

section
variable [Host] {s : State} {flight : Flight} {bufferMs now : ℚ}

theorem FindsOwn.at (finds : FindsOwn s) (flying : s.flight = some flight) {position : Option Nat} (looks : flight.found s.accounts = position) :
    ∀ i account, position = some i → s.accounts[i]? = some account → account.ref = flight.source.ref := by
  intro i account found there
  exact finds flight i account flying (looks.trans found) there

variable {source : LiveAccount}

theorem disabled_works (sound : Sound s) {result : ProactiveRefreshResult}
    (flying : s.flight = some (.outcome source result)) {i : Nat} {found : LiveAccount} (there : s.accounts[i]? = some found)
    (own : found.ref = source.ref) :
    Works (.outcome source result) s ((s.modify (some i) (penalize bufferMs now .authFailure)).setAccountEnabled found.index false).landed := by
  have current : found.refreshToken = source.refreshToken :=
    sound.held _ flying found (mem_of_getElem? there) own
  have first : Touches source.ref source.refreshToken s.accounts (s.accounts.modify i (penalize bufferMs now .authFailure)) :=
    touches_modify sound.pool there own (penalize_place bufferMs now .authFailure)
      ((penalize_token bufferMs now .authFailure found).trans current)
  obtain ⟨changed,after,ref,_,_,token⟩ := first.kept i found there
  refine ⟨⟨source.refreshToken,first.trans ?_,fun _ still => nomatch still⟩,rfl⟩
  -- the row carries its own position, so the flag is cleared on the same row
  rw [sound.pool.indexes i found there]
  exact touches_modify (first.pool sound.pool) after (ref.trans own) (fun _ => ⟨rfl,rfl⟩) (token own)

theorem apply_works (sound : Sound s) {result : ProactiveRefreshResult}
    (flying : s.flight = some (.outcome source result)) (finds : FindsOwn s) :
    Works (.outcome source result) s (applyRefreshOutcome bufferMs now s source result) := by
  obtain ⟨tokenResult,reason⟩ := result
  have cooled : ∀ cause, Flight.found s.accounts (.outcome source ⟨tokenResult,reason⟩) = getAccountByIdentity s.accounts source none →
      Works (.outcome source ⟨tokenResult,reason⟩) s
        (s.modify (getAccountByIdentity s.accounts source none) (penalize bufferMs now cause)).landed :=
    fun cause looks => works_modify sound flying (finds.at flying looks) (penalize_place bufferMs now cause) (penalize_token bufferMs now cause)
  cases reason with
  | notNeeded => exact works_idle sound flying rfl rfl (fun _ still => nomatch still)
  | failed => exact cooled (classifyFailureReason tokenResult) rfl
  | success =>
    rcases tokenResult with _ | auth | _
    · exact cooled .networkError rfl
    · refine works_idle sound flying rfl rfl ?_
      rintro _ ⟨⟩
      exact ⟨rfl,rfl,trivial⟩
    · exact cooled .networkError rfl
  | noRefreshToken =>
    have own : ∀ i account, getAccountByIdentity s.accounts source none = some i → s.accounts[i]? = some account →
        account.ref = source.ref := finds.at flying rfl
    simp only [applyRefreshOutcome]
    rcases found : getAccountByIdentity s.accounts source none with _ | i
    · exact works_idle sound flying rfl rfl (fun _ still => nomatch still)
    · rcases there : s.accounts[i]? with _ | account
      · simp only [Option.bind_some,there]
        exact works_idle sound flying rfl rfl (fun _ still => nomatch still)
      · simp only [Option.bind_some,there]
        exact disabled_works sound flying there (own i account found there)

theorem credential_works (sound : Sound s) (flying : s.flight = some flight) (token : flight.token = flight.source.refreshToken)
    {position : Option Nat} (own : ∀ i account, position = some i → s.accounts[i]? = some account → account.ref = flight.source.ref)
    (change : LiveAccount → LiveAccount) (place : KeepsPlace change) {refresh : String}
    (fresh : ∀ account, (change account).refreshToken = refresh) (next : Option LiveAccount → Flight)
    (source : ∀ previous, (next previous).source = flight.source) (missing : (next none).token = flight.token ∧ (next none).Own)
    (there : ∀ previous : LiveAccount, previous.ref = flight.source.ref → previous.refreshToken = flight.source.refreshToken →
      (next (some previous)).token = refresh ∧ (next (some previous)).Own) :
    Works flight s { s.modify position change with flight := some (next (position.bind (fun i => s.accounts[i]?))) } := by
  rcases found : position.bind (fun i => s.accounts[i]?) with _ | account
  · have same : (s.modify position change).accounts = s.accounts := by
      cases position with
      | none => rfl
      | some i => exact modify_eq_self (List.getElem?_eq_none_iff.mp found)
    refine works_idle sound flying same (by cases position <;> rfl) ?_
    rintro _ ⟨⟩
    exact ⟨by rw [source none],missing⟩
  · obtain ⟨i,rfl,present⟩ := Option.bind_eq_some_iff.mp found
    have ref := own i account rfl present
    have current : account.refreshToken = flight.source.refreshToken := by
      rw [← token]
      exact sound.held flight flying account (mem_of_getElem? present) ref
    refine ⟨⟨refresh,touches_modify sound.pool present ref place (fresh account),?_⟩,rfl⟩
    rintro _ ⟨⟩
    exact ⟨by rw [source],there account ref current⟩

variable {auth : OAuthAuthDetails}

theorem commit_works (sound : Sound s) (flying : s.flight = some (.committing source auth))
    {resolved : Bool} (finds : resolved = true → FindsOwn s) :
    Works (.committing source auth) s (commitRefreshedAuth now s source auth resolved) := by
  cases resolved with
  | false =>
    refine works_idle sound flying rfl rfl ?_
    rintro _ ⟨⟩
    exact ⟨rfl,rfl,trivial⟩
  | true =>
    exact credential_works sound flying rfl ((finds rfl).at flying rfl) (commitLive now auth) (commitLive_place now auth)
      (commitLive_token now auth) (fun previous => .persisting source auth previous) (fun _ => rfl) ⟨rfl,trivial⟩
      (fun _ ref token => ⟨rfl,ref,token⟩)

theorem rescue_works (sound : Sound s) {error : CommitError}
    (flying : s.flight = some (.failing source auth error)) (finds : FindsOwn s) :
    Works (.failing source auth error) s (rescueCommit s source auth error) := by
  have own := finds.at flying rfl
  have works := credential_works sound flying rfl own (rescueLive auth) (rescueLive_place auth) (rescueLive_token auth)
    (fun previous => previous.elim (.threw source auth (decide (error = .retryable))) fun found => .committed source auth found.ref)
    (by rintro (_ | _) <;> rfl) ⟨rfl,trivial⟩ (fun _ ref _ => ⟨rfl,ref⟩)
  simp only [Flight.found] at works
  simp only [rescueCommit]
  rcases found : (if error = .fatal then none else getAccountByIdentity s.accounts source (some auth)).bind (fun i => s.accounts[i]?) with
    _ | account
  · refine works_idle sound flying rfl rfl ?_
    rintro _ ⟨⟩
    exact ⟨rfl,rfl,trivial⟩
  · simp only [found] at works
    exact works

theorem restored_works (sound : Sound s) {source previous : LiveAccount}
    (flying : s.flight = some (.persisting source auth (some previous))) (error : CommitError) :
    Works (.persisting source auth (some previous)) s
      { s.modifyObject previous.ref (restoreLive previous) with flight := some (.failing source auth error) } := by
  have own : previous.ref = source.ref ∧ previous.refreshToken = source.refreshToken := sound.own _ flying
  refine ⟨⟨source.refreshToken,?_,?_⟩,rfl⟩
  · rw [← own.2]
    simp only [State.modifyObject,own.1]
    exact touches_object (fun _ => ⟨rfl,rfl⟩) (fun _ _ _ => rfl)
  · rintro _ ⟨⟩
    exact ⟨rfl,rfl,trivial⟩

theorem settled_works (sound : Sound s) {ref : Nat}
    (flying : s.flight = some (.committed source auth ref)) :
    Works (.committed source auth ref) s (s.modifyObject ref (recordSuccess now)).landed := by
  obtain rfl : ref = source.ref := sound.own _ flying
  refine ⟨⟨auth.refresh,?_,fun _ still => nomatch still⟩,rfl⟩
  refine touches_object (recordSuccess_place now) (fun account member same => ?_)
  rw [recordSuccess_token now account]
  exact sound.held _ flying account member same

end

section
variable [Host] {s : State} {bufferMs now : ℚ}

theorem changesOwn_refl {after : State} (same : after.accounts = s.accounts) : ChangesOwn s after := by
  intro i account found
  exact ⟨account,same ▸ found,fun differs => absurd rfl differs⟩

variable {accounts : List LiveAccount}
variable {source : LiveAccount}

theorem snapshot_holds (member : source ∈ snapshot now bufferMs accounts) :
    HoldsSnapshot accounts source :=
  ⟨source,mem_of_mem_filter (mem_of_mem_filter member),rfl,rfl⟩

theorem snapshot_apart (pool : Pool accounts) :
    ((snapshot now bufferMs accounts).map (fun source => source.ref)).Nodup :=
  pool.refs.sublist ((filter_sublist.trans filter_sublist).map _)

theorem Sound.tick (sound : Sound s) (flying : s.flight = none) : Sound { s with waiting := snapshot now bufferMs s.accounts } := by
  refine ⟨sound.pool,snapshot_apart sound.pool,fun _ member => snapshot_holds member,?_,sound.held,sound.own⟩
  intro flight still
  rw [flying] at still
  cases still

theorem Sound.outside (sound : Sound s) {queue : RefreshQueue} (pool : Pool accounts)
    (undisturbed : Undisturbed s (.outside accounts queue)) : Sound { s with accounts := accounts,queue := queue } :=
  ⟨pool,sound.apart,undisturbed.1,sound.other,undisturbed.2,sound.own⟩

theorem proactive_cases (s : State) (now bufferMs : ℚ) (source : LiveAccount) :
    ∃ flight, (proactiveRefreshAccount s now bufferMs source).flight = some flight ∧ flight.source = source ∧
      flight.token = source.refreshToken ∧ flight.Own ∧ (proactiveRefreshAccount s now bufferMs source).accounts = s.accounts ∧
      (proactiveRefreshAccount s now bufferMs source).waiting = s.waiting := by
  unfold proactiveRefreshAccount
  split
  · exact ⟨_,rfl,rfl,rfl,trivial,rfl,rfl⟩
  · split
    · exact ⟨_,rfl,rfl,rfl,trivial,rfl,rfl⟩
    · exact ⟨_,rfl,rfl,rfl,trivial,rfl,rfl⟩

/-- The row of a snapshot that is there with its token has that token wherever it is found. -/
theorem HoldsSnapshot.held (holds : HoldsSnapshot accounts source) (pool : Pool accounts) :
    ∀ account ∈ accounts, account.ref = source.ref → account.refreshToken = source.refreshToken := by
  obtain ⟨first,present,ref,token⟩ := holds
  intro account member same
  obtain ⟨i,found⟩ := mem_iff_getElem?.mp present
  obtain ⟨j,there⟩ := mem_iff_getElem?.mp member
  obtain rfl := pool.unique found there (ref.trans same.symm)
  obtain rfl := Option.some.inj (found.symm.trans there)
  exact token

private theorem Sound.proactive (sound : Sound s) {rest : List LiveAccount} (waiting : s.waiting = source :: rest) :
    Sound (proactiveRefreshAccount { s with waiting := rest } now bufferMs source) := by
  obtain ⟨flight,flying,rfl,token,own,accounts,left⟩ := proactive_cases { s with waiting := rest } now bufferMs source
  have apart := sound.apart
  rw [waiting,map_cons,nodup_cons] at apart
  have current : HoldsSnapshot s.accounts flight.source :=
    sound.waiting flight.source (by rw [waiting]; exact mem_cons_self)
  refine ⟨by rw [accounts]; exact sound.pool,by rw [left]; exact apart.2,?_,?_,?_,?_⟩
  · rw [accounts,left]
    intro other member
    exact sound.waiting other (by rw [waiting]; exact mem_cons_of_mem _ member)
  · rw [flying,left]
    rintro _ ⟨⟩ other member same
    exact apart.1 (same ▸ mem_map_of_mem member)
  · rw [flying,accounts]
    rintro _ ⟨⟩
    rw [token]
    exact current.held sound.pool
  · rw [flying]
    rintro _ ⟨⟩
    exact own

theorem startNext_obeys (sound : Sound s) :
    Sound (startNext s now bufferMs) ∧ StartsCurrent s now bufferMs ∧ (startNext s now bufferMs).accounts = s.accounts := by
  unfold startNext
  rcases waiting : s.waiting with _ | ⟨source,rest⟩
  · refine ⟨sound,?_,rfl⟩
    intro first others listed
    rw [waiting] at listed
    cases listed
  · obtain ⟨_,_,_,_,_,accounts,_⟩ := proactive_cases { s with waiting := rest } now bufferMs source
    refine ⟨sound.proactive waiting,?_,accounts⟩
    intro first others listed _
    exact sound.waiting first (by rw [listed]; exact mem_cons_self)

theorem Works.obeys {after : State} {flight : Flight} (works : Works flight s after) (sound : Sound s) (flying : s.flight = some flight) :
    Sound after ∧ ChangesOwn s after :=
  ⟨works.sound sound flying,works.changesOwn sound flying⟩

theorem settle_obeys (sound : Sound s) (may : enabled s (.settle now)) (finds : FindsOwn s) :
    Sound (step bufferMs s (.settle now)) ∧ ChangesOwn s (step bufferMs s (.settle now)) := by
  have blame : ∀ {flight : Flight} {source auth}, s.flight = some flight → flight.source = source →
      flight.found s.accounts = blamed s.accounts source auth → ∀ cause,
      Works flight s (s.modify (blamed s.accounts source auth) (penalize bufferMs now cause)).landed :=
    fun flying _ looks cause =>
      works_modify sound flying (finds.at flying looks) (penalize_place bufferMs now cause) (penalize_token bufferMs now cause)
  rcases may with ⟨source,auth,error,flying⟩ | ⟨source,auth,retryable,flying⟩ | ⟨source,auth,flying⟩ | ⟨source,auth,ref,flying⟩
  all_goals simp only [step,flying]
  · exact (rescue_works sound flying finds).obeys sound flying
  · exact (blame flying rfl rfl _).obeys sound flying
  · exact (blame flying rfl rfl _).obeys sound flying
  · exact (settled_works sound flying).obeys sound flying

theorem handed_obeys (sound : Sound s) {flight left : Flight} (flying : s.flight = some flight) {queue : RefreshQueue}
    (same : left.source.ref = flight.source.ref ∧ left.token = flight.token ∧ left.Own) :
    Sound { s with queue := queue,flight := some left } ∧ ChangesOwn s { s with queue := queue,flight := some left } := by
  refine Works.obeys (works_idle sound flying rfl rfl ?_) sound flying
  rintro _ ⟨⟩
  exact same

theorem step_obeys (sound : Sound s) {action : Action} (may : enabled s action) (undisturbed : Undisturbed s action) :
    Sound (step bufferMs s action) ∧ Obeys bufferMs s action := by
  cases action with
  | outside accounts queue => exact ⟨sound.outside may undisturbed,trivial⟩
  | tick now =>
    obtain ⟨next,current,accounts⟩ := startNext_obeys (sound.tick may.2)
    exact ⟨next,current,changesOwn_refl accounts⟩
  | next now =>
    obtain ⟨next,current,accounts⟩ := startNext_obeys sound
    exact ⟨next,current,changesOwn_refl accounts⟩
  | refreshed result =>
    obtain ⟨source,joined,flying⟩ := may
    simp only [Obeys,step,flying]
    exact handed_obeys sound flying ⟨rfl,rfl,trivial⟩
  | apply now =>
    obtain ⟨source,result,flying⟩ := may
    simp only [Obeys,step,flying]
    exact (apply_works sound flying undisturbed).obeys sound flying
  | commit now resolved =>
    obtain ⟨source,auth,flying⟩ := may
    simp only [Obeys,step,flying]
    exact (commit_works sound flying undisturbed).obeys sound flying
  | commitFails error =>
    obtain ⟨source,auth,flying⟩ := may
    simp only [Obeys,step,flying]
    exact handed_obeys sound flying ⟨rfl,rfl,trivial⟩
  | persists =>
    obtain ⟨source,auth,previous,flying⟩ := may
    simp only [Obeys,step,flying]
    cases previous with
    | none => exact handed_obeys sound flying ⟨rfl,rfl,trivial⟩
    | some previous => exact handed_obeys sound flying ⟨rfl,rfl,(sound.own _ flying).1⟩
  | persistFails error =>
    obtain ⟨source,auth,previous,flying⟩ := may
    simp only [Obeys,step,flying]
    cases previous with
    | none => exact handed_obeys sound flying ⟨rfl,rfl,trivial⟩
    | some previous => exact (restored_works sound flying error).obeys sound flying
  | settle now => exact settle_obeys sound may undisturbed

/-- Where nobody else rotates an account that the tick works on, and no lookup takes a neighbour for it, every refresh
    starts with a current token and every outcome changes only a row with the token that it is for. -/
theorem guardian_respects_credentials {start : State} (begins : Start start) {actions : List Action}
    (legal : Runs.Legal (step bufferMs) enabled start actions) (undisturbed : Runs.Legal (step bufferMs) Undisturbed start actions) :
    Runs.Legal (step bufferMs) (Obeys bufferMs) start actions := by
  have sound := begins.sound
  clear begins
  induction actions generalizing start with
  | nil => trivial
  | cons action rest ih =>
    obtain ⟨next,obeys⟩ : Sound (step bufferMs start action) ∧ Obeys bufferMs start action := step_obeys sound legal.1 undisturbed.1
    exact ⟨obeys,ih legal.2 undisturbed.2 next⟩

end

section
attribute [local instance] asciiHost

def expiring : LiveAccount where
  ref := 0
  index := 0
  accountId := some "acc-1"
  email := some "user@example.com"
  refreshToken := "token-1"

def neighbour : LiveAccount where
  ref := 1
  index := 1
  accountId := some "acc-2"
  email := some "other@example.com"
  refreshToken := "token-2"

def idlePool (accounts : List LiveAccount) : State where
  accounts := accounts
  queue := ⟨[],[]⟩
  waiting := []
  flight := none

theorem pool_pair {first second : LiveAccount} (refs : first.ref ≠ second.ref) (index : first.index = 0) (index' : second.index = 1) :
    Pool [first,second] := by
  refine ⟨by simpa using refs,?_⟩
  rintro (_ | _ | i) account found
  · obtain rfl := Option.some.inj found
    exact index
  · obtain rfl := Option.some.inj found
    exact index'
  · cases found

def rejected : List Action := [.tick 0,.refreshed (.failed (some "http_error") (some 401)),.apply 0]

theorem rejected_respects_credentials : Runs.Legal (step 300000) (Obeys 300000) (idlePool [expiring,neighbour]) rejected := by
  have legal : Runs.Legal (step 300000) enabled (idlePool [expiring,neighbour]) rejected :=
    ⟨⟨rfl,rfl⟩,⟨expiring,false,rfl⟩,⟨expiring,_,rfl⟩,trivial⟩
  refine guardian_respects_credentials ⟨pool_pair (by decide) rfl rfl,rfl,rfl⟩ legal ⟨trivial,trivial,?_,trivial⟩
  intro flight i account flying looks found
  obtain rfl := Option.some.inj flying
  obtain rfl : i = 0 := Option.some.inj (looks.symm.trans (by decide))
  obtain rfl := Option.some.inj found
  rfl

/-- While the first row is refreshed, a request rotates the token of the second. -/
def outrun : List Action :=
  [.tick 0,.outside [expiring,{ neighbour with refreshToken := "token-3" }] ⟨["token-1"],[]⟩,
    .refreshed (.failed (some "network_error") none),.apply 1,.next 250]

theorem guardian_starts_superseded :
    ¬ ∀ (bufferMs : ℚ) (start : State) (actions : List Action), Start start → Runs.Legal (step bufferMs) enabled start actions →
      Runs.Legal (step bufferMs) (Obeys bufferMs) start actions := by
  intro claim
  have legal : Runs.Legal (step 300000) enabled (idlePool [expiring,neighbour]) outrun :=
    ⟨⟨rfl,rfl⟩,pool_pair (by decide) rfl rfl,⟨expiring,false,rfl⟩,⟨expiring,_,rfl⟩,⟨by decide,rfl⟩,trivial⟩
  obtain ⟨_,_,_,_,obeys,_⟩ := claim 300000 _ outrun ⟨pool_pair (by decide) rfl rfl,rfl,rfl⟩ legal
  have current := obeys.1 neighbour [] rfl ⟨rfl,rfl,rfl⟩
  revert current
  unfold HoldsSnapshot
  decide

end

end CodexMultiAuth.RefreshGuardian
