import CodexMultiAuth.RefreshLease

/-!
The lease excludes. Only the call that created the lock removes it, and only the
call that holds it publishes, so what the second reading finds still holds when
the ownership is granted. Where that reading fails, the call becomes the owner
although a result may be there.
-/
namespace CodexMultiAuth.RefreshLease
set_option linter.unusedSectionVars false

theorem parseLeasePayload_toJson (payload : LeaseFilePayload) (nonempty : payload.tokenHash ≠ "") :
    parseLeasePayload payload.toJson = some payload := by
  simp [parseLeasePayload,LeaseFilePayload.toJson,Json.asRecord,Record.number,Record.text,OrderedMap.find_cons,Json.asNumber,
    Json.asText,nonempty,Rat.floor_intCast]

private theorem parseTokenSuccess_toJson (tokens : TokenSuccess) : safeParseTokenResult tokens.toJson = some (.success tokens) := by
  obtain ⟨access,refresh,expires,idToken,multiAccount,access_nonempty,refresh_nonempty,expires_positive⟩ := tokens
  cases idToken <;> cases multiAccount <;>
    simp [safeParseTokenResult,TokenSuccess.toJson,Json.asRecord,parseTokenSuccess,Record.text,Record.number,OrderedMap.find_cons,
      Json.asText,Json.asNumber,optional,optionalField,asBool,access_nonempty,refresh_nonempty,expires_positive]

theorem parseResultPayload_resultPayload {tokenHash : String} (nonempty : tokenHash ≠ "") (createdAt : Int) (tokens : TokenSuccess) :
    parseResultPayload (resultPayload tokenHash createdAt tokens) = some ⟨tokenHash,createdAt,.success tokens⟩ := by
  simp [parseResultPayload,resultPayload,Json.asRecord,Record.number,Record.text,OrderedMap.find_cons,Json.asNumber,Json.asText,
    nonempty,parseTokenSuccess_toJson,Rat.floor_intCast]

/-- The call created the lock and has not removed it or given it up. -/
def Holds : Phase → Prop
  | .writing | .closing _ | .abandoning _ | .rechecking _ | .yielding _ _ | .owner | .releasing _ => True
  | _ => False

def Signed : Phase → Prop
  | .closing true | .rechecking _ | .yielding _ _ | .owner | .releasing _ => True
  | _ => False

def Rechecks : Phase → Prop
  | .rechecking _ => True
  | _ => False

def Judges (content : Content) : Phase → Prop
  | .checking (.judge read) => read = content
  | .rechecking (.judge read) => read = content
  | _ => False

def Follows (result : TokenResult) : Phase → Prop
  | .following found => found = result
  | .yielding found _ => found = result
  | _ => False

variable {Call : Type} [DecidableEq Call] {calls : Calls Call}

/-- The content is a result for the token that has not expired. -/
def Unexpired (calls : Calls Call) (t : Call) (now : Int) (content : Content) (payload : ResultFilePayload) : Prop :=
  parsedResult content = some payload ∧ payload.tokenHash = calls.tokenHash ∧ now - payload.createdAt ≤ (calls.options t).resultTtl

/-- The second reading fails. -/
def Misread (phase : Phase) (choice : Choice) : Prop :=
  (phase = .rechecking .exists ∨ phase = .rechecking .read) ∧ ∃ retryable, choice = .fault retryable

inductive LockChange (calls : Calls Call) (t : Call) (before after : Option Content) (phase next : Phase) : Prop where
  | kept (same : after = before) (holds : Holds next → Holds phase) (signed : Signed next → Signed phase)
  | opened (free : before = none) (created : after = some none) (writing : next = .writing)
  | wrote (now : Int) (writing : phase = .writing) (written : after = some (some (leasePayload calls t now).toJson))
  | removed (holds : Holds phase) (left : ¬ Holds next) (gone : after = none)

inductive ResultChange (before after : Option Content) (published publishedAfter : List Content) (phase next : Phase) : Prop where
  | kept (same : after = before) (history : publishedAfter = published)
  | removed (gone : after = none) (history : publishedAfter = published)
  | published (content : Content) (holds : Holds phase) (decided : ¬ Rechecks phase ∧ ¬ Rechecks next) (placed : after = some content)
      (history : publishedAfter = content :: published)

/-- Everything that a step of a call does. -/
structure Effect (calls : Calls Call) (s : State Call) (t : Call) (choice : Choice) (after : State Call) : Prop where
  now : after.now = s.now
  others : ∀ u, u ≠ t → after.phase u = s.phase u
  lock : LockChange calls t s.lock after.lock (s.phase t) (after.phase t)
  result : ResultChange s.result after.result s.published after.published (s.phase t) (after.phase t)
  judges : ∀ content, Judges content (after.phase t) → after.result = some content
  expires : ∀ n, after.phase t = .rechecking (.expired n) → (∃ m, s.phase t = .rechecking (.expired m)) ∨
    ∃ content, s.phase t = .rechecking (.judge content) ∧ ∀ payload, ¬ Unexpired calls t s.now content payload
  follows : ∀ result, Follows result (after.phase t) → Follows result (s.phase t) ∨
    ∃ content payload, Judges content (s.phase t) ∧ Unexpired calls t s.now content payload ∧ payload.result = result
  granted : after.phase t = .owner → s.phase t = .owner ∨ Misread (s.phase t) choice ∨ (Rechecks (s.phase t) ∧ s.result = none) ∨
    (∃ m, s.phase t = .rechecking (.expired m)) ∨
    ∃ content, s.phase t = .rechecking (.judge content) ∧ ∀ payload, ¬ Unexpired calls t s.now content payload
  decides : Rechecks (s.phase t) → Rechecks (after.phase t) ∨ after.phase t = .owner ∨ ∃ result, Follows result (after.phase t)

/-- A move that creates or removes no lock, reads nothing and decides nothing. -/
structure Quiet (phase next : Phase) : Prop where
  holds : Holds next → Holds phase
  signed : Signed next → Signed phase
  judges : ∀ content, ¬ Judges content next
  expires : ∀ n, next ≠ .rechecking (.expired n)
  follows : ∀ result, Follows result next → Follows result phase
  granted : next = .owner → phase = .owner
  decides : Rechecks phase → Rechecks next

variable {s after : State Call} {t : Call} {choice : Choice}

theorem quiet_effect {phase next : Phase} (at_phase : s.phase t = phase) (quiet : Quiet phase next)
    (now : after.now = s.now) (goes : after.phase = Function.update s.phase t next) (lock : after.lock = s.lock)
    (result : ResultChange s.result after.result s.published after.published phase next) : Effect calls s t choice after where
  now := now
  others u other := by simp [goes,other]
  lock := by
    simp only [goes,at_phase,Function.update_self]
    exact .kept lock quiet.holds quiet.signed
  result := by simpa only [goes,at_phase,Function.update_self] using result
  judges content judges := absurd (by simpa [goes] using judges) (quiet.judges content)
  expires n expired := absurd (by simpa [goes] using expired) (quiet.expires n)
  follows found follows := .inl (at_phase ▸ quiet.follows found (by simpa [goes] using follows))
  granted owner := .inl (at_phase ▸ quiet.granted (by simpa [goes] using owner))
  decides rechecks := .inl (by
    rw [at_phase] at rechecks
    simpa [goes] using quiet.decides rechecks)

theorem goto_effect {phase next : Phase} (at_phase : s.phase t = phase) (quiet : Quiet phase next) :
    Effect calls s t choice (s.goto t next) := quiet_effect at_phase quiet rfl rfl rfl (.kept rfl rfl)

variable {phase : Phase}

theorem stay_effect (at_phase : s.phase t = phase) (quiet : Quiet phase phase) :
    Effect calls s t choice s := by
  refine quiet_effect at_phase quiet rfl ?_ rfl (.kept rfl rfl)
  rw [← at_phase,Function.update_eq_self]

/-! #### Reading a result -/

/-- What a step of `readFreshResult` comes to. -/
inductive ReadCase (calls : Calls Call) (s : State Call) (t : Call) (choice : Choice) (stay : Reading → Phase) (none : Phase)
    (found : TokenResult → Phase) : Reading → State Call → Prop where
  | failed (stage : Reading) (early : stage = .exists ∨ stage = .read) (retryable : Bool) (fails : choice = .fault retryable) :
      ReadCase calls s t choice stay none found stage (s.goto t none)
  | absent (stage : Reading) (gone : s.result = .none) : ReadCase calls s t choice stay none found stage (s.goto t none)
  | present : ReadCase calls s t choice stay none found .exists (s.goto t (stay .read))
  | read (content : Content) (holds : s.result = some content) :
      ReadCase calls s t choice stay none found .read (s.goto t (stay (.judge content)))
  | unusable (content : Content) (not_unexpired : ∀ payload, ¬ Unexpired calls t s.now content payload) :
      ReadCase calls s t choice stay none found (.judge content) (s.goto t none)
  | old (content : Content) (not_unexpired : ∀ payload, ¬ Unexpired calls t s.now content payload) :
      ReadCase calls s t choice stay none found (.judge content) (s.goto t (stay (.expired 0)))
  | fresh (content : Content) (payload : ResultFilePayload) (unexpired : Unexpired calls t s.now content payload) :
      ReadCase calls s t choice stay none found (.judge content) (s.goto t (found payload.result))
  | retry (n m : Nat) : ReadCase calls s t choice stay none found (.expired n) (s.goto t (stay (.expired m)))
  | kept (n : Nat) : ReadCase calls s t choice stay none found (.expired n) (s.goto t none)
  | unlinked (n : Nat) : ReadCase calls s t choice stay none found (.expired n) (({ s with result := .none } : State Call).goto t none)

variable (calls) in
theorem readFreshResult_cases (s : State Call) (t : Call) (choice : Choice) (stay : Reading → Phase) (none : Phase)
    (found : TokenResult → Phase) (stage : Reading) :
    ReadCase calls s t choice stay none found stage (readFreshResult calls s t choice stay none found stage) := by
  cases stage with
  | «exists» =>
    simp only [readFreshResult]
    split
    · next retryable => exact .failed _ (.inl rfl) retryable rfl
    · split
      · exact .present
      · next gone => exact .absent _ (by simpa using gone)
  | read =>
    simp only [readFreshResult]
    split
    · next _ retryable => exact .failed _ (.inr rfl) retryable rfl
    · next gone => exact .absent _ gone
    · next content _ holds => exact .read content holds
  | judge content =>
    simp only [readFreshResult]
    split
    · next unreadable => exact .unusable content (fun payload unexpired => by simp [unexpired.1] at unreadable)
    · next payload parsed =>
      have only : ∀ other, Unexpired calls t s.now content other → other = payload := by
        intro other unexpired
        have := unexpired.1
        rw [parsed] at this
        exact (Option.some.inj this).symm
      split
      · next foreign => exact .unusable content (fun other unexpired => foreign (only other unexpired ▸ unexpired.2.1))
      · next own =>
        split
        · next aged =>
          refine .old content (fun other unexpired => ?_)
          have := unexpired.2.2
          rw [only other unexpired] at this
          omega
        · next recent => exact .fresh content payload ⟨parsed,by simpa using own,by omega⟩
  | expired attempt =>
    simp only [readFreshResult,safeUnlink]
    split
    · split
      · exact .retry attempt _
      · exact .kept attempt
    · exact .unlinked attempt

section
attribute [local simp] State.goto Holds Signed Judges Follows Rechecks

theorem checking_effect {stage : Reading} (choice : Choice) (at_phase : s.phase t = .checking stage) :
    Effect calls s t choice (readFreshResult calls s t choice .checking .opening .following stage) := by
  have opening : Quiet (.checking stage) .opening := by
    constructor <;> simp
  have again : ∀ n, Quiet (.checking stage) (.checking (.expired n)) := by
    intro n
    constructor <;> simp
  have outcome := readFreshResult_cases calls s t choice .checking .opening .following stage
  generalize readFreshResult calls s t choice .checking .opening .following stage = after at outcome ⊢
  cases outcome with
  | failed | absent => exact goto_effect at_phase opening
  | present => exact goto_effect at_phase (by constructor <;> simp)
  | read content holds =>
    refine ⟨rfl,?_,?_,.kept rfl rfl,?_,?_,?_,?_,?_⟩
    · intro u other; simp [other]
    · exact .kept rfl (by simp) (by simp)
    · simpa using holds
    · simp
    · simp
    · simp
    · simp [at_phase]
  | unusable content not_unexpired => exact goto_effect at_phase opening
  | old content not_unexpired => exact goto_effect at_phase (again _)
  | fresh content payload unexpired =>
    refine ⟨rfl,?_,?_,.kept rfl rfl,?_,?_,?_,?_,?_⟩
    · intro u other; simp [other]
    · exact .kept rfl (by simp) (by simp)
    · simp
    · simp
    · intro result follows
      refine .inr ⟨content,payload,by simp [at_phase],unexpired,by simpa using follows⟩
    · simp
    · simp [at_phase]
  | retry n m => exact goto_effect at_phase (again _)
  | kept n => exact goto_effect at_phase opening
  | unlinked n => exact quiet_effect at_phase opening rfl rfl rfl (.removed rfl rfl)

theorem rechecking_effect {stage : Reading} (choice : Choice) (at_phase : s.phase t = .rechecking stage) :
    Effect calls s t choice (readFreshResult calls s t choice .rechecking .owner (fun result => .yielding result .readLock) stage) := by
  have others : ∀ next u, u ≠ t → (s.goto t next).phase u = s.phase u := by
    intro next u other
    simp [other]
  have held : ∀ next, LockChange calls t s.lock (s.goto t next).lock (s.phase t) ((s.goto t next).phase t) :=
    fun next => .kept rfl (by simp [at_phase]) (by simp [at_phase])
  have outcome := readFreshResult_cases calls s t choice .rechecking .owner (fun result => .yielding result .readLock) stage
  generalize readFreshResult calls s t choice .rechecking .owner (fun result => .yielding result .readLock) stage = after at outcome ⊢
  cases outcome with
  | failed _ early retryable fails =>
    refine ⟨rfl,others _,held _,.kept rfl rfl,?_,?_,?_,fun _ => .inr (.inl ⟨?_,retryable,fails⟩),fun _ => .inr (.inl ?_)⟩
    · simp
    · simp
    · simp
    · simpa [at_phase] using early
    · simp
  | absent _ gone =>
    refine ⟨rfl,others _,held _,.kept rfl rfl,?_,?_,?_,fun _ => .inr (.inr (.inl ⟨by simp [at_phase],gone⟩)),fun _ => .inr (.inl ?_)⟩
    all_goals simp
  | present => exact goto_effect at_phase (by constructor <;> simp)
  | read content holds =>
    refine ⟨rfl,others _,held _,.kept rfl rfl,?_,?_,?_,?_,fun _ => .inl ?_⟩
    · simpa using holds
    all_goals simp
  | unusable content not_unexpired =>
    refine ⟨rfl,others _,held _,.kept rfl rfl,?_,?_,?_,fun _ => .inr (.inr (.inr (.inr ⟨content,at_phase,not_unexpired⟩))),fun _ => .inr (.inl ?_)⟩
    all_goals simp
  | old content not_unexpired =>
    refine ⟨rfl,others _,held _,.kept rfl rfl,?_,fun _ _ => .inr ⟨content,at_phase,not_unexpired⟩,?_,?_,fun _ => .inl ?_⟩
    all_goals simp
  | fresh content payload unexpired =>
    refine ⟨rfl,others _,held _,.kept rfl rfl,?_,?_,?_,?_,fun _ => .inr (.inr ⟨payload.result,?_⟩)⟩
    · simp
    · simp
    · intro result follows
      exact .inr ⟨content,payload,by simp [at_phase],unexpired,by simpa using follows⟩
    · simp
    · simp
  | retry n m =>
    refine ⟨rfl,others _,held _,.kept rfl rfl,?_,fun _ _ => .inl ⟨n,at_phase⟩,?_,?_,fun _ => .inl ?_⟩
    all_goals simp
  | kept n =>
    refine ⟨rfl,others _,held _,.kept rfl rfl,?_,?_,?_,fun _ => .inr (.inr (.inr (.inl ⟨n,at_phase⟩))),fun _ => .inr (.inl ?_)⟩
    all_goals simp
  | unlinked n =>
    refine ⟨rfl,others _,held _,.removed rfl rfl,?_,?_,?_,fun _ => .inr (.inr (.inr (.inl ⟨n,at_phase⟩))),fun _ => .inr (.inl ?_)⟩
    all_goals simp

/-- What a step of `release` comes to. -/
inductive ReleaseCase (s : State Call) (t : Call) (stay : Releasing → Phase) (finished : Phase) : State Call → Prop where
  | moved (next : Releasing) : ReleaseCase s t stay finished (s.goto t (stay next))
  | published (content : Content) (next : Releasing) :
      ReleaseCase s t stay finished { s.goto t (stay next) with result := some content,published := content :: s.published }
  | kept : ReleaseCase s t stay finished (s.goto t finished)
  | unlinked : ReleaseCase s t stay finished (({ s with lock := none } : State Call).goto t finished)

variable (calls) in
theorem releaseStep_cases (s : State Call) (t : Call) (choice : Choice) (stay : Releasing → Phase) (finished : Phase)
    (stage : Releasing) : ReleaseCase s t stay finished (releaseStep calls s t choice stay finished stage) := by
  cases stage with
  | writeTemp content =>
    simp only [releaseStep]
    split
    · exact .moved _
    · exact .moved _
  | renameTemp content =>
    simp only [releaseStep]
    split
    · exact .moved _
    · exact .published _ _
  | unlinkTemp published attempt =>
    cases published <;> simp only [releaseStep,safeUnlink,if_true,if_false,Bool.false_eq_true] <;> split
    · split
      · exact .moved _
      · exact .kept
    · exact .kept
    · split
      · exact .moved _
      · exact .moved _
    · exact .moved _
  | readLock =>
    simp only [releaseStep]
    split
    · exact .moved _
    · exact .moved _
  | ownsLock content =>
    simp only [releaseStep]
    split
    · exact .moved _
    · exact .kept
  | unlinkLock attempt =>
    simp only [releaseStep,safeUnlink]
    split
    · split
      · exact .moved _
      · exact .kept
    · exact .unlinked

theorem releaseStep_effect {stage : Releasing} {stay : Releasing → Phase} {finished : Phase}
    (choice : Choice) (at_phase : s.phase t = stay stage) (moves : ∀ next, Quiet (stay stage) (stay next))
    (finishes : Quiet (stay stage) finished) (holds : Holds (stay stage)) (decided : ∀ next, ¬ Rechecks (stay next))
    (left : ¬ Holds finished) : Effect calls s t choice (releaseStep calls s t choice stay finished stage) := by
  have outcome := releaseStep_cases calls s t choice stay finished stage
  generalize releaseStep calls s t choice stay finished stage = after at outcome ⊢
  cases outcome with
  | moved next => exact goto_effect at_phase (moves next)
  | published content next =>
    exact quiet_effect at_phase (moves next) rfl rfl rfl (.published content holds ⟨decided stage,decided next⟩ rfl rfl)
  | kept => exact goto_effect at_phase finishes
  | unlinked =>
    refine ⟨rfl,?_,.removed (at_phase ▸ holds) (by simpa using left) rfl,.kept rfl rfl,?_,?_,?_,?_,?_⟩
    · intro u other; simp [other]
    · exact fun content judges => absurd (by simpa using judges) (finishes.judges content)
    · exact fun n expired => absurd (by simpa using expired) (finishes.expires n)
    · exact fun result follows => .inl (at_phase ▸ finishes.follows result (by simpa using follows))
    · exact fun owner => .inl (at_phase ▸ finishes.granted (by simpa using owner))
    · exact fun rechecks => absurd (at_phase ▸ rechecks) (decided stage)

theorem acquire_effect (s : State Call) (t : Call) (choice : Choice) : Effect calls s t choice (acquire calls s t choice) := by
  have others : ∀ next u, u ≠ t → (s.goto t next).phase u = s.phase u := by
    intro next u other
    simp [other]
  cases at_phase : s.phase t with
  | created =>
    simp only [acquire,at_phase,begin]
    split
    · exact goto_effect at_phase (by constructor <;> simp)
    · split
      · exact goto_effect at_phase (by constructor <;> simp)
      · split
        · exact goto_effect at_phase (by constructor <;> simp)
        · exact quiet_effect at_phase (by constructor <;> simp)
            rfl rfl rfl (.kept rfl rfl)
  | checking stage =>
    simp only [acquire,at_phase]
    exact checking_effect choice at_phase
  | opening =>
    simp only [acquire,at_phase,openLock]
    split
    · exact goto_effect at_phase (by constructor <;> simp)
    · split
      · exact goto_effect at_phase (by constructor <;> simp)
      · next free =>
        refine ⟨rfl,others _,.opened (by simpa using free) rfl (by simp),.kept rfl rfl,?_,?_,?_,?_,?_⟩
        all_goals simp [at_phase]
  | contended =>
    simp only [acquire,at_phase]
    split
    · exact goto_effect at_phase (by constructor <;> simp)
    · exact goto_effect at_phase (by constructor <;> simp)
  | writing =>
    simp only [acquire,at_phase,writeLock]
    split
    · exact goto_effect at_phase (by constructor <;> simp)
    · refine ⟨rfl,others _,.wrote s.now at_phase rfl,.kept rfl rfl,?_,?_,?_,?_,?_⟩
      all_goals simp [at_phase]
  | closing written =>
    simp only [acquire,at_phase,closeLock]
    split
    · exact goto_effect at_phase (by constructor <;> simp)
    · exact goto_effect at_phase (by constructor <;> simp)
    · exact goto_effect at_phase (by constructor <;> simp)
  | abandoning attempt =>
    simp only [acquire,at_phase,safeUnlink]
    split
    · split
      · exact goto_effect at_phase (by constructor <;> simp)
      · exact goto_effect at_phase (by constructor <;> simp)
    · refine ⟨rfl,?_,.removed (by simp [at_phase]) (by simp) rfl,.kept rfl rfl,?_,?_,?_,?_,?_⟩
      · intro u other; simp [other]
      all_goals simp [at_phase]
  | rechecking stage =>
    simp only [acquire,at_phase]
    exact rechecking_effect choice at_phase
  | yielding result stage =>
    simp only [acquire,at_phase]
    refine releaseStep_effect choice at_phase ?_ ?_ trivial (fun _ => id) id
    · intro next
      constructor <;> simp
    · constructor <;> simp
  | owner =>
    have stays : Effect calls s t choice s := stay_effect at_phase (by constructor <;> simp)
    simp only [acquire,at_phase]
    unfold releaseOwner
    split
    · exact goto_effect at_phase (by constructor <;> simp)
    · exact goto_effect at_phase (by constructor <;> simp)
    · exact stays
  | releasing stage =>
    simp only [acquire,at_phase]
    refine releaseStep_effect choice at_phase ?_ ?_ trivial (fun _ => id) id
    · intro next
      constructor <;> simp
    · constructor <;> simp
  | bypass | blocked reason | rejected | following result | released =>
    simp only [acquire,at_phase]
    exact stay_effect at_phase (by constructor <;> simp)

end

/-! ### The invariant -/

structure Inv (calls : Calls Call) (s : State Call) : Prop where
  held : ∀ t, Holds (s.phase t) → s.lock.isSome
  alone : ∀ t u, Holds (s.phase t) → Holds (s.phase u) → t = u
  signed : ∀ t, Signed (s.phase t) → ∃ now, s.lock = some (some (leasePayload calls t now).toJson)
  judged : ∀ t content, s.phase t = .rechecking (.judge content) → ∀ other, s.result = some other → other = content
  expired : ∀ t n, s.phase t = .rechecking (.expired n) → ∀ content, s.result = some content →
    ∀ payload, ¬ Unexpired calls t s.now content payload
  history : ∀ content, s.result = some content → content ∈ s.published
  seen : ∀ t content, Judges content (s.phase t) → content ∈ s.published
  follows : ∀ t result, Follows result (s.phase t) → ∃ content ∈ s.published, ∃ payload, parsedResult content = some payload ∧
    payload.tokenHash = calls.tokenHash ∧ payload.result = result

theorem Start.inv (start : Start s) : Inv calls s where
  held t holds := by simp [start.phase t,Holds] at holds
  alone t u holds := by simp [start.phase t,Holds] at holds
  signed t signed := by simp [start.phase t,Signed] at signed
  judged t content judges := by simp [start.phase t] at judges
  expired t n expired := by simp [start.phase t] at expired
  history := start.published
  seen t content judges := by simp [start.phase t,Judges] at judges
  follows t result follows := by simp [start.phase t,Follows] at follows

theorem Effect.phase_cases (effect : Effect calls s t choice after) (u : Call) :
    u = t ∨ u ≠ t ∧ after.phase u = s.phase u := by
  by_cases same : u = t
  · exact .inl same
  · exact .inr ⟨same,effect.others u same⟩

theorem Signed.holds (signed : Signed phase) : Holds phase := by
  cases phase <;> simp_all [Signed,Holds]

theorem Rechecks.holds (rechecks : Rechecks phase) : Holds phase := by
  cases phase <;> simp_all [Rechecks,Holds]

theorem Effect.holds_before (effect : Effect calls s t choice after) {u : Call}
    (holds : Holds (after.phase u)) : Holds (s.phase u) ∨ u = t ∧ s.lock = none := by
  rcases effect.phase_cases u with rfl | ⟨-,same⟩
  · cases effect.lock with
    | kept _ before _ => exact .inl (before holds)
    | opened free => exact .inr ⟨rfl,free⟩
    | wrote now writing => exact .inl (by simp [writing,Holds])
    | removed _ left => exact absurd holds left
  · exact .inl (same ▸ holds)

theorem Effect.lock_of_other {t u : Call} (effect : Effect calls s t choice after) (inv : Inv calls s) (other : u ≠ t)
    (holds : Holds (s.phase u)) : after.lock = s.lock := by
  cases effect.lock with
  | kept same => exact same
  | opened free => simpa [free] using inv.held u holds
  | wrote now writing => exact absurd (inv.alone u t holds (by simp [writing,Holds])) other
  | removed t_holds => exact absurd (inv.alone u t holds t_holds) other

variable {content : Content}

theorem Effect.published_mono (effect : Effect calls s t choice after)
    (member : content ∈ s.published) : content ∈ after.published := by
  cases effect.result with
  | kept _ history => exact history ▸ member
  | removed _ history => exact history ▸ member
  | published placed _ _ _ history => exact history ▸ List.mem_cons_of_mem _ member

theorem Effect.history (effect : Effect calls s t choice after) (inv : Inv calls s)
    (found : after.result = some content) : content ∈ after.published := by
  cases effect.result with
  | kept same history => exact history ▸ inv.history content (same ▸ found)
  | removed gone => simp [gone] at found
  | published other _ _ placed history =>
    rw [placed] at found
    obtain rfl := Option.some.inj found
    exact history ▸ List.mem_cons_self

theorem Effect.result_while_rechecking {t u : Call} (effect : Effect calls s t choice after) (inv : Inv calls s)
    (rechecks : Rechecks (s.phase u)) (found : after.result = some content) : s.result = some content := by
  cases effect.result with
  | kept same => exact same ▸ found
  | removed gone => simp [gone] at found
  | published other holds decided =>
    have same := inv.alone u t rechecks.holds holds
    exact absurd (same ▸ rechecks) decided.1

theorem Effect.signed (effect : Effect calls s t choice after) (inv : Inv calls s) {u : Call}
    (signed : Signed (after.phase u)) : ∃ now, after.lock = some (some (leasePayload calls u now).toJson) := by
  rcases effect.phase_cases u with rfl | ⟨other,same⟩
  · cases effect.lock with
    | kept same _ before => exact same ▸ inv.signed u (before signed)
    | opened _ _ writing => simp [writing,Signed] at signed
    | wrote now _ written => exact ⟨now,written⟩
    | removed _ left => exact absurd signed.holds left
  · rw [same] at signed
    rw [effect.lock_of_other inv other signed.holds]
    exact inv.signed u signed

theorem Effect.expired (effect : Effect calls s t choice after) (inv : Inv calls s) {u : Call} {n : Nat}
    (expired : after.phase u = .rechecking (.expired n)) (found : after.result = some content)
    (payload : ResultFilePayload) : ¬ Unexpired calls u after.now content payload := by
  rw [effect.now]
  rcases effect.phase_cases u with rfl | ⟨-,same⟩
  · rcases effect.expires n expired with ⟨m,before⟩ | ⟨read,judged,old⟩
    · exact inv.expired u m before content (effect.result_while_rechecking inv (u := u) (by simp [before,Rechecks]) found) payload
    · have here := effect.result_while_rechecking inv (u := u) (by simp [judged,Rechecks]) found
      rw [inv.judged u read judged content here]
      exact old payload
  · rw [same] at expired
    exact inv.expired u n expired content (effect.result_while_rechecking inv (u := u) (by simp [expired,Rechecks]) found) payload

theorem Effect.inv (effect : Effect calls s t choice after) (inv : Inv calls s) : Inv calls after := by
  refine ⟨?_,?_,fun u signed => effect.signed inv signed,?_,fun u n expired content found => effect.expired inv expired found,
    fun content found => effect.history inv found,?_,?_⟩
  · intro u holds
    cases effect.lock with
    | kept same before _ =>
      rw [same]
      rcases effect.phase_cases u with rfl | ⟨-,unmoved⟩
      · exact inv.held u (before holds)
      · exact inv.held u (unmoved ▸ holds)
    | opened _ created => simp [created]
    | wrote _ _ written => simp [written]
    | removed t_holds left =>
      rcases effect.phase_cases u with rfl | ⟨other,same⟩
      · exact absurd holds left
      · exact absurd (inv.alone u t (same ▸ holds) t_holds) other
  · intro u v u_holds v_holds
    rcases effect.holds_before u_holds with u_before | ⟨rfl,free⟩
    · rcases effect.holds_before v_holds with v_before | ⟨rfl,free⟩
      · exact inv.alone u v u_before v_before
      · simpa [free] using inv.held u u_before
    · rcases effect.holds_before v_holds with v_before | ⟨rfl,-⟩
      · simpa [free] using inv.held v v_before
      · rfl
  · intro u content judges other found
    rcases effect.phase_cases u with rfl | ⟨-,same⟩
    · have := effect.judges content (by simp [judges,Judges])
      rw [this] at found
      exact (Option.some.inj found).symm
    · rw [same] at judges
      exact inv.judged u content judges other (effect.result_while_rechecking inv (u := u) (by simp [judges,Rechecks]) found)
  · intro u content judges
    rcases effect.phase_cases u with rfl | ⟨-,same⟩
    · exact effect.history inv (effect.judges content judges)
    · exact effect.published_mono (inv.seen u content (same ▸ judges))
  · intro u result follows
    rcases effect.phase_cases u with rfl | ⟨-,same⟩
    · rcases effect.follows result follows with before | ⟨content,payload,judges,unexpired,found⟩
      · obtain ⟨content,member,rest⟩ := inv.follows u result before
        exact ⟨content,effect.published_mono member,rest⟩
      · exact ⟨content,effect.published_mono (inv.seen u content judges),payload,unexpired.1,unexpired.2.1,found⟩
    · obtain ⟨content,member,rest⟩ := inv.follows u result (same ▸ follows)
      exact ⟨content,effect.published_mono member,rest⟩

theorem step_inv (s : State Call) (action : Action Call) (enabled : Enabled calls s action) (inv : Inv calls s) :
    Inv calls (step calls s action) := by
  cases action with
  | tick elapsed =>
    refine ⟨inv.held,inv.alone,inv.signed,inv.judged,?_,inv.history,inv.seen,inv.follows⟩
    intro t n expired content found payload unexpired
    refine inv.expired t n expired content found payload ⟨unexpired.1,unexpired.2.1,?_⟩
    have := unexpired.2.2
    simp only [step] at this
    omega
  | crash pid => exact ⟨inv.held,inv.alone,inv.signed,inv.judged,inv.expired,inv.history,inv.seen,inv.follows⟩
  | prune =>
    refine ⟨inv.held,inv.alone,inv.signed,?_,?_,?_,inv.seen,inv.follows⟩
    · intro t content judges other found
      simp [step] at found
    · intro t n expired content found
      simp [step] at found
    · intro content found
      simp [step] at found
  | run t choice => exact (acquire_effect s t choice).inv inv

theorem Rechecks.judges (rechecks : Rechecks phase) (judges : Judges content phase) :
    phase = .rechecking (.judge content) := by
  cases phase with
  | rechecking stage => cases stage <;> simp_all [Judges]
  | _ => simp_all [Rechecks]

theorem Rechecks.not_follows {result : TokenResult} (rechecks : Rechecks phase) : ¬ Follows result phase := by
  cases phase <;> simp_all [Rechecks,Follows]

theorem Effect.granted_free (effect : Effect calls s t choice after) (inv : Inv calls s) (heard : ¬ Misread (s.phase t) choice)
    (before : s.phase t ≠ .owner) (owner : after.phase t = .owner) :
    ∀ content payload, s.result = some content → ¬ Unexpired calls t s.now content payload := by
  rcases effect.granted owner with already | misread | ⟨rechecks,gone⟩ | ⟨m,expired⟩ | ⟨read,judged,old⟩
  · exact absurd already before
  · exact absurd misread heard
  · exact fun content payload found => by simp [gone] at found
  · exact fun content payload found => inv.expired t m expired content found payload
  · intro content payload found
    rw [inv.judged t read judged content found]
    exact old payload

theorem Effect.rechecks_follows (effect : Effect calls s t choice after) (inv : Inv calls s) (heard : ¬ Misread (s.phase t) choice)
    (rechecks : Rechecks (s.phase t)) {payload : ResultFilePayload} (found : s.result = some content)
    (unexpired : Unexpired calls t s.now content payload) : Rechecks (after.phase t) ∨ Follows payload.result (after.phase t) := by
  rcases effect.decides rechecks with still | owner | ⟨result,follows⟩
  · exact .inl still
  · have before : s.phase t ≠ .owner := by
      intro same
      simp [same,Rechecks] at rechecks
    exact absurd unexpired (effect.granted_free inv heard before owner content payload found)
  · rcases effect.follows result follows with earlier | ⟨read,other,judges,other_unexpired,same⟩
    · exact absurd earlier rechecks.not_follows
    · obtain rfl := inv.judged t read (rechecks.judges judges) content found
      have parsed := other_unexpired.1
      rw [unexpired.1] at parsed
      obtain rfl := Option.some.inj parsed
      exact .inr (same ▸ follows)

/-- At most one owner has not released its lease, its lock is its own and no one
    else touches it; nobody becomes the owner while an unexpired result is there,
    and a call that holds the lock then follows that result. -/
structure Excludes (calls : Calls Call) (s : State Call) (action : Action Call) : Prop where
  alone : ∀ t u, s.phase t = .owner → s.phase u = .owner → t = u
  signed : ∀ t, s.phase t = .owner → ∃ content payload, s.lock = some (some content) ∧ parseLeasePayload content = some payload ∧
    payload.nonce = calls.nonce t
  kept : ∀ t, s.phase t = .owner → (∀ choice, action ≠ .run t choice) → (step calls s action).lock = s.lock
  granted : ∀ t choice, action = .run t choice → s.phase t ≠ .owner → (step calls s action).phase t = .owner →
    ∀ content payload, s.result = some content → ¬ Unexpired calls t s.now content payload
  followed : ∀ t choice, action = .run t choice → Rechecks (s.phase t) → ∀ content payload, s.result = some content →
    Unexpired calls t s.now content payload → Rechecks ((step calls s action).phase t) ∨ Follows payload.result ((step calls s action).phase t)
  published : ∀ t result, s.phase t = .following result → ∃ content ∈ s.published, ∃ payload, parsedResult content = some payload ∧
    payload.tokenHash = calls.tokenHash ∧ payload.result = result

/-- No second reading of the result fails while an unexpired one is there. -/
def Heard (calls : Calls Call) (s : State Call) (action : Action Call) : Prop :=
  ∀ t choice, action = .run t choice → Misread (s.phase t) choice → ∀ content payload, s.result = some content →
    ¬ Unexpired calls t s.now content payload

theorem excludes_of_heard {action : Action Call} (enabled : Enabled calls s action) (inv : Inv calls s) (heard : Heard calls s action) :
    Excludes calls s action := by
  refine ⟨?_,?_,?_,?_,?_,fun t result follows => inv.follows t result (by simp [follows,Follows])⟩
  · intro t u t_owner u_owner
    exact inv.alone t u (by simp [t_owner,Holds]) (by simp [u_owner,Holds])
  · intro t owner
    obtain ⟨now,lock⟩ := inv.signed t (by simp [owner,Signed])
    exact ⟨_,_,lock,parseLeasePayload_toJson _ calls.tokenHash_nonempty,rfl⟩
  · intro t owner not_own
    cases action with
    | tick elapsed => rfl
    | crash pid => rfl
    | prune => rfl
    | run r choice =>
      refine (acquire_effect s r choice).lock_of_other inv (u := t) ?_ (by simp [owner,Holds])
      rintro rfl
      exact not_own choice rfl
  · rintro t choice rfl before owner content payload found unexpired
    have read : ¬ Misread (s.phase t) choice := fun misread => heard t choice rfl misread content payload found unexpired
    exact (acquire_effect s t choice).granted_free inv read before owner content payload found unexpired
  · rintro t choice rfl rechecks content payload found unexpired
    have read : ¬ Misread (s.phase t) choice := fun misread => heard t choice rfl misread content payload found unexpired
    exact (acquire_effect s t choice).rechecks_follows inv read rechecks found unexpired

variable (calls) in
theorem Misread.granted (misread : Misread (s.phase t) choice) :
    s.phase t ≠ .owner ∧ (step calls s (.run t choice)).phase t = .owner := by
  obtain ⟨early | early,retryable,rfl⟩ := misread <;> simp [step,acquire,early,readFreshResult,State.goto]

/-- The lease excludes in just those runs in which no second reading of the
    result fails while an unexpired one is there. -/
theorem lease_excludes_iff {s : State Call} (start : Start s) {actions : List (Action Call)}
    (legal : Runs.Legal (step calls) (Enabled calls) s actions) :
    Runs.Legal (step calls) (Excludes calls) s actions ↔ Runs.Legal (step calls) (Heard calls) s actions := by
  refine Runs.legal_iff_legal (fun s action enabled inv _ => step_inv s action enabled inv)
    (fun _ _ enabled inv heard => excludes_of_heard enabled inv heard) ?_ start.inv legal
  rintro s _ - - excludes t choice rfl misread
  obtain ⟨before,owner⟩ := misread.granted calls
  exact excludes.granted t choice rfl before owner

section
private def twoCalls : Calls Bool where
  empty := false
  tokenHash := "7ac8"
  pid t := if t then 2 else 1
  options _ := {}
  nonce t := if t then "second" else "first"
  tokenHash_nonempty := by decide

private def quietStart : State Bool where
  now := 1000
  lock := none
  result := none
  phase _ := .created
  deadline _ := 0
  crashed _ := false
  published := []

private def rotated : TokenSuccess where
  access := "access"
  refresh := "next"
  expires := 9000
  access_nonempty := by decide
  refresh_nonempty := by decide
  expires_positive := by decide

/-- The second call reads no result, then waits for the lock; the first publishes
    and releases, and the second is about to read the result with the lock held. -/
private def handover : List (Action Bool) :=
  [.run false .go,.run false .go,.run false .go,.run false .go,.run false .go,.run false .go,.run true .go,.run true .go,
    .run false (.release (some rotated)),.run false .go,.run false .go,.run false .go,.run false .go,.run false .go,.run false .go,
    .run true .go,.run true .go,.run true .go,.run true .go]

private instance (s : State Bool) (action : Action Bool) : Decidable (Enabled twoCalls s action) := by
  cases action <;> unfold Enabled <;> infer_instance

private def handedOver : State Bool := handover.foldl (step twoCalls) quietStart

private theorem handedOver_rereads :
    handedOver.phase true = .rechecking .read ∧ handedOver.result = some (some (resultPayload "7ac8" 1000 rotated)) := by decide

private theorem quietStart_start : Start quietStart := ⟨fun _ => rfl,by simp [quietStart]⟩

/-- The second call's read of the published result fails, and it becomes the owner. -/
theorem owner_over_unexpired_result :
    Runs.Legal (step twoCalls) (Enabled twoCalls) quietStart (handover ++ [.run true (.fault true)]) ∧
      ¬ Runs.Legal (step twoCalls) (Excludes twoCalls) quietStart (handover ++ [.run true (.fault true)]) := by
  refine ⟨by decide,fun excludes => ?_⟩
  obtain ⟨reading,found⟩ := handedOver_rereads
  have last : Excludes twoCalls handedOver (.run true (.fault true)) := (Runs.legal_append.mp excludes).2.1
  obtain ⟨before,owner⟩ := Misread.granted twoCalls (s := handedOver) ⟨.inr reading,true,rfl⟩
  exact last.granted true _ rfl before owner _ _ found
    ⟨parseResultPayload_resultPayload twoCalls.tokenHash_nonempty 1000 rotated,rfl,by decide⟩

theorem lease_excludes_iff_handover :
    Runs.Legal (step twoCalls) (Excludes twoCalls) quietStart (handover ++ [.run true .go,.run true .go]) ∧
      handedOver.phase true = .rechecking .read ∧ handedOver.result = some (some (resultPayload "7ac8" 1000 rotated)) := by
  have legal : Runs.Legal (step twoCalls) (Enabled twoCalls) quietStart (handover ++ [.run true .go,.run true .go]) := by decide
  have unfailing : ∀ action ∈ handover ++ [.run true .go,.run true .go], ∀ t retryable, action ≠ .run t (.fault retryable) := by
    simp [handover]
  refine ⟨(lease_excludes_iff quietStart_start legal).mpr ?_,handedOver_rereads⟩
  refine (Runs.Legal.of_mem unfailing).imp ?_
  rintro s _ clean t _ rfl ⟨-,retryable,rfl⟩
  exact absurd rfl (clean t retryable)

end

end CodexMultiAuth.RefreshLease
