import Mathlib.Data.List.Nodup
import CodexMultiAuth.FailurePolicy
import CodexMultiAuth.Runs

/-!
The token buckets over whole runs: what is spent in a span of time (`Solvent`), and
which consumption a refund answers (`Matched`).
-/
namespace CodexMultiAuth.PluginHost
open List
set_option linter.unusedSectionVars false

inductive TokenCall (Key : Type) where
  | getTokens (key : Key)
  | tryConsume (key : Key)
  | refundToken (key : Key)
  | drain (key : Key) (drainAmount : ℚ)

inductive TokenMove where
  | consumed
  | refunded
  deriving DecidableEq

/-- A consumption or a refund that was successful. -/
structure TokenBooking (Key : Type) where
  key : Key
  time : ℚ
  move : TokenMove
  deriving DecidableEq

/-- The buckets, the time, and what was booked so far. -/
structure TokenLedger (Key : Type) where
  buckets : Buckets Key
  clock : ℚ
  log : List (TokenBooking Key)

namespace TokenLedger
variable {Key : Type} [DecidableEq Key] (config : TokenBucketConfig)

def step (s : TokenLedger Key) : ℚ × TokenCall Key → TokenLedger Key
  | (now,.getTokens _) => { s with clock := now }
  | (now,.tryConsume key) =>
    match tryConsume config now s.buckets key with
    | none => { s with clock := now }
    | some buckets => ⟨buckets,now,s.log ++ [⟨key,now,.consumed⟩]⟩
  | (now,.refundToken key) =>
    let refund := refundToken config now s.buckets key
    ⟨refund.1,now,s.log ++ (if refund.2 then [⟨key,now,.refunded⟩] else [])⟩
  | (now,.drain key drainAmount) => ⟨drain config now s.buckets key drainAmount,now,s.log⟩

/-- The time does not go back, and no bucket is drained of less than nothing. -/
def enabled (s : TokenLedger Key) : ℚ × TokenCall Key → Prop
  | (now,.drain _ drainAmount) => s.clock ≤ now ∧ 0 ≤ drainAmount
  | (now,_) => s.clock ≤ now

instance enabled.decidable (s : TokenLedger Key) (call : ℚ × TokenCall Key) : Decidable (enabled s call) :=
  match call with
  | (now,.drain _ drainAmount) => inferInstanceAs (Decidable (s.clock ≤ now ∧ 0 ≤ drainAmount))
  | (now,.getTokens _) => inferInstanceAs (Decidable (s.clock ≤ now))
  | (now,.tryConsume _) => inferInstanceAs (Decidable (s.clock ≤ now))
  | (now,.refundToken _) => inferInstanceAs (Decidable (s.clock ≤ now))

def start (now : ℚ) : TokenLedger Key := ⟨fun _ => none,now,[]⟩

end TokenLedger

section
variable {Key : Type} [DecidableEq Key]

/-- How often a move of a key is booked in a span of time. -/
def booked (log : List (TokenBooking Key)) (key : Key) (move : TokenMove) (since until_ : ℚ) : ℕ :=
  log.countP (fun booking => decide (booking.key = key ∧ booking.move = move ∧ since ≤ booking.time ∧ booking.time ≤ until_))

def spent (log : List (TokenBooking Key)) (key : Key) (since until_ : ℚ) : ℚ :=
  booked log key .consumed since until_ - booked log key .refunded since until_

theorem spent_append (log more : List (TokenBooking Key)) (key : Key) (since until_ : ℚ) :
    spent (log ++ more) key since until_ = spent log key since until_ + spent more key since until_ := by
  unfold spent booked
  rw [countP_append,countP_append]
  push_cast
  ring

variable {log : List (TokenBooking Key)}

theorem booked_outside {key : Key} {move : TokenMove} {since until_ : ℚ}
    (outside : ∀ booking ∈ log, booking.time < since ∨ until_ < booking.time) : booked log key move since until_ = 0 := by
  refine countP_eq_zero.mpr fun booking member counted => ?_
  obtain ⟨-,-,after,before⟩ := of_decide_eq_true counted
  exact (outside booking member).elim (fun early => absurd after early.not_ge) (fun late => absurd before late.not_ge)

theorem spent_outside {key : Key} {since until_ : ℚ}
    (outside : ∀ booking ∈ log, booking.time < since ∨ until_ < booking.time) : spent log key since until_ = 0 := by
  unfold spent
  rw [booked_outside outside,booked_outside outside]
  norm_num

theorem spent_until {key : Key} {since clock until_ : ℚ} (past : ∀ booking ∈ log, booking.time ≤ clock)
    (later : clock ≤ until_) : spent log key since until_ = spent log key since clock := by
  have same : ∀ move, booked log key move since until_ = booked log key move since clock := by
    intro move
    refine countP_congr fun booking member => ?_
    have before := past booking member
    rw [decide_eq_true_iff,decide_eq_true_iff]
    exact and_congr_right fun _ => and_congr_right fun _ => and_congr_right fun _ => iff_of_true (le_trans before later) before
  unfold spent
  rw [same,same]

theorem spent_single (key other : Key) (move : TokenMove) {since now : ℚ} (within : since ≤ now) :
    spent [⟨other,now,move⟩] key since now = if other = key then (match move with | .consumed => 1 | .refunded => -1) else 0 := by
  unfold spent booked
  by_cases same : other = key
  · cases move <;> simp [same,within]
  · cases move <;> simp [same,within]

end

section
variable {Key : Type} [DecidableEq Key] {config : TokenBucketConfig}

/-- What flows into a bucket in a millisecond. -/
def TokenBucketConfig.rate (config : TokenBucketConfig) : ℚ := config.tokensPerMinute / (1000 * 60)

theorem refillTokens_eq (now : ℚ) (entry : TokenBucketEntry) :
    refillTokens config now entry = min (entry.tokens + config.rate * (now - entry.lastRefill)) config.maxTokens := by
  unfold refillTokens TokenBucketConfig.rate
  congr 2
  ring

theorem currentTokens_set (now : ℚ) (buckets : Buckets Key) (key : Key) (tokens : ℚ) (consumptions : List ℚ) :
    currentTokens config now (setEntry buckets key ⟨tokens,now,consumptions⟩) key = min tokens config.maxTokens := by
  unfold currentTokens setEntry
  rw [if_pos rfl]
  show refillTokens config now ⟨tokens,now,consumptions⟩ = _
  rw [refillTokens_eq,sub_self,mul_zero,add_zero]

theorem currentTokens_other (now : ℚ) (buckets : Buckets Key) {key other : Key} (differs : other ≠ key) (entry : TokenBucketEntry) :
    currentTokens config now (setEntry buckets key entry) other = currentTokens config now buckets other := by
  unfold currentTokens setEntry
  rw [if_neg differs]

variable (config) in
theorem currentTokens_le (now : ℚ) (buckets : Buckets Key) (key : Key) : currentTokens config now buckets key ≤ config.maxTokens := by
  unfold currentTokens
  cases buckets key with
  | none => exact le_refl _
  | some entry =>
    show refillTokens config now entry ≤ _
    rw [refillTokens_eq]
    exact min_le_right _ _

/-- A configuration that a bucket can have. -/
structure TokenBucketConfig.Sound (config : TokenBucketConfig) : Prop where
  maxTokens : 0 ≤ config.maxTokens
  tokensPerMinute : 0 ≤ config.tokensPerMinute

theorem TokenBucketConfig.Sound.rate (sound : config.Sound) : 0 ≤ config.rate :=
  div_nonneg sound.tokensPerMinute (by norm_num)

/-- What a bucket holds is no less than nothing and no more than it may, and dates from the past. -/
structure Stored (config : TokenBucketConfig) (clock : ℚ) (buckets : Buckets Key) : Prop where
  nonneg : ∀ {key entry}, buckets key = some entry → 0 ≤ entry.tokens
  bounded : ∀ {key entry}, buckets key = some entry → entry.tokens ≤ config.maxTokens
  past : ∀ {key entry}, buckets key = some entry → entry.lastRefill ≤ clock

variable {buckets : Buckets Key}

theorem Stored.later {clock now : ℚ} (stored : Stored config clock buckets) (later : clock ≤ now) :
    Stored config now buckets :=
  ⟨stored.nonneg,stored.bounded,fun found => le_trans (stored.past found) later⟩

theorem Stored.set {now : ℚ} (stored : Stored config now buckets) {key : Key} {tokens : ℚ} (nonneg : 0 ≤ tokens)
    (bounded : tokens ≤ config.maxTokens) (consumptions : List ℚ) : Stored config now (setEntry buckets key ⟨tokens,now,consumptions⟩) := by
  have cases_ : ∀ {other entry}, setEntry buckets key ⟨tokens,now,consumptions⟩ other = some entry →
      entry = ⟨tokens,now,consumptions⟩ ∨ buckets other = some entry := by
    intro other entry found
    unfold setEntry at found
    split at found
    · exact Or.inl (Option.some.inj found).symm
    · exact Or.inr found
  refine ⟨fun found => ?_,fun found => ?_,fun found => ?_⟩
  · rcases cases_ found with rfl | old
    · exact nonneg
    · exact stored.nonneg old
  · rcases cases_ found with rfl | old
    · exact bounded
    · exact stored.bounded old
  · rcases cases_ found with rfl | old
    · exact le_refl _
    · exact stored.past old

theorem Stored.currentTokens {now : ℚ} (sound : config.Sound) (stored : Stored config now buckets) (key : Key) :
    0 ≤ currentTokens config now buckets key := by
  unfold PluginHost.currentTokens
  cases found : buckets key with
  | none => exact sound.maxTokens
  | some entry =>
    show 0 ≤ refillTokens config now entry
    rw [refillTokens_eq]
    have flowed : 0 ≤ config.rate * (now - entry.lastRefill) := mul_nonneg sound.rate (sub_nonneg.mpr (stored.past found))
    exact le_min (add_nonneg (stored.nonneg found) flowed) sound.maxTokens

theorem currentTokens_later (sound : config.Sound) {clock now : ℚ} (later : clock ≤ now) (buckets : Buckets Key) (key : Key) :
    currentTokens config now buckets key ≤ currentTokens config clock buckets key + config.rate * (now - clock) := by
  have flowed : 0 ≤ config.rate * (now - clock) := mul_nonneg sound.rate (sub_nonneg.mpr later)
  unfold currentTokens
  cases buckets key with
  | none => exact le_add_of_nonneg_right flowed
  | some entry =>
    show refillTokens config now entry ≤ refillTokens config clock entry + config.rate * (now - clock)
    rw [refillTokens_eq,refillTokens_eq,← min_add_add_right]
    refine min_le_min (le_of_eq ?_) (le_add_of_nonneg_right flowed)
    ring

end

section
variable {Key : Type} [DecidableEq Key] {config : TokenBucketConfig}

def consumptionsOf (buckets : Buckets Key) (key : Key) : List ℚ := ((buckets key).map TokenBucketEntry.consumptions).getD []

/-- What a successful refund finds and leaves. -/
structure Refund (config : TokenBucketConfig) (now : ℚ) (buckets : Buckets Key) (key : Key) (earlier : List ℚ) (time : ℚ) (rest : List ℚ) : Prop where
  found : consumptionsOf buckets key = earlier ++ time :: rest
  recent : now - TOKEN_REFUND_WINDOW_MS ≤ time
  left_ : refundToken config now buckets key =
    (setEntry buckets key ⟨min (currentTokens config now buckets key + 1) config.maxTokens,now,earlier ++ rest⟩,true)

variable (config) in
theorem refundToken_cases (now : ℚ) (buckets : Buckets Key) (key : Key) :
    refundToken config now buckets key = (buckets,false) ∨ ∃ earlier time rest, Refund config now buckets key earlier time rest := by
  unfold refundToken
  cases found : buckets key with
  | none => exact Or.inl rfl
  | some entry =>
    dsimp only
    by_cases any : entry.consumptions.any (isRecent now) = true
    · obtain ⟨time,member,recent⟩ := any_eq_true.mp any
      obtain ⟨first,earlier,rest,-,here,split_,erased⟩ := exists_of_eraseP member recent
      refine Or.inr ⟨earlier,first,rest,?_,of_decide_eq_true here,?_⟩
      · unfold consumptionsOf
        rw [found]
        exact split_
      · unfold refundToken
        rw [found]
        dsimp only
        rw [if_pos any]
        have tokens : currentTokens config now buckets key = refillTokens config now entry := by
          unfold currentTokens
          rw [found]
          rfl
        have left_ : eraseRecent now entry.consumptions = earlier ++ rest := erased
        rw [tokens,left_]
    · rw [if_neg any]
      exact Or.inl rfl

variable (config) in
theorem tryConsume_cases (now : ℚ) (buckets : Buckets Key) (key : Key) :
    tryConsume config now buckets key = none ∨
      1 ≤ currentTokens config now buckets key ∧
        tryConsume config now buckets key =
          some (setEntry buckets key ⟨currentTokens config now buckets key - 1,now,(consumptionsOf buckets key).filter (isRecent now) ++ [now]⟩) := by
  unfold tryConsume
  split
  · exact Or.inl rfl
  case isFalse enough => exact Or.inr ⟨not_lt.mp enough,rfl⟩

/-- What was spent since any time and what is there now are no more than a full bucket and what
    has flowed in. -/
structure Solvent (config : TokenBucketConfig) (s : TokenLedger Key) : Prop where
  stored : Stored config s.clock s.buckets
  past : ∀ booking ∈ s.log, booking.time ≤ s.clock
  spent_le : ∀ key since, since ≤ s.clock →
    spent s.log key since s.clock + currentTokens config s.clock s.buckets key ≤ config.maxTokens + config.rate * (s.clock - since)
  bounded : ∀ key since until_, since ≤ until_ → spent s.log key since until_ ≤ config.maxTokens + config.rate * (until_ - since)

variable {s : TokenLedger Key}

section
variable (sound : config.Sound)
include sound

theorem Solvent.act (solvent : Solvent config s) {now : ℚ} (later : s.clock ≤ now)
    {buckets : Buckets Key} {more : List (TokenBooking Key)} (stored : Stored config now buckets) (dated : ∀ booking ∈ more, booking.time = now)
    (paid : ∀ key since, since ≤ now → spent more key since now + currentTokens config now buckets key ≤ currentTokens config now s.buckets key) :
    Solvent config ⟨buckets,now,s.log ++ more⟩ := by
  have past : ∀ booking ∈ s.log ++ more, booking.time ≤ now := by
    intro booking member
    rcases mem_append.mp member with old | new
    · exact le_trans (solvent.past booking old) later
    · exact le_of_eq (dated booking new)
  have spent_le : ∀ key since, since ≤ now →
      spent (s.log ++ more) key since now + currentTokens config now buckets key ≤ config.maxTokens + config.rate * (now - since) := by
    intro key since within
    have here := paid key since within
    rw [spent_append]
    rcases le_or_gt since s.clock with before | after
    · have same : spent s.log key since now = spent s.log key since s.clock := spent_until solvent.past later
      have had := solvent.spent_le key since before
      have gained := currentTokens_later sound later s.buckets key
      linarith
    · have nothing : spent s.log key since now = 0 :=
        spent_outside fun booking member => Or.inl (lt_of_le_of_lt (solvent.past booking member) after)
      have full : currentTokens config now s.buckets key ≤ config.maxTokens := currentTokens_le config now s.buckets key
      have flowed : 0 ≤ config.rate * (now - since) := mul_nonneg sound.rate (sub_nonneg.mpr within)
      linarith
  refine ⟨stored,past,spent_le,fun key since until_ within => ?_⟩
  show spent (s.log ++ more) key since until_ ≤ _
  have flowed : 0 ≤ config.rate * (until_ - since) := mul_nonneg sound.rate (sub_nonneg.mpr within)
  rcases lt_or_ge until_ now with before | reached
  · have nothing : spent more key since until_ = 0 :=
      spent_outside fun booking member => Or.inr (lt_of_lt_of_eq before (dated booking member).symm)
    rw [spent_append,nothing,add_zero]
    exact solvent.bounded key since until_ within
  · rcases le_or_gt since now with started | late
    · have here := spent_le key since started
      have tokens : 0 ≤ currentTokens config now buckets key := stored.currentTokens sound key
      have more_ : config.rate * (now - since) ≤ config.rate * (until_ - since) :=
        mul_le_mul_of_nonneg_left (sub_le_sub_right reached since) sound.rate
      rw [spent_until past reached]
      linarith
    · have nothing : spent (s.log ++ more) key since until_ = 0 :=
        spent_outside fun booking member => Or.inl (lt_of_le_of_lt (past booking member) late)
      rw [nothing]
      exact add_nonneg sound.maxTokens flowed

theorem Solvent.quiet (solvent : Solvent config s) {now : ℚ} (later : s.clock ≤ now)
    {buckets : Buckets Key} (stored : Stored config now buckets)
    (fewer : ∀ key, currentTokens config now buckets key ≤ currentTokens config now s.buckets key) : Solvent config ⟨buckets,now,s.log⟩ := by
  have acted := solvent.act sound later stored (fun booking (member : booking ∈ []) => absurd member not_mem_nil) fun key since _ => by
    rw [spent_outside fun booking member => absurd member not_mem_nil,zero_add]
    exact fewer key
  rwa [append_nil] at acted

theorem Solvent.step (solvent : Solvent config s) {call : ℚ × TokenCall Key}
    (may : TokenLedger.enabled s call) : Solvent config (s.step config call) := by
  obtain ⟨now,call⟩ := call
  cases call with
  | getTokens key => exact solvent.quiet sound may (solvent.stored.later may) fun _ => le_refl _
  | tryConsume key =>
    have stored : Stored config now s.buckets := solvent.stored.later may
    show Solvent config (match tryConsume config now s.buckets key with
      | none => { s with clock := now }
      | some buckets => ⟨buckets,now,s.log ++ [⟨key,now,.consumed⟩]⟩)
    rcases tryConsume_cases config now s.buckets key with refused | ⟨enough,consumed⟩
    · rw [refused]
      exact solvent.quiet sound may stored fun _ => le_refl _
    · have full := currentTokens_le config now s.buckets key
      rw [consumed]
      refine solvent.act sound may (stored.set (sub_nonneg.mpr enough) (by linarith) _)
        (fun booking member => congrArg TokenBooking.time (mem_singleton.mp member)) fun other since within => ?_
      rw [spent_single other key .consumed within]
      by_cases same : key = other
      · subst same
        rw [if_pos rfl,currentTokens_set]
        have less := min_le_left (currentTokens config now s.buckets key - 1) config.maxTokens
        linarith
      · rw [if_neg same,currentTokens_other now s.buckets (Ne.symm same),zero_add]
  | refundToken key =>
    have stored : Stored config now s.buckets := solvent.stored.later may
    show Solvent config ⟨(refundToken config now s.buckets key).1,now,
      s.log ++ (if (refundToken config now s.buckets key).2 then [⟨key,now,.refunded⟩] else [])⟩
    rcases refundToken_cases config now s.buckets key with refused | ⟨earlier,time,rest,refund⟩
    · rw [refused]
      show Solvent config ⟨s.buckets,now,s.log ++ []⟩
      rw [append_nil]
      exact solvent.quiet sound may stored fun _ => le_refl _
    · have tokens : 0 ≤ currentTokens config now s.buckets key := stored.currentTokens sound key
      rw [refund.left_]
      refine solvent.act sound may (stored.set (le_min (by linarith) sound.maxTokens) (min_le_right _ _) _)
        (fun booking member => congrArg TokenBooking.time (mem_singleton.mp member)) fun other since within => ?_
      show spent [⟨key,now,.refunded⟩] other since now + _ ≤ _
      rw [spent_single other key .refunded within]
      by_cases same : key = other
      · subst same
        rw [if_pos rfl,currentTokens_set]
        have less := min_le_left (min (currentTokens config now s.buckets key + 1) config.maxTokens) config.maxTokens
        have more := min_le_left (currentTokens config now s.buckets key + 1) config.maxTokens
        dsimp only
        linarith
      · rw [if_neg same,currentTokens_other now s.buckets (Ne.symm same),zero_add]
  | drain key drainAmount =>
    obtain ⟨later,some_⟩ := may
    have stored : Stored config now s.buckets := solvent.stored.later later
    have tokens : 0 ≤ currentTokens config now s.buckets key := stored.currentTokens sound key
    have full := currentTokens_le config now s.buckets key
    have fewer : max 0 (currentTokens config now s.buckets key - drainAmount) ≤ currentTokens config now s.buckets key :=
      max_le tokens (by linarith)
    refine solvent.quiet sound later (stored.set (le_max_left _ _) (le_trans fewer full) _) fun other => ?_
    by_cases same : other = key
    · subst same
      show currentTokens config now (setEntry s.buckets other ⟨max 0 (currentTokens config now s.buckets other - drainAmount),now,_⟩) other ≤ _
      rw [currentTokens_set]
      exact le_trans (min_le_left _ _) fewer
    · exact le_of_eq (currentTokens_other now s.buckets same _)

theorem solvent_start (now : ℚ) : Solvent config (TokenLedger.start now : TokenLedger Key) := by
  refine ⟨⟨(fun found => nomatch found),(fun found => nomatch found),(fun found => nomatch found)⟩,
    fun booking member => absurd member not_mem_nil,fun key since within => ?_,fun key since until_ within => ?_⟩
  · have nothing : spent (TokenLedger.start now : TokenLedger Key).log key since now = 0 :=
      spent_outside fun booking member => absurd member not_mem_nil
    have flowed : 0 ≤ config.rate * (now - since) := mul_nonneg sound.rate (sub_nonneg.mpr within)
    have full := currentTokens_le config now (TokenLedger.start now : TokenLedger Key).buckets key
    show spent (TokenLedger.start now : TokenLedger Key).log key since now + currentTokens config now _ key ≤ config.maxTokens + config.rate * (now - since)
    linarith
  · have nothing : spent (TokenLedger.start now : TokenLedger Key).log key since until_ = 0 :=
      spent_outside fun booking member => absurd member not_mem_nil
    rw [nothing]
    exact add_nonneg sound.maxTokens (mul_nonneg sound.rate (sub_nonneg.mpr within))

end

end

/-! ### Refunds and their consumptions -/

section
variable {Key : Type} [DecidableEq Key] {config : TokenBucketConfig}

/-- Each refund that was booked answers a consumption of its key that was booked before it, no
    longer ago than the window, and no two answer the same. -/
structure Answers (log : List (TokenBooking Key)) (source : ℕ → ℕ) : Prop where
  answered : ∀ (place : ℕ) (key : Key) (time : ℚ), log[place]? = some ⟨key,time,.refunded⟩ →
    source place < place ∧ ∃ began, log[source place]? = some ⟨key,began,.consumed⟩ ∧ began ≤ time ∧ time - TOKEN_REFUND_WINDOW_MS ≤ began
  once : ∀ (place other : ℕ) (key : Key) (time : ℚ) (otherKey : Key) (otherTime : ℚ), log[place]? = some ⟨key,time,.refunded⟩ →
    log[other]? = some ⟨otherKey,otherTime,.refunded⟩ → source place = source other → place = other

/-- The places of the consumptions that a bucket still keeps, in order. -/
def Pending (log : List (TokenBooking Key)) (key : Key) (places : List ℕ) (consumptions : List ℚ) : Prop :=
  List.Forall₂ (fun place time => log[place]? = some ⟨key,time,.consumed⟩) places consumptions

variable {log : List (TokenBooking Key)}
variable {key : Key} {places : List ℕ} {consumptions : List ℚ}

section
variable (pending : Pending log key places consumptions)
include pending

theorem Pending.append (more : List (TokenBooking Key)) : Pending (log ++ more) key places consumptions := by
  refine List.Forall₂.imp (fun place time found => ?_) pending
  obtain ⟨bound,-⟩ := List.getElem?_eq_some_iff.mp found
  rwa [List.getElem?_append_left bound]

theorem Pending.filter (keep : ℚ → Bool) :
    ∃ kept, kept.Sublist places ∧ Pending log key kept (consumptions.filter keep) := by
  induction pending with
  | nil => exact ⟨[],List.Sublist.refl _,List.Forall₂.nil⟩
  | @cons place time places consumptions here _ ih =>
    obtain ⟨kept,sub,rest⟩ := ih
    rw [filter_cons]
    split
    · exact ⟨place :: kept,sub.cons_cons place,List.Forall₂.cons here rest⟩
    · exact ⟨kept,sub.cons place,rest⟩

theorem Pending.bound : ∀ place ∈ places, place < log.length := by
  induction pending with
  | nil => exact fun place member => absurd member not_mem_nil
  | cons here _ ih =>
    refine forall_mem_cons.mpr ⟨?_,ih⟩
    obtain ⟨bound,-⟩ := List.getElem?_eq_some_iff.mp here
    exact bound

end

theorem Pending.split {earlier : List ℚ} {time : ℚ} {rest : List ℚ}
    (pending : Pending log key places (earlier ++ time :: rest)) :
    ∃ before place after, places = before ++ place :: after ∧ log[place]? = some ⟨key,time,.consumed⟩ ∧
      Pending log key (before ++ after) (earlier ++ rest) := by
  induction earlier generalizing places with
  | nil =>
    cases pending with
    | @cons place _ places _ here others => exact ⟨[],place,places,rfl,here,others⟩
  | cons first earlier ih =>
    cases pending with
    | @cons head _ places _ here others =>
      obtain ⟨before,place,after,same,found,left_⟩ := ih others
      exact ⟨head :: before,place,after,congrArg (head :: ·) same,found,List.Forall₂.cons here left_⟩

/-- The consumptions that buckets keep are booked, and answered by no refund. -/
structure Matched (s : TokenLedger Key) (source : ℕ → ℕ) (places : Key → List ℕ) : Prop where
  answers : Answers s.log source
  pending : ∀ key, Pending s.log key (places key) (consumptionsOf s.buckets key)
  distinct : ∀ key, (places key).Nodup
  unanswered : ∀ (place : ℕ) (key : Key) (time : ℚ), s.log[place]? = some ⟨key,time,.refunded⟩ → ∀ other, source place ∉ places other

theorem consumptionsOf_set (buckets : Buckets Key) (key : Key) (entry : TokenBucketEntry) : consumptionsOf (setEntry buckets key entry) key = entry.consumptions := by
  unfold consumptionsOf setEntry
  rw [if_pos rfl]
  rfl

theorem consumptionsOf_other (buckets : Buckets Key) {key other : Key} (differs : other ≠ key) (entry : TokenBucketEntry) :
    consumptionsOf (setEntry buckets key entry) other = consumptionsOf buckets other := by
  unfold consumptionsOf setEntry
  rw [if_neg differs]

theorem getElem?_snoc {last booking : TokenBooking Key} {place : ℕ}
    (found : (log ++ [last])[place]? = some booking) : log[place]? = some booking ∨ place = log.length ∧ booking = last := by
  rcases lt_or_ge place log.length with before | after
  · rw [List.getElem?_append_left before] at found
    exact Or.inl found
  · rw [List.getElem?_append_right after] at found
    obtain ⟨bound,same⟩ := List.getElem?_eq_some_iff.mp found
    have zero : place - log.length = 0 := Nat.lt_one_iff.mp bound
    refine Or.inr ⟨by omega,?_⟩
    rw [← same]
    simp [zero]

theorem getElem?_kept {booking : TokenBooking Key} {place : ℕ} (found : log[place]? = some booking)
    (more : List (TokenBooking Key)) : (log ++ more)[place]? = some booking := by
  obtain ⟨bound,-⟩ := List.getElem?_eq_some_iff.mp found
  rwa [List.getElem?_append_left bound]

variable {s : TokenLedger Key}
variable {source : ℕ → ℕ} {places : Key → List ℕ}

section
variable (matched : Matched s source places)
include matched

theorem Matched.same {buckets : Buckets Key}
    (kept : ∀ key, consumptionsOf buckets key = consumptionsOf s.buckets key) (now : ℚ) : Matched ⟨buckets,now,s.log⟩ source places :=
  ⟨matched.answers,fun key => (kept key).symm ▸ matched.pending key,matched.distinct,matched.unanswered⟩

theorem Matched.consume (key : Key)
    (tokens now : ℚ) (keep : ℚ → Bool) :
    ∃ source places, Matched ⟨setEntry s.buckets key ⟨tokens,now,(consumptionsOf s.buckets key).filter keep ++ [now]⟩,now,
      s.log ++ [⟨key,now,.consumed⟩]⟩ source places := by
  obtain ⟨kept,sub,filtered⟩ := (matched.pending key).filter keep
  have refund_old : ∀ {place : ℕ} {other : Key} {time : ℚ}, (s.log ++ [⟨key,now,.consumed⟩])[place]? = some ⟨other,time,.refunded⟩ →
      s.log[place]? = some ⟨other,time,.refunded⟩ := by
    intro place other time found
    rcases getElem?_snoc found with old | ⟨-,new⟩
    · exact old
    · exact nomatch congrArg TokenBooking.move new
  have known : ∀ other, ∀ place ∈ (if other = key then kept ++ [s.log.length] else places other), place ∈ places other ∨ place = s.log.length := by
    intro other place member
    split at member
    case isTrue same =>
      rcases mem_append.mp member with old | new
      · exact Or.inl (same ▸ sub.subset old)
      · exact Or.inr (mem_singleton.mp new)
    case isFalse => exact Or.inl member
  refine ⟨source,fun other => if other = key then kept ++ [s.log.length] else places other,⟨fun place other time found => ?_,?_⟩,fun other => ?_,
    fun other => ?_,fun place other time found further member => ?_⟩
  · obtain ⟨earlier,began,there,before,within⟩ := matched.answers.answered place other time (refund_old found)
    exact ⟨earlier,began,getElem?_kept there _,before,within⟩
  · intro place other one time two otherTime found second same
    exact matched.answers.once place other one time two otherTime (refund_old found) (refund_old second) same
  · show Pending (s.log ++ [⟨key,now,.consumed⟩]) other (if other = key then kept ++ [s.log.length] else places other)
      (consumptionsOf (setEntry s.buckets key _) other)
    by_cases same : other = key
    · subst same
      rw [if_pos rfl,consumptionsOf_set]
      refine rel_append (filtered.append _) (List.Forall₂.cons ?_ List.Forall₂.nil)
      rw [List.getElem?_append_right (le_refl _),Nat.sub_self]
      rfl
    · rw [if_neg same,consumptionsOf_other s.buckets same]
      exact (matched.pending other).append _
  · show (if other = key then kept ++ [s.log.length] else places other).Nodup
    by_cases same : other = key
    · subst same
      rw [if_pos rfl]
      have fresh : s.log.length ∉ kept := fun member => absurd ((matched.pending other).bound _ (sub.subset member)) (lt_irrefl _)
      exact List.Nodup.append (sub.nodup (matched.distinct other)) (nodup_singleton _) (disjoint_singleton.mpr fresh)
    · rw [if_neg same]
      exact matched.distinct other
  · have old := refund_old found
    rcases known further _ member with before | new
    · exact matched.unanswered place other time old further before
    · obtain ⟨earlier,began,there,-⟩ := matched.answers.answered place other time old
      obtain ⟨bound,-⟩ := List.getElem?_eq_some_iff.mp there
      omega

theorem Matched.refund
    {earlier rest : List ℚ} {time now : ℚ} (kept : consumptionsOf s.buckets key = earlier ++ time :: rest)
    (recent : now - TOKEN_REFUND_WINDOW_MS ≤ time) (past : time ≤ now) (tokens : ℚ) :
    ∃ source places, Matched ⟨setEntry s.buckets key ⟨tokens,now,earlier ++ rest⟩,now,s.log ++ [⟨key,now,.refunded⟩]⟩ source places := by
  have pending := matched.pending key
  rw [kept] at pending
  obtain ⟨before,answer,after,same,there,left_⟩ := pending.split
  have distinct := matched.distinct key
  rw [same] at distinct
  obtain ⟨first,second,apart⟩ := nodup_append.mp distinct
  have sub : (before ++ after).Sublist (places key) := same ▸ (List.Sublist.refl before).append (sublist_cons_self answer after)
  have gone : answer ∉ before ++ after := by
    intro member
    rcases mem_append.mp member with inBefore | inAfter
    · exact apart answer inBefore answer mem_cons_self rfl
    · exact (nodup_cons.mp second).1 inAfter
  have waiting : answer ∈ places key := same ▸ mem_append_right before mem_cons_self
  obtain ⟨bound,-⟩ := List.getElem?_eq_some_iff.mp there
  -- the refund answers the consumption that it takes from the bucket
  have elsewhere : ∀ {place : ℕ}, place < s.log.length → Function.update source s.log.length answer place = source place :=
    fun earlier_ => Function.update_of_ne earlier_.ne _ _
  have within : ∀ {place : ℕ} {booking : TokenBooking Key}, s.log[place]? = some booking → place < s.log.length :=
    fun found => (List.getElem?_eq_some_iff.mp found).1
  have fewer : ∀ other, ∀ place ∈ (if other = key then before ++ after else places other), place ∈ places other := by
    intro other place member
    split at member
    case isTrue here => exact here ▸ sub.subset member
    case isFalse => exact member
  refine ⟨Function.update source s.log.length answer,fun other => if other = key then before ++ after else places other,
    ⟨fun place other began found => ?_,fun place other one began two otherBegan found found' agree => ?_⟩,fun other => ?_,fun other => ?_,
    fun place other began found further member => ?_⟩
  · rcases getElem?_snoc found with old | ⟨rfl,new⟩
    · rw [elsewhere (within old)]
      obtain ⟨lower,start,at_,order,inside⟩ := matched.answers.answered place other began old
      exact ⟨lower,start,getElem?_kept at_ _,order,inside⟩
    · cases new
      rw [Function.update_self]
      exact ⟨bound,time,getElem?_kept there _,past,recent⟩
  · rcases getElem?_snoc found with old | ⟨rfl,new⟩
    · rw [elsewhere (within old)] at agree
      rcases getElem?_snoc found' with old' | ⟨rfl,new'⟩
      · rw [elsewhere (within old')] at agree
        exact matched.answers.once place other one began two otherBegan old old' agree
      · rw [Function.update_self] at agree
        exact absurd (agree ▸ waiting) (matched.unanswered place one began old key)
    · rw [Function.update_self] at agree
      rcases getElem?_snoc found' with old' | ⟨rfl,new'⟩
      · rw [elsewhere (within old')] at agree
        exact absurd (agree ▸ waiting) (matched.unanswered other two otherBegan old' key)
      · rfl
  · show Pending (s.log ++ [⟨key,now,.refunded⟩]) other (if other = key then before ++ after else places other)
      (consumptionsOf (setEntry s.buckets key _) other)
    by_cases here : other = key
    · subst here
      rw [if_pos rfl,consumptionsOf_set]
      exact left_.append _
    · rw [if_neg here,consumptionsOf_other s.buckets here]
      exact (matched.pending other).append _
  · show (if other = key then before ++ after else places other).Nodup
    by_cases here : other = key
    · subst here
      rw [if_pos rfl]
      exact sub.nodup (matched.distinct other)
    · rw [if_neg here]
      exact matched.distinct other
  · rcases getElem?_snoc found with old | ⟨rfl,new⟩
    · rw [elsewhere (within old)] at member
      exact matched.unanswered place other began old further (fewer further _ member)
    · rw [Function.update_self] at member
      by_cases here : further = key
      · subst here
        rw [if_pos rfl] at member
        exact gone member
      · rw [if_neg here] at member
        -- a consumption is of one key only
        obtain ⟨start,kept_⟩ : ∃ start, s.log[answer]? = some ⟨further,start,.consumed⟩ := by
          have others := matched.pending further
          unfold Pending at others
          obtain ⟨index,inside,atIndex⟩ := mem_iff_getElem.mp member
          have paired := List.Forall₂.get others inside (others.length_eq ▸ inside)
          rw [get_eq_getElem,atIndex] at paired
          exact ⟨_,paired⟩
        rw [there] at kept_
        exact here (congrArg TokenBooking.key (Option.some.inj kept_)).symm

theorem Matched.step
    (past : ∀ booking ∈ s.log, booking.time ≤ s.clock) {call : ℚ × TokenCall Key} (may : TokenLedger.enabled s call) :
    ∃ source places, Matched (s.step config call) source places := by
  obtain ⟨now,call⟩ := call
  cases call with
  | getTokens key => exact ⟨source,places,matched.same (fun _ => rfl) now⟩
  | tryConsume key =>
    show ∃ source places, Matched (match tryConsume config now s.buckets key with
      | none => { s with clock := now }
      | some buckets => ⟨buckets,now,s.log ++ [⟨key,now,.consumed⟩]⟩) source places
    rcases tryConsume_cases config now s.buckets key with refused | ⟨-,consumed⟩
    · rw [refused]
      exact ⟨source,places,matched.same (fun _ => rfl) now⟩
    · rw [consumed]
      exact matched.consume key _ now (isRecent now)
  | refundToken key =>
    have later : s.clock ≤ now := may
    show ∃ source places, Matched ⟨(refundToken config now s.buckets key).1,now,
      s.log ++ (if (refundToken config now s.buckets key).2 then [⟨key,now,.refunded⟩] else [])⟩ source places
    rcases refundToken_cases config now s.buckets key with refused | ⟨earlier,time,rest,refund⟩
    · rw [refused]
      show ∃ source places, Matched ⟨s.buckets,now,s.log ++ []⟩ source places
      rw [append_nil]
      exact ⟨source,places,matched.same (fun _ => rfl) now⟩
    · rw [refund.left_]
      have pending := matched.pending key
      rw [refund.found] at pending
      obtain ⟨before,place,after,-,there,-⟩ := pending.split
      exact matched.refund refund.found refund.recent (le_trans (past _ (mem_of_getElem? there)) later) _
  | drain key drainAmount =>
    refine ⟨source,places,matched.same (fun other => ?_) now⟩
    by_cases same : other = key
    · subst same
      exact consumptionsOf_set s.buckets other _
    · exact consumptionsOf_other s.buckets same _

end

/-- In any sequence of calls every bucket holds between nothing and its maximum, spends in a span
    of time no more than a full bucket and what flows in, and gives a token back for a
    consumption once at most and within the window. -/
theorem token_rate_bound (sound : config.Sound) (began : ℚ) (s : TokenLedger Key)
    (run : Runs.Run (TokenLedger.step config) TokenLedger.enabled (TokenLedger.start began) s) :
    (∀ key entry, s.buckets key = some entry → 0 ≤ entry.tokens ∧ entry.tokens ≤ config.maxTokens) ∧
      (∀ key now, s.clock ≤ now → 0 ≤ currentTokens config now s.buckets key ∧ currentTokens config now s.buckets key ≤ config.maxTokens) ∧
      (∀ key since until_, since ≤ until_ →
        spent s.log key since until_ ≤ config.maxTokens + config.tokensPerMinute / (1000 * 60) * (until_ - since)) ∧
      ∃ source, Answers s.log source := by
  have both : Solvent config s ∧ ∃ source places, Matched s source places := by
    refine run.invariant (P := fun s => Solvent config s ∧ ∃ source places, Matched s source places) (fun s call may both => ?_)
      ⟨solvent_start sound began,fun place => place,fun _ => [],⟨(fun _ _ _ found => nomatch found),fun _ _ _ _ _ _ found => nomatch found⟩,
        fun _ => List.Forall₂.nil,fun _ => nodup_nil,fun _ _ _ found => nomatch found⟩
    obtain ⟨solvent,source,places,matched⟩ := both
    exact ⟨solvent.step sound may,matched.step solvent.past may⟩
  obtain ⟨solvent,source,places,matched⟩ := both
  refine ⟨fun key entry found => ⟨solvent.stored.nonneg found,solvent.stored.bounded found⟩,fun key now later => ?_,solvent.bounded,source,matched.answers⟩
  exact ⟨(solvent.stored.later later).currentTokens sound key,currentTokens_le config now s.buckets key⟩

/-- A token is consumed and given back, a bucket is drained, and two more are consumed. -/
def refundedOnce : List (ℚ × TokenCall ℕ) :=
  [(0,.tryConsume 1),(10,.refundToken 1),(20,.drain 1 10),(20,.tryConsume 1),(30,.tryConsume 1),(30,.getTokens 1)]

theorem refundedOnce_bound :
    spent (refundedOnce.foldl (TokenLedger.step {}) (TokenLedger.start 0)).log 1 0 60000 ≤ 50 + 6 / (1000 * 60) * (60000 - 0) :=
  (@token_rate_bound ℕ _ {} ⟨by decide,by decide⟩ 0 _ ((Runs.Run.nil _).ofList refundedOnce (by decide +kernel))).2.2.1 1 0 60000 (by decide)

end

end CodexMultiAuth.PluginHost
