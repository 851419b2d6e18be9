import CodexMultiAuth.FileLock

/-!
The transaction lock excludes. A call that holds the lock has its file in the lock
directory, so nothing can be renamed onto it, and only a dead or a finished owner's
file is ever unlinked by another call.
-/
namespace CodexMultiAuth.FileLock
open Function
set_option linter.unusedSectionVars false

private theorem not_dot_of_hex {c : Char} (hex : isHex c = true) : (c == '.') = false := by
  by_contra dot
  have : c = '.' := by simpa using dot
  subst this
  revert hex
  decide

private theorem not_dot_of_uuid {c : Char} (form : (isHex c || c == '-') = true) : (c == '.') = false := by
  by_contra dot
  have : c = '.' := by simpa using dot
  subst this
  revert form
  decide

private theorem not_dot_of_digit {c : Char} (digit : c.isDigit = true) : (c == '.') = false := by
  by_contra dot
  have : c = '.' := by simpa using dot
  subst this
  revert digit
  decide

private theorem splitOn_three (host pid uuid : List Char) (host_plain : ∀ c ∈ host, (c == '.') = false)
    (pid_plain : ∀ c ∈ pid, (c == '.') = false) (uuid_plain : ∀ c ∈ uuid, (c == '.') = false) :
    (host ++ '.' :: (pid ++ '.' :: uuid)).splitOn '.' = [host,pid,uuid] := by
  show List.splitOnP (· == '.') _ = _
  rw [List.splitOnP_append_cons_of_forall_mem host_plain '.' rfl,List.splitOnP_append_cons_of_forall_mem pid_plain '.' rfl,
    List.splitOnP_eq_singleton uuid_plain]

private theorem isPid_append {digits : List Char} (pid : isPid digits = true) {c : Char} (digit : c.isDigit = true) :
    isPid (digits ++ [c]) = true := by
  cases digits with
  | nil => simp [isPid] at pid
  | cons first rest =>
    simp only [isPid,Bool.and_eq_true] at pid
    simp [isPid,pid.1,pid.2,digit]

private theorem isPid_toDigits {n : Nat} (pos : 0 < n) : isPid (Nat.toDigits 10 n) = true := by
  induction n using Nat.strongRecOn with
  | ind n ih =>
    by_cases small : n < 10
    · rw [Nat.toDigits_of_lt_base small]
      have : ∀ n : Fin 10, 0 < n.val → isPid [n.val.digitChar] = true := by decide
      exact this ⟨n,small⟩ pos
    · rw [Nat.toDigits_of_base_le (by decide) (by omega)]
      refine isPid_append (ih (n / 10) (by omega) (by omega)) ?_
      have : ∀ n : Fin 10, n.val.digitChar.isDigit = true := by decide
      exact this ⟨n % 10,Nat.mod_lt n (by decide)⟩

variable {Call : Type} [DecidableEq Call] {calls : Calls Call}
variable (calls) in
theorem owner_parts (t : Call) :
    (calls.owner t).toList.splitOn '.' = [calls.host.toList,Nat.toDigits 10 (calls.pid t),(calls.randomUUID t).toList] := by
  have parts : (calls.owner t).toList =
      calls.host.toList ++ '.' :: (Nat.toDigits 10 (calls.pid t) ++ '.' :: (calls.randomUUID t).toList) := by
    simp [Calls.owner,ownerName,Nat.toList_repr]
  rw [parts]
  refine splitOn_three _ _ _ ?_ ?_ ?_
  · exact fun c member => not_dot_of_hex (List.all_eq_true.mp calls.host_hex.2 c member)
  · exact fun c member => not_dot_of_digit (Nat.isDigit_of_mem_toDigits (by decide) (by decide) member)
  · exact fun c member => not_dot_of_uuid (List.all_eq_true.mp (calls.uuid_form t).2 c member)

theorem owner_inj {t u : Call} (same : calls.owner t = calls.owner u) : t = u := by
  apply calls.uuid_unique
  have parts := owner_parts calls t
  rw [same,owner_parts calls u] at parts
  simp only [List.cons.injEq,and_true] at parts
  exact String.toList_inj.mp parts.2.2.symm

theorem ownerPattern_owner (t : Call) : ownerPattern (calls.owner t) = some ⟨calls.host,calls.pid t⟩ := by
  rw [ownerPattern,owner_parts]
  have hex := calls.host_hex
  have form := calls.uuid_form t
  simp only [hex.1,hex.2,form.1,form.2,isPid_toDigits (calls.pid_safe t).1,and_true,if_true,Nat.ofDigitChars_ten_toDigits,
    String.ofList_toList]

/-! ### What the file operations do to the entries -/

variable {path : Path}
variable {fs after : FileSystem}

theorem mkdtemp_entries (made : mkdtemp fs path = .ok after) (q : Path) :
    (after q).entries = (fs q).entries := by
  unfold mkdtemp at made
  split at made
  · next absent =>
    obtain rfl := Except.ok.inj made
    by_cases same : q = path
    · subst same; simp [FileSystem.put,absent,Node.entries]
    · simp [FileSystem.put,same]
  · cases made

theorem rmdir_entries (removed : rmdir fs path = .ok after) (q : Path) :
    (after q).entries = (fs q).entries := by
  unfold rmdir at removed
  split at removed
  · cases removed
  · cases removed
  · next empty =>
    obtain rfl := Except.ok.inj removed
    by_cases same : q = path
    · subst same; simp [FileSystem.put,empty,Node.entries]
    · simp [FileSystem.put,same]
  · cases removed

variable {name : String}

theorem mem_writeFile (written : writeFile fs path name = .ok after)
    (q : Path) (entry : String) : entry ∈ (after q).entries ↔ entry ∈ (fs q).entries ∨ q = path ∧ entry = name := by
  unfold writeFile at written
  split at written
  · cases written
  · cases written
  · next entries directory =>
    split at written
    · cases written
    · obtain rfl := Except.ok.inj written
      by_cases same : q = path
      · subst same; simp [FileSystem.put,directory,Node.entries]
      · simp [FileSystem.put,same]

theorem mem_unlink (unlinked : unlink fs path name = .ok after)
    (q : Path) (entry : String) : entry ∈ (after q).entries ↔ entry ∈ (fs q).entries ∧ ¬ (q = path ∧ entry = name) := by
  unfold unlink at unlinked
  split at unlinked
  · cases unlinked
  · cases unlinked
  · next entries directory =>
    split at unlinked
    · obtain rfl := Except.ok.inj unlinked
      by_cases same : q = path
      · subst same; simp [FileSystem.put,directory,Node.entries]
      · simp [FileSystem.put,same]
    · cases unlinked

theorem rename_entries {source target : Path} (renamed : rename fs source target = .ok after)
    (apart : source ≠ target) :
    (fs target).entries = [] ∧ (after target).entries = (fs source).entries ∧ (after source).entries = [] ∧
      ∀ q, q ≠ source → q ≠ target → (after q).entries = (fs q).entries := by
  unfold rename at renamed
  split at renamed
  · cases renamed
  · cases renamed
  · cases renamed
  · cases renamed
  · next not_absent not_other_directory not_directory_other not_full =>
    obtain rfl := Except.ok.inj renamed
    refine ⟨?_,?_,?_,?_⟩
    · cases held : fs target with
      | absent => rfl
      | other => rfl
      | directory entries =>
        cases moved : fs source with
        | absent => exact absurd moved not_absent
        | other => exact absurd held (not_other_directory _ moved)
        | directory rows =>
          cases entries with
          | nil => rfl
          | cons entry rest => exact absurd held (not_full _ _ _ moved)
    · simp [FileSystem.put,apart.symm]
    · simp [FileSystem.put,Node.entries]
    · intro q q_source q_target
      simp [FileSystem.put,q_source,q_target]

theorem removeEmpty_rmdir {choice : Choice}
    (removed : removeEmpty fs (attempt choice (rmdir fs path)) = .ok after) (q : Path) : (after q).entries = (fs q).entries := by
  unfold removeEmpty at removed
  split at removed
  · next succeeded =>
    obtain rfl := Except.ok.inj removed
    cases choice <;> first | exact rmdir_entries succeeded q | cases succeeded
  · split at removed
    · obtain rfl := Except.ok.inj removed
      rfl
    · cases removed

theorem attempt_ok {α : Type} {choice : Choice} {result : Except ErrorCode α} {value : α}
    (done : attempt choice result = .ok value) : result = .ok value := by
  cases choice <;> first | exact done | cases done

/-! ### What one step does -/

/-- The owner's file is not written yet. -/
def Fresh : Phase → Prop
  | .created | .scanning _ | .made _ | .writing _ => True
  | .recovering _ _ (.scan _) => True
  | _ => False

def Waiting (suffix : String) : Phase → Prop
  | .ready own | .refused own _ | .failed own _ => own = suffix
  | .recovering _ _ (.acquire own) => own = suffix
  | _ => False

/-- The lock is acquired and its release has not begun. -/
def Holding : Phase → Prop
  | .published | .inside _ => True
  | _ => False

def Gone : Phase → Prop
  | .abandoned _ _ | .done => True
  | _ => False

def Judges (entries : List String) : Phase → Prop
  | .recovering _ (.judge read) _ => read = entries
  | _ => False

def Removes (name : String) : Phase → Prop
  | .recovering _ (.remove removed) _ => removed = name
  | _ => False

/-- What became of the entries while the call went from one phase to the next. -/
inductive Change (own : String) (before after : FileSystem) (phase next : Phase) : Prop where
  | kept (entries : ∀ q, (after q).entries = (before q).entries) (waiting : ∀ suffix, Waiting suffix next → Waiting suffix phase)
      (holding : Holding next → Holding phase)
  | wrote (suffix : String) (next_ready : next = .ready suffix)
      (entries : ∀ q entry, entry ∈ (after q).entries ↔ entry ∈ (before q).entries ∨ q = .candidate suffix ∧ entry = own)
  | renamed (suffix : String) (phase_ready : phase = .ready suffix) (next_published : next = .published)
      (lock_empty : (before .lock).entries = []) (lock_entries : (after .lock).entries = (before (.candidate suffix)).entries)
      (source_empty : (after (.candidate suffix)).entries = [])
      (entries : ∀ q, q ≠ .candidate suffix → q ≠ .lock → (after q).entries = (before q).entries)
  | unlinked (path : Path) (name : String) (whose : name = own ∧ (∀ suffix, ¬ Waiting suffix next) ∨ Removes name phase)
      (entries : ∀ q entry, entry ∈ (after q).entries ↔ entry ∈ (before q).entries ∧ ¬ (q = path ∧ entry = name))
      (waiting : ∀ suffix, Waiting suffix next → Waiting suffix phase) (holding : ¬ Holding next)

/-- Everything that a step of a call does. -/
structure Effect (calls : Calls Call) (s : State Call) (t : Call) (after : State Call) : Prop where
  status : after.status = s.status
  others : ∀ u, u ≠ t → after.phase u = s.phase u
  abandonedOwners : ∀ pid name, name ∈ after.abandonedOwners pid →
    name ∈ s.abandonedOwners pid ∨ name = calls.owner t ∧ Gone (after.phase t)
  gone : Gone (s.phase t) → Gone (after.phase t)
  fresh : Fresh (after.phase t) → Fresh (s.phase t)
  judges : ∀ entries, Judges entries (after.phase t) → ∃ path, entries = (s.fs path).entries
  removes : ∀ name, Removes name (after.phase t) → ∃ entries, Judges entries (s.phase t) ∧ name ∈ entries ∧
    (name ∈ s.abandonedOwners (calls.pid t) ∨ ∃ owner, ownerPattern name = some owner ∧ s.isDead owner.pid = true)
  change : Change (calls.owner t) s.fs after.fs (s.phase t) (after.phase t)

/-- A move that neither looks at another owner nor touches the entries. -/
structure Quiet (phase next : Phase) : Prop where
  gone : Gone phase → Gone next
  fresh : Fresh next → Fresh phase
  judges : ∀ entries, ¬ Judges entries next
  removes : ∀ name, ¬ Removes name next
  waiting : ∀ suffix, Waiting suffix next → Waiting suffix phase
  holding : Holding next → Holding phase

@[simp] theorem goto_phase (s : State Call) (t : Call) (next : Phase) : (s.goto t next).phase t = next := by
  simp [State.goto]

theorem goto_others (s : State Call) (t : Call) (next : Phase) (u : Call) (other : u ≠ t) :
    (s.goto t next).phase u = s.phase u := by
  simp [State.goto,other]

variable {s : State Call} {t : Call}
variable {phase next : Phase}

theorem quiet_effect (at_phase : s.phase t = phase) (quiet : Quiet phase next)
    {fs : FileSystem} (entries : ∀ q, (fs q).entries = (s.fs q).entries) {owners : Nat → List String}
    (abandoned : ∀ pid name, name ∈ owners pid → name ∈ s.abandonedOwners pid ∨ name = calls.owner t ∧ Gone next) :
    Effect calls s t { s.goto t next with fs := fs,abandonedOwners := owners } where
  status := rfl
  others := goto_others s t next
  abandonedOwners := by simpa [State.goto] using abandoned
  gone := by rw [at_phase]; simpa [State.goto] using quiet.gone
  fresh := by rw [at_phase]; simpa [State.goto] using quiet.fresh
  judges read judges := absurd (by simpa [State.goto] using judges) (quiet.judges read)
  removes name removes := absurd (by simpa [State.goto] using removes) (quiet.removes name)
  change := by
    rw [at_phase]
    simp only [State.goto,update_self]
    exact .kept entries quiet.waiting quiet.holding

theorem goto_effect (at_phase : s.phase t = phase) (quiet : Quiet phase next) :
    Effect calls s t (s.goto t next) := quiet_effect at_phase quiet (fun _ => rfl) (fun _ _ => .inl)

theorem goto_fs_effect (at_phase : s.phase t = phase) (quiet : Quiet phase next)
    {fs : FileSystem} (entries : ∀ q, (fs q).entries = (s.fs q).entries) :
    Effect calls s t { s.goto t next with fs := fs } := quiet_effect at_phase quiet entries (fun _ _ => .inl)

variable {phase : Phase}

theorem stay_effect (at_phase : s.phase t = phase) (quiet : Quiet phase phase) :
    Effect calls s t s := by
  have same : s.goto t phase = s := by
    unfold State.goto
    rw [← at_phase,update_eq_self]
  have : Effect calls s t (s.goto t phase) := goto_effect at_phase quiet
  rwa [same] at this

section
attribute [local simp] State.goto Gone Fresh Judges Removes Waiting Holding

theorem resume_quiet (path : Path) (stage : Recovery) (back : Back) (result : Option ErrorCode) :
    Quiet (.recovering path stage back) (back.resume result) := by
  cases back <;> cases result <;> constructor <;> simp [Back.resume]

theorem stage_quiet (path : Path) (stage next : Recovery) (back : Back) (not_judge : ∀ entries, next ≠ .judge entries)
    (not_remove : ∀ name, next ≠ .remove name) : Quiet (.recovering path stage back) (.recovering path next back) := by
  cases back <;> cases next <;> constructor <;> simp_all

theorem judge_effect {entries : List String} {back : Back}
    (at_phase : s.phase t = .recovering path (.judge entries) back) :
    Effect calls s t (s.goto t (judge calls s t path back entries)) := by
  rcases entries with _ | ⟨name,_ | ⟨second,rest⟩⟩
  · exact goto_effect at_phase (stage_quiet path _ _ back (by simp) (by simp))
  · have resumed : Effect calls s t (s.goto t (back.resume none)) := goto_effect at_phase (resume_quiet path _ back none)
    simp only [judge]
    split
    · exact resumed
    · split
      · exact resumed
      · next owner pattern =>
        split
        · exact resumed
        · split
          · exact resumed
          · next allowed =>
            refine ⟨rfl,goto_others s t _,fun _ _ member => .inl member,?_,?_,?_,?_,?_⟩
            · simp [at_phase]
            · cases back <;> simp [at_phase]
            · simp
            · intro removed removes
              have : name = removed := by simpa  using removes
              subst this
              refine ⟨[name],by simp [at_phase],by simp,?_⟩
              by_cases abandoned : name ∈ s.abandonedOwners (calls.pid t)
              · exact .inl abandoned
              · exact .inr ⟨owner,pattern,by simpa [abandoned] using allowed⟩
            · rw [at_phase,goto_phase]
              exact .kept (fun _ => rfl) (by cases back <;> simp) (by simp)
  · exact goto_effect at_phase (resume_quiet path _ back _)

variable (choice : Choice)

theorem recoverDeadOwner_effect {stage : Recovery} {back : Back}
    (at_phase : s.phase t = .recovering path stage back) : Effect calls s t (recoverDeadOwner calls s t path back choice stage) := by
  have resumed : ∀ result, Effect calls s t (s.goto t (back.resume result)) :=
    fun result => goto_effect at_phase (resume_quiet path _ back result)
  cases stage with
  | stat =>
    simp only [recoverDeadOwner]
    split
    · exact goto_effect at_phase (stage_quiet path _ _ back (by simp) (by simp))
    · exact resumed _
    · exact resumed _
    · exact resumed _
  | list =>
    simp only [recoverDeadOwner]
    split
    · next entries read =>
      have listed : entries = (s.fs path).entries := by
        have := attempt_ok read
        unfold readdir at this
        split at this
        · cases this
        · cases this
        · next rows directory => simpa [directory,Node.entries] using (Except.ok.inj this).symm
      refine ⟨rfl,goto_others s t _,fun _ _ member => .inl member,?_,?_,?_,?_,?_⟩
      · simp [at_phase]
      · cases back <;> simp [at_phase]
      · intro rows judges
        have : entries = rows := by simpa  using judges
        exact ⟨path,this ▸ listed⟩
      · simp
      · rw [at_phase,goto_phase]
        exact .kept (fun _ => rfl) (by cases back <;> simp) (by simp)
    · exact resumed _
    · exact resumed _
  | judge entries => exact judge_effect at_phase
  | remove name =>
    simp only [recoverDeadOwner]
    split
    · next fs unlinked =>
      refine ⟨rfl,goto_others s t _,fun _ _ member => .inl member,?_,?_,?_,?_,?_⟩
      · simp [at_phase]
      · cases back <;> simp [at_phase]
      · simp
      · simp
      · simp only [at_phase,State.goto,update_self]
        refine .unlinked path name (.inr (by simp)) (mem_unlink (attempt_ok unlinked)) ?_ (by simp)
        cases back <;> simp
    · exact resumed _
    · exact resumed _
  | forget name =>
    refine quiet_effect at_phase (stage_quiet path _ _ back (by simp) (by simp)) (fun _ => rfl) ?_
    intro pid owner member
    by_cases same : pid = calls.pid t
    · subst same
      rw [update_self] at member
      exact .inl (List.mem_filter.mp member).1
    · rw [update_of_ne same] at member
      exact .inl member
  | empty =>
    simp only [recoverDeadOwner]
    split
    · next fs removed => exact goto_fs_effect at_phase (resume_quiet path _ back none) (removeEmpty_rmdir removed)
    · exact resumed _

/-! #### The other steps -/

/-- A phase in which the call neither is fresh, nor waits for the lock or holds it, nor looks at another owner. -/
structure Idle (phase : Phase) : Prop where
  fresh : ¬ Fresh phase
  judges : ∀ entries, ¬ Judges entries phase
  removes : ∀ name, ¬ Removes name phase
  waiting : ∀ suffix, ¬ Waiting suffix phase
  holding : ¬ Holding phase

theorem Idle.quiet {phase next : Phase} (idle : Idle next) (gone : Gone phase → Gone next) : Quiet phase next :=
  ⟨gone,fun h => absurd h idle.fresh,idle.judges,idle.removes,fun x h => absurd h (idle.waiting x),fun h => absurd h idle.holding⟩

theorem releasing_idle (path : Path) (stage : Release) : Idle (.releasing path stage) := by
  constructor <;> simp

theorem unreleased_idle (path : Path) (code : ErrorCode) : Idle (.unreleased path code) := by
  constructor <;> simp

theorem abandoned_idle (path : Path) (stage : Release) : Idle (.abandoned path stage) := by
  constructor <;> simp

theorem done_idle : Idle .done := by
  constructor <;> simp

theorem releaseStep_effect {stage : Release}
    (at_phase : s.phase t = phase) {next : Phase} {failed : ErrorCode → Phase} {finish : State Call → State Call}
    (next_idle : Idle next) (next_gone : Gone phase → Gone next) (failed_quiet : ∀ code, Quiet phase (failed code))
    (finish_effect : ∀ fs : FileSystem, (∀ q, (fs q).entries = (s.fs q).entries) → Effect calls s t (finish { s with fs := fs })) :
    Effect calls s t (releaseStep calls s t path choice next failed finish stage) := by
  cases stage with
  | unlink =>
    simp only [releaseStep]
    split
    · next fs unlinked =>
      refine ⟨rfl,goto_others s t _,fun _ _ member => .inl member,?_,?_,?_,?_,?_⟩
      · simpa [at_phase] using next_gone
      · exact fun fresh => absurd (by simpa using fresh) next_idle.fresh
      · exact fun entries judges => absurd (by simpa using judges) (next_idle.judges entries)
      · exact fun name removes => absurd (by simpa using removes) (next_idle.removes name)
      · simp only [at_phase,State.goto,update_self]
        exact .unlinked path _ (.inl ⟨rfl,next_idle.waiting⟩) (mem_unlink (attempt_ok unlinked))
          (fun suffix waits => absurd waits (next_idle.waiting suffix)) next_idle.holding
    · exact goto_effect at_phase (next_idle.quiet next_gone)
    · exact goto_effect at_phase (failed_quiet _)
  | rmdir =>
    simp only [releaseStep]
    split
    · next fs removed => exact finish_effect fs (removeEmpty_rmdir removed)
    · exact goto_effect at_phase (failed_quiet _)

theorem retry_effect {s stop : State Call} {phase next : Phase} (at_phase : s.phase t = phase) (retryable : Bool)
    (choice : Choice) (stay : Quiet phase phase) (quiet : Quiet phase next) (stopped : Effect calls s t stop) :
    Effect calls s t (retry s t retryable choice next stop) := by
  unfold retry
  split
  · exact goto_effect at_phase quiet
  · split
    · exact stopped
    · exact stay_effect at_phase stay

theorem start_effect (at_phase : s.phase t = .created) :
    Effect calls s t (start s t choice) := by
  unfold start
  split
  · exact goto_effect at_phase (by constructor <;> simp)
  · exact goto_effect at_phase (done_idle.quiet (by simp))
  · exact goto_effect at_phase (done_idle.quiet (by simp))
  · exact stay_effect at_phase (by constructor <;> simp)

variable {suffix : String}

theorem recoverDeadCandidate_effect {rest : List String}
    (at_phase : s.phase t = .scanning (suffix :: rest)) : Effect calls s t (recoverDeadCandidate s t suffix rest choice) := by
  have skipped : Effect calls s t (s.goto t (.scanning rest)) :=
    goto_effect at_phase (by constructor <;> simp)
  unfold recoverDeadCandidate
  split
  · split
    · exact goto_effect at_phase (by constructor <;> simp)
    · exact skipped
  · exact skipped

theorem makeCandidate_effect (at_phase : s.phase t = .scanning []) :
    Effect calls s t (makeCandidate s t choice) := by
  have stay : Effect calls s t s := stay_effect at_phase (by constructor <;> simp)
  unfold makeCandidate
  split
  · split
    · next fs made =>
      exact goto_fs_effect at_phase (by constructor <;> simp) (mkdtemp_entries made)
    · exact stay
  · exact goto_effect at_phase (done_idle.quiet (by simp))
  · exact stay

theorem writeOwner_effect (at_phase : s.phase t = .writing suffix) :
    Effect calls s t (writeOwner calls s t suffix choice) := by
  unfold writeOwner
  split
  · next fs written =>
    refine ⟨rfl,goto_others s t _,fun _ _ member => .inl member,?_,?_,?_,?_,?_⟩
    · simp [at_phase]
    · simp
    · simp
    · simp
    · exact .wrote suffix (goto_phase s t _) (mem_writeFile (attempt_ok written))
  · exact goto_effect at_phase ((releasing_idle _ _).quiet (by simp))

theorem publish_effect (at_phase : s.phase t = .ready suffix) :
    Effect calls s t (publish s t suffix choice) := by
  unfold publish
  split
  · exact goto_effect at_phase ((releasing_idle _ _).quiet (by simp))
  · split
    · next fs renamed =>
      obtain ⟨lock_empty,lock_entries,source_empty,entries⟩ := rename_entries (attempt_ok renamed) (by simp)
      refine ⟨rfl,goto_others s t _,fun _ _ member => .inl member,?_,?_,?_,?_,?_⟩
      · simp [at_phase]
      · simp
      · simp
      · simp
      · exact .renamed suffix at_phase (goto_phase s t _) lock_empty lock_entries source_empty entries
    · split
      · exact goto_effect at_phase (by constructor <;> simp)
      · split
        · exact goto_effect at_phase (by constructor <;> simp)
        · exact goto_effect at_phase (by constructor <;> simp)

theorem runAction_effect {reentrant : Nat} (at_phase : s.phase t = .inside reentrant) :
    Effect calls s t (runAction s t choice reentrant) := by
  have moves : ∀ n, Quiet (.inside reentrant) (.inside n) := by
    intro n
    constructor <;> simp
  unfold runAction
  split
  · exact goto_effect at_phase (moves _)
  · exact goto_effect at_phase (moves _)
  · exact goto_effect at_phase ((releasing_idle _ _).quiet (by simp))
  · exact stay_effect at_phase (moves _)

theorem withFileTransactionLock_effect (s : State Call) (t : Call) (choice : Choice) :
    Effect calls s t (withFileTransactionLock calls s t choice) := by
  cases at_phase : s.phase t with
  | created =>
    simp only [withFileTransactionLock,at_phase]
    exact start_effect choice at_phase
  | scanning rest =>
    cases rest with
    | nil =>
      simp only [withFileTransactionLock,at_phase]
      exact makeCandidate_effect choice at_phase
    | cons suffix rest =>
      simp only [withFileTransactionLock,at_phase]
      exact recoverDeadCandidate_effect choice at_phase
  | recovering path stage back =>
    simp only [withFileTransactionLock,at_phase]
    exact recoverDeadOwner_effect choice at_phase
  | made suffix =>
    simp only [withFileTransactionLock,at_phase,chmodCandidate]
    split
    · exact goto_effect at_phase ((releasing_idle _ _).quiet (by simp))
    · exact goto_effect at_phase (by constructor <;> simp)
  | writing suffix =>
    simp only [withFileTransactionLock,at_phase]
    exact writeOwner_effect choice at_phase
  | ready suffix =>
    simp only [withFileTransactionLock,at_phase]
    exact publish_effect choice at_phase
  | refused suffix code =>
    simp only [withFileTransactionLock,at_phase,checkRefused]
    split
    · exact goto_effect at_phase (by constructor <;> simp)
    · exact goto_effect at_phase (by constructor <;> simp)
  | failed suffix code =>
    simp only [withFileTransactionLock,at_phase]
    refine retry_effect at_phase _ choice ?_ ?_ (goto_effect at_phase ((releasing_idle _ _).quiet (by simp)))
    · constructor <;> simp
    · constructor <;> simp
  | published =>
    simp only [withFileTransactionLock,at_phase]
    split
    · exact goto_effect at_phase ((releasing_idle _ _).quiet (by simp))
    · exact goto_effect at_phase (by constructor <;> simp)
  | inside reentrant =>
    simp only [withFileTransactionLock,at_phase]
    exact runAction_effect choice at_phase
  | releasing path stage =>
    simp only [withFileTransactionLock,at_phase]
    refine releaseStep_effect choice at_phase (releasing_idle _ _) (by simp)
      (fun code => (unreleased_idle _ _).quiet (by simp)) ?_
    intro fs entries
    exact goto_fs_effect at_phase (done_idle.quiet (by simp)) entries
  | unreleased path code =>
    simp only [withFileTransactionLock,at_phase]
    refine retry_effect at_phase _ choice ((unreleased_idle _ _).quiet id) ((releasing_idle _ _).quiet (by simp)) ?_
    refine quiet_effect at_phase ((abandoned_idle _ _).quiet (by simp)) (fun _ => rfl) ?_
    intro pid name member
    by_cases same : pid = calls.pid t
    · subst same
      rw [update_self] at member
      rcases List.mem_cons.mp member with own | earlier
      · exact .inr ⟨own,trivial⟩
      · exact .inl earlier
    · rw [update_of_ne same] at member
      exact .inl member
  | abandoned path stage =>
    simp only [withFileTransactionLock,at_phase]
    split
    · exact goto_effect at_phase (done_idle.quiet (by simp))
    · refine releaseStep_effect choice at_phase (abandoned_idle _ _) (by simp)
        (fun code => (abandoned_idle _ _).quiet (by simp)) ?_
      intro fs entries
      refine quiet_effect at_phase (done_idle.quiet (by simp)) entries ?_
      intro pid name member
      by_cases same : pid = calls.pid t
      · subst same
        rw [update_self] at member
        exact .inl (List.mem_filter.mp member).1
      · rw [update_of_ne same] at member
        exact .inl member
  | done =>
    simp only [withFileTransactionLock,at_phase]
    exact stay_effect at_phase (done_idle.quiet id)

end

/-! ### The invariant -/

def State.live (s : State Call) (calls : Calls Call) (t : Call) : Prop := s.status (calls.pid t) = .live

structure Inv (calls : Calls Call) (s : State Call) : Prop where
  born : ∀ t, s.phase t ≠ .created → s.status (calls.pid t) ≠ .unborn
  fresh : ∀ t, Fresh (s.phase t) → ∀ path, calls.owner t ∉ (s.fs path).entries
  waiting : ∀ t suffix, Waiting suffix (s.phase t) → s.live calls t →
    calls.owner t ∈ (s.fs (.candidate suffix)).entries ∨ calls.owner t ∈ (s.fs .lock).entries
  holding : ∀ t, Holding (s.phase t) → s.live calls t → calls.owner t ∈ (s.fs .lock).entries
  alone : ∀ t u, Holding (s.phase t) → s.live calls t → Holding (s.phase u) → s.live calls u → t = u
  abandoned : ∀ t pid, calls.owner t ∈ s.abandonedOwners pid → Gone (s.phase t)
  judges : ∀ r entries, Judges entries (s.phase r) → ∀ t, calls.owner t ∈ entries → ¬ Fresh (s.phase t)
  removes : ∀ r t, Removes (calls.owner t) (s.phase r) → s.status (calls.pid t) = .dead ∨ Gone (s.phase t)

theorem Start.inv (start : Start calls s) : Inv calls s where
  born t moved := absurd (start.phase t) moved
  fresh t _ := start.fresh t
  waiting t suffix waits := by simp [start.phase t,Waiting] at waits
  holding t holds := by simp [start.phase t,Holding] at holds
  alone t _ holds := by simp [start.phase t,Holding] at holds
  abandoned t pid member := by simp [start.abandonedOwners pid] at member
  judges r entries judges := by simp [start.phase r,Judges] at judges
  removes r t removes := by simp [start.phase r,Removes] at removes

theorem Inv.status (inv : Inv calls s) {status : Nat → Status}
    (unborn : ∀ pid, status pid = .unborn → s.status pid = .unborn) (dead : ∀ pid, s.status pid = .dead → status pid = .dead)
    (live : ∀ pid, status pid = .live → s.status pid = .live ∨ s.status pid = .unborn) : Inv calls { s with status := status } := by
  have was_live : ∀ t, s.phase t ≠ .created → status (calls.pid t) = .live → s.live calls t := by
    intro t moved now
    rcases live _ now with before | before
    · exact before
    · exact absurd before (inv.born t moved)
  refine ⟨?_,inv.fresh,?_,?_,?_,inv.abandoned,inv.judges,?_⟩
  · exact fun t moved now => inv.born t moved (unborn _ now)
  · intro t suffix waits now
    exact inv.waiting t suffix waits (was_live t (by rintro same; rw [same] at waits; exact waits) now)
  · intro t holds now
    exact inv.holding t holds (was_live t (by rintro same; rw [same] at holds; exact holds) now)
  · intro t u t_holds t_live u_holds u_live
    refine inv.alone t u t_holds (was_live t ?_ t_live) u_holds (was_live u ?_ u_live)
    · rintro same; rw [same] at t_holds; exact t_holds
    · rintro same; rw [same] at u_holds; exact u_holds
  · intro r t removes
    rcases inv.removes r t removes with gone | gone
    · exact .inl (dead _ gone)
    · exact .inr gone

theorem Waiting.not_gone (waits : Waiting suffix phase) : ¬ Gone phase := by
  cases phase <;> simp_all [Waiting,Gone]

theorem Holding.not_gone (holds : Holding phase) : ¬ Gone phase := by
  cases phase <;> simp_all [Holding,Gone]

theorem Removes.not_gone (removes : Removes name phase) : ¬ Gone phase := by
  cases phase <;> simp_all [Removes,Gone]

theorem Inv.unlinked (inv : Inv calls s) {t u : Call} (other : u ≠ t) {next : Phase}
    (whose : name = calls.owner t ∧ (∀ suffix, ¬ Waiting suffix next) ∨ Removes name (s.phase t)) (live : s.live calls u)
    (not_gone : ¬ Gone (s.phase u)) : calls.owner u ≠ name := by
  rintro rfl
  rcases whose with ⟨own,-⟩ | removes
  · exact other (owner_inj own)
  · rcases inv.removes t u removes with dead | gone
    · rw [State.live,dead] at live
      cases live
    · exact not_gone gone

variable {s after : State Call}

theorem Effect.phase_cases (effect : Effect calls s t after) (u : Call) :
    u = t ∨ u ≠ t ∧ after.phase u = s.phase u := by
  by_cases same : u = t
  · exact .inl same
  · exact .inr ⟨same,effect.others u same⟩

theorem Effect.kept {t u : Call} (effect : Effect calls s t after) (inv : Inv calls s) (other : u ≠ t)
    (live : s.live calls u) (not_gone : ¬ Gone (s.phase u)) :
    (calls.owner u ∈ (s.fs .lock).entries → calls.owner u ∈ (after.fs .lock).entries) ∧
      ∀ suffix, calls.owner u ∈ (s.fs (.candidate suffix)).entries →
        calls.owner u ∈ (after.fs (.candidate suffix)).entries ∨ calls.owner u ∈ (after.fs .lock).entries := by
  cases effect.change with
  | kept entries =>
    simp only [entries]
    exact ⟨id,fun _ => .inl⟩
  | wrote written next_ready entries => exact ⟨fun member => (entries _ _).mpr (.inl member),fun _ member => .inl ((entries _ _).mpr (.inl member))⟩
  | renamed moved phase_ready next_published lock_empty lock_entries source_empty entries =>
    refine ⟨fun member => by simp [lock_empty] at member,?_⟩
    intro suffix member
    by_cases same : suffix = moved
    · subst same
      exact .inr (lock_entries ▸ member)
    · rw [← entries (.candidate suffix) (by simpa using same) (by simp)] at member
      exact .inl member
  | unlinked path name whose entries =>
    have apart := inv.unlinked other whose live not_gone
    exact ⟨fun member => (entries _ _).mpr ⟨member,fun same => apart same.2⟩,
      fun _ member => .inl ((entries _ _).mpr ⟨member,fun same => apart same.2⟩)⟩

theorem Effect.appears (effect : Effect calls s t after) {entry : String}
    (member : entry ∈ (after.fs path).entries) :
    (∃ q, entry ∈ (s.fs q).entries) ∨ entry = calls.owner t ∧ ¬ Fresh (after.phase t) := by
  cases effect.change with
  | kept entries => exact .inl ⟨path,entries path ▸ member⟩
  | wrote written next_ready entries =>
    rcases (entries path entry).mp member with before | ⟨-,own⟩
    · exact .inl ⟨path,before⟩
    · exact .inr ⟨own,by simp [next_ready,Fresh]⟩
  | renamed moved phase_ready next_published lock_empty lock_entries source_empty entries =>
    by_cases source : path = .candidate moved
    · subst source
      simp [source_empty] at member
    · by_cases lock : path = .lock
      · subst lock
        exact .inl ⟨_,lock_entries ▸ member⟩
      · exact .inl ⟨path,entries path source lock ▸ member⟩
  | unlinked removed name whose entries => exact .inl ⟨path,((entries path entry).mp member).1⟩

theorem Effect.waiting (effect : Effect calls s t after) (inv : Inv calls s)
    (live : s.live calls t) (waits : Waiting suffix (after.phase t)) :
    calls.owner t ∈ (after.fs (.candidate suffix)).entries ∨ calls.owner t ∈ (after.fs .lock).entries := by
  cases effect.change with
  | kept entries before =>
    rw [entries,entries]
    exact inv.waiting t suffix (before suffix waits) live
  | wrote written next_ready entries =>
    have same : written = suffix := by simpa [next_ready,Waiting] using waits
    subst same
    exact .inl ((entries _ _).mpr (.inr ⟨rfl,rfl⟩))
  | renamed moved phase_ready next_published => simp [next_published,Waiting] at waits
  | unlinked path name whose entries before =>
    have apart : calls.owner t ≠ name := by
      rintro rfl
      rcases whose with ⟨-,not_waiting⟩ | removes
      · exact not_waiting suffix waits
      · rcases inv.removes t t removes with dead | gone
        · rw [State.live,dead] at live
          cases live
        · exact removes.not_gone gone
    rw [entries,entries]
    rcases inv.waiting t suffix (before suffix waits) live with candidate | lock
    · exact .inl ⟨candidate,fun same => apart same.2⟩
    · exact .inr ⟨lock,fun same => apart same.2⟩

theorem Effect.acquires (effect : Effect calls s t after) (holds : Holding (after.phase t)) :
    Holding (s.phase t) ∧ (∀ q, (after.fs q).entries = (s.fs q).entries) ∨
      (s.fs .lock).entries = [] ∧ ∃ suffix, s.phase t = .ready suffix ∧ (after.fs .lock).entries = (s.fs (.candidate suffix)).entries := by
  cases effect.change with
  | kept entries _ before => exact .inl ⟨before holds,entries⟩
  | wrote written next_ready => simp [next_ready,Holding] at holds
  | renamed moved phase_ready _ lock_empty lock_entries => exact .inr ⟨lock_empty,moved,phase_ready,lock_entries⟩
  | unlinked path name whose entries before not_holding => exact absurd holds not_holding

theorem Effect.alone (effect : Effect calls s t after) (inv : Inv calls s) {u v : Call}
    (u_holds : Holding (after.phase u)) (u_live : s.live calls u) (v_holds : Holding (after.phase v)) (v_live : s.live calls v) :
    u = v := by
  have beside : ∀ w, w ≠ t → Holding (after.phase w) → s.live calls w → Holding (after.phase t) → s.live calls t → w = t := by
    intro w other w_holds w_live t_holds t_live
    rw [effect.others w other] at w_holds
    rcases effect.acquires t_holds with ⟨before,-⟩ | ⟨lock_empty,-⟩
    · exact inv.alone w t w_holds w_live before t_live
    · have := inv.holding w w_holds w_live
      simp [lock_empty] at this
  rcases effect.phase_cases u with rfl | ⟨u_other,u_same⟩ <;> rcases effect.phase_cases v with rfl | ⟨v_other,v_same⟩
  · rfl
  · exact (beside v v_other v_holds v_live u_holds u_live).symm
  · exact beside u u_other u_holds u_live v_holds v_live
  · exact inv.alone u v (u_same ▸ u_holds) u_live (v_same ▸ v_holds) v_live

theorem Effect.fresh_before (effect : Effect calls s t after) {u : Call}
    (fresh : Fresh (after.phase u)) : Fresh (s.phase u) := by
  rcases effect.phase_cases u with rfl | ⟨-,same⟩
  · exact effect.fresh fresh
  · exact same ▸ fresh

theorem Effect.gone_after (effect : Effect calls s t after) {u : Call}
    (gone : Gone (s.phase u)) : Gone (after.phase u) := by
  rcases effect.phase_cases u with rfl | ⟨-,same⟩
  · exact effect.gone gone
  · exact same ▸ gone

theorem Effect.removes_after (effect : Effect calls s t after) (inv : Inv calls s) {r u : Call}
    (removes : Removes (calls.owner u) (after.phase r)) : s.status (calls.pid u) = .dead ∨ Gone (s.phase u) := by
  rcases effect.phase_cases r with rfl | ⟨-,same⟩
  · obtain ⟨entries,judged,member,found⟩ := effect.removes _ removes
    have written := inv.judges r entries judged u member
    rcases found with abandoned | ⟨owner,pattern,dead⟩
    · exact .inr (inv.abandoned u _ abandoned)
    · rw [ownerPattern_owner] at pattern
      obtain rfl := Option.some.inj pattern
      have born := inv.born u (by rintro created; simp [created,Fresh] at written)
      refine .inl ?_
      cases status : s.status (calls.pid u) with
      | unborn => exact absurd status born
      | live => simp [State.isDead,status] at dead
      | dead => rfl
  · exact inv.removes r u (same ▸ removes)

theorem Effect.inv (effect : Effect calls s t after) (live : s.live calls t) (inv : Inv calls s) :
    Inv calls after := by
  have same_live : ∀ u, after.live calls u → s.live calls u := by
    intro u
    rw [State.live,effect.status]
    exact id
  refine ⟨?_,?_,?_,?_,?_,?_,?_,?_⟩
  · intro u moved
    rw [effect.status]
    rcases effect.phase_cases u with rfl | ⟨-,same⟩
    · rw [live]
      simp
    · exact inv.born u (same ▸ moved)
  · intro u fresh path member
    rcases effect.appears member with ⟨q,before⟩ | ⟨own,written⟩
    · exact inv.fresh u (effect.fresh_before fresh) q before
    · rw [owner_inj own] at fresh
      exact written fresh
  · intro u suffix waits u_live
    rcases effect.phase_cases u with rfl | ⟨other,same⟩
    · exact effect.waiting inv live waits
    · rw [same] at waits
      have kept := effect.kept inv other (same_live u u_live) waits.not_gone
      rcases inv.waiting u suffix waits (same_live u u_live) with candidate | lock
      · exact kept.2 suffix candidate
      · exact .inr (kept.1 lock)
  · intro u holds u_live
    rcases effect.phase_cases u with rfl | ⟨other,same⟩
    · rcases effect.acquires holds with ⟨before,entries⟩ | ⟨lock_empty,suffix,ready,lock_entries⟩
      · rw [entries]
        exact inv.holding u before live
      · rw [lock_entries]
        rcases inv.waiting u suffix (by simp [ready,Waiting]) live with candidate | lock
        · exact candidate
        · simp [lock_empty] at lock
    · rw [same] at holds
      exact (effect.kept inv other (same_live u u_live) holds.not_gone).1 (inv.holding u holds (same_live u u_live))
  · intro u v u_holds u_live v_holds v_live
    exact effect.alone inv u_holds (same_live u u_live) v_holds (same_live v v_live)
  · intro u pid member
    rcases effect.abandonedOwners pid _ member with before | ⟨own,gone⟩
    · exact effect.gone_after (inv.abandoned u pid before)
    · exact (owner_inj own) ▸ gone
  · intro r entries judges u member fresh
    rcases effect.phase_cases r with rfl | ⟨-,same⟩
    · obtain ⟨path,rfl⟩ := effect.judges entries judges
      exact inv.fresh u (effect.fresh_before fresh) path member
    · exact inv.judges r entries (same ▸ judges) u member (effect.fresh_before fresh)
  · intro r u removes
    rw [effect.status]
    exact (effect.removes_after inv removes).imp id effect.gone_after

theorem step_inv (s : State Call) (action : Action Call) (enabled : Enabled calls s action) (inv : Inv calls s) :
    Inv calls (step calls s action) := by
  cases action with
  | spawn pid =>
    refine inv.status ?_ ?_ ?_
    all_goals intro other now; by_cases same : other = pid
    all_goals first | (subst same; simp_all [Enabled]) | simp_all [Enabled]
  | die pid =>
    refine inv.status ?_ ?_ ?_
    all_goals intro other now; by_cases same : other = pid
    all_goals first | (subst same; simp_all [Enabled]) | simp_all [Enabled]
  | run t choice => exact (withFileTransactionLock_effect s t choice).inv enabled inv

theorem run_inv (start : Start calls s) (run : Runs.Run (step calls) (Enabled calls) s after) :
    Inv calls after :=
  run.invariant step_inv start.inv

/-- At most one live call is in the protected callback, and whatever anyone else
    does next leaves the lock to the call that acquired it. -/
theorem lock_excludes (start : Start calls s) (run : Runs.Run (step calls) (Enabled calls) s after) :
    (∀ t u reentrant others, after.phase t = .inside reentrant → after.live calls t → after.phase u = .inside others →
        after.live calls u → t = u) ∧
      ∀ action, Enabled calls after action → ∀ t, Holding (after.phase t) → after.live calls t →
        (step calls after action).live calls t → (∀ choice, action ≠ .run t choice) →
          (step calls after action).phase t = after.phase t ∧ calls.owner t ∈ ((step calls after action).fs .lock).entries := by
  have inv := run_inv start run
  refine ⟨?_,?_⟩
  · intro t u reentrant others t_inside t_live u_inside u_live
    exact inv.alone t u (by simp [t_inside,Holding]) t_live (by simp [u_inside,Holding]) u_live
  · intro action enabled t holds live still not_own
    have same : (step calls after action).phase t = after.phase t := by
      cases action with
      | spawn pid => rfl
      | die pid => rfl
      | run r choice =>
        refine (withFileTransactionLock_effect after r choice).others t ?_
        rintro rfl
        exact not_own choice rfl
    refine ⟨same,?_⟩
    exact (step_inv after action enabled inv).holding t (by rw [same]; exact holds) still

section
private def twoCalls : Calls Bool where
  host := "0123456789abcdef"
  pid t := if t then 2 else 1
  randomUUID t := if t then "22222222-2222-4222-8222-222222222222" else "11111111-1111-4111-8111-111111111111"
  host_hex := by decide
  pid_safe := by decide
  uuid_form := by decide
  uuid_unique := by decide

private def quietStart : State Bool where
  fs _ := .absent
  phase _ := .created
  status _ := .live
  abandonedOwners _ := []

private theorem quietStart_start : Start twoCalls quietStart :=
  ⟨fun _ => rfl,fun _ _ => by simp [quietStart,Node.entries],fun _ => rfl⟩

/-- The first owner dies in the callback, and the second call recovers its lock. -/
private def takeover : List (Action Bool) :=
  [.run false (.listed []),.run false (.picked "a"),.run false .go,.run false .go,.run false .go,.run false .go,.die 1,
    .run true (.listed []),.run true (.picked "b"),.run true .go,.run true .go,.run true .go,.run true .go,.run true .go,
    .run true .go,.run true .go,.run true .go,.run true .go,.run true .again,.run true .go,.run true .go]

private instance (s : State Bool) (action : Action Bool) : Decidable (Enabled twoCalls s action) := by
  cases action <;> unfold Enabled <;> infer_instance

theorem lock_excludes_takeover :
    (takeover.foldl (step twoCalls) quietStart).phase true = .inside 0 ∧
      (takeover.foldl (step twoCalls) quietStart).fs .lock = .directory [twoCalls.owner true] ∧
        ∀ u others, (takeover.foldl (step twoCalls) quietStart).phase u = .inside others →
          (takeover.foldl (step twoCalls) quietStart).live twoCalls u → true = u := by
  have inside : (takeover.foldl (step twoCalls) quietStart).phase true = .inside 0 := by decide
  have legal : Runs.Legal (step twoCalls) (Enabled twoCalls) quietStart takeover := by decide
  refine ⟨inside,by decide,?_⟩
  intro u others u_inside u_live
  exact (lock_excludes quietStart_start ((Runs.Run.nil quietStart).ofList takeover legal)).1 true u 0 others inside
    (by unfold State.live; decide) u_inside u_live
end

end CodexMultiAuth.FileLock
