import CodexMultiAuth.JsonStore

/-!
What an update of a JSON store leaves, whatever its requests are answered, as long as
the store could be read by every update that would write over it: nothing has changed
where it failed, else the store is what the update makes of the one it came upon.
-/
namespace CodexMultiAuth.JsonStore
open Exclusive (Task safe safe_mono)
open Dialogue (Program)
open Exclusive.Task

section
variable {Store Carry Result α : Type} {kind : Kind Store} {s : Disk}

theorem Kind.stored_congr {t : Disk} (same : t.file = s.file) : kind.stored t = kind.stored s := by
  unfold Kind.stored
  rw [same]

section
variable {allowed : Disk → Request → Input → Prop} {inv : Disk → Prop}

/-- No attempt comes after this failure. -/
def Final (retryableCodes : List Code) (later : ℕ) (error : Failure) : Prop := later = 0 ∨ ∀ code, error = .fs code → code ∉ retryableCodes

theorem withRetry_safe {retryableCodes : List Code} {operation : ℕ → StoreTask α} {P : Disk → Prop} {Q : Except Failure α → Disk → Prop}
    (each : ∀ later s, P s → safe respond allowed inv (operation later).run
      (fun result t =>
        match result with
        | .ok value => Q (.ok value) t
        | .error error => P t ∧ (Final retryableCodes later error → Q (.error error) t)) s)
    (later : ℕ) (start : P s) : safe respond allowed inv (withRetry retryableCodes operation later).run Q s := by
  induction later generalizing s with
  | zero =>
    refine safe_mono ?_ (each 0 s start)
    intro result t _ after
    cases result with
    | ok value => exact after
    | error error => exact after.2 (Or.inl rfl)
  | succ later ih =>
    rw [withRetry]
    apply safe_tryCatch
    refine safe_mono ?_ (each (later + 1) s start)
    intro result t here after
    cases result with
    | ok value => exact after
    | error error =>
      cases error with
      | fs code =>
        dsimp only
        split
        · exact ih after.1
        · next lasting =>
          refine safe_throw here (after.2 (Or.inr ?_))
          rintro other ⟨⟩ retryable
          exact lasting (List.contains_iff_mem.mpr retryable)
      | syntaxError =>
        refine safe_throw here (after.2 (Or.inr ?_))
        rintro other ⟨⟩

theorem orThrow_safe {answer : Except Code α} {post : Except Failure α → Disk → Prop} (here : inv s)
    (goes : ∀ value, answer = .ok value → post (.ok value) s) (stops : ∀ code, answer = .error code → post (.error (.fs code)) s) :
    safe respond allowed inv (orThrow answer).run post s := by
  cases answer with
  | ok value => exact safe_pure here (goes value rfl)
  | error code => exact safe_throw here (stops code rfl)

theorem mtime_safe (here : inv s) : safe respond allowed inv getJsonStoreFileMtimeMs.run (fun _ t => t = s) s := by
  refine withRetry_safe (P := fun t => t = s) ?_ 4 rfl
  rintro later t rfl
  apply safe_bind
  refine safe_ask here ?_
  intro input _
  cases input with
  | works mtime => exact ⟨here,orThrow_safe here (fun _ _ => rfl) (fun _ _ => ⟨rfl,fun _ => rfl⟩)⟩
  | fails code => exact ⟨here,orThrow_safe here (fun _ _ => rfl) (fun _ _ => ⟨rfl,fun _ => rfl⟩)⟩

end

def Readable (kind : Kind Store) (lenient : Prop) : Disk → Request → Input → Prop
  | disk,.fileExists,.fails _ => lenient ∨ disk.file = none
  | _,.read later,.fails code => lenient ∨ (code ∈ kind.RETRYABLE_FS_CODES ∧ later ≠ 0)
  | _,_,_ => True

instance (kind : Kind Store) (lenient : Prop) [Decidable lenient] (disk : Disk) (request : Request) (input : Input) :
    Decidable (Readable kind lenient disk request input) :=
  match request,input with
  | .fileExists,.fails _ =>
    match file : disk.file with
    | none => isTrue (Or.inr file)
    | some _ => decidable_of_iff lenient (by simp [Readable,file])
  | .read later,.fails code => inferInstanceAs (Decidable (lenient ∨ (code ∈ kind.RETRYABLE_FS_CODES ∧ later ≠ 0)))
  | .fileExists,.works _ => isTrue trivial
  | .read _,.works _ => isTrue trivial
  | .stat,_ => isTrue trivial
  | .mkdir,_ => isTrue trivial
  | .chmod,_ => isTrue trivial
  | .writeTemp _,_ => isTrue trivial
  | .rename,_ => isTrue trivial
  | .unlinkTemp,_ => isTrue trivial

/-- The store can be read by an update that would write over it, and the update is one for it. -/
def Careful (kind : Kind Store) (lenient : Prop) (apt : Store → Prop) (disk : Disk) (request : Request) (input : Input) : Prop :=
  Readable kind lenient disk request input ∧ apt (kind.stored disk)

/-- The store is good, and what is to be moved into place goes on from it. -/
def Kept (kind : Kind Store) (good : Store → Prop) (onward : Store → Store → Prop) (disk : Disk) : Prop :=
  good (kind.stored disk) ∧ ∀ payload, disk.temp = some payload → onward (kind.stored disk) (kind.normalizeStore payload)

variable {lenient : Prop} {apt good : Store → Prop} {onward : Store → Store → Prop}

theorem Kept.untemp {file : Option StoreFile} {temp : Option Json} {unread : Bool} (kept : Kept kind good onward ⟨file,temp,unread⟩) :
    Kept kind good onward ⟨file,none,unread⟩ := by
  refine ⟨kept.1,?_⟩
  rintro payload ⟨⟩

theorem readFile_safe {file : StoreFile} (here : Kept kind good onward s) (there : s.file = some file) :
    safe respond (Careful kind lenient apt) (Kept kind good onward) (readFileWithRetry kind).run
      (fun found t => t.file = s.file ∧
        match found with
        | .ok text => text = file.contents ∧ t.unread = false
        | .error _ => lenient) s := by
  refine withRetry_safe (P := fun t => t.file = s.file ∧ Kept kind good onward t) ?_ 4 ⟨rfl,here⟩
  rintro later t ⟨same,still⟩
  apply safe_bind
  refine safe_ask still ?_
  intro input careful
  cases input with
  | works mtime =>
    obtain ⟨_,temp,unread⟩ := t
    cases same.trans there
    exact ⟨still,safe_pure still ⟨same,rfl,rfl⟩⟩
  | fails code =>
    refine ⟨still,safe_throw still ⟨⟨same,still⟩,fun final => ⟨same,?_⟩⟩⟩
    rcases careful.1 with lenient | ⟨retryable,more⟩
    · exact lenient
    · rcases final with last | lasting
      · exact absurd last more
      · exact absurd retryable (lasting code rfl)

theorem load_safe (here : Kept kind good onward s) :
    safe respond (Careful kind lenient apt) (Kept kind good onward) (loadStore kind).run
      (fun found t => t.file = s.file ∧ apt (kind.stored s) ∧
        ∃ store, found = .ok store ∧ (store = kind.stored s ∧ t.unread = false ∨ lenient ∧ store = kind.emptyStore)) s := by
  rw [loadStore]
  apply safe_bind
  refine safe_ask here ?_
  intro input careful
  cases input with
  | fails code =>
    refine ⟨here,safe_pure here ⟨rfl,careful.2,_,rfl,?_⟩⟩
    rcases careful.1 with lenient | none
    · exact Or.inr ⟨lenient,rfl⟩
    · refine Or.inl ⟨?_,?_⟩
      · unfold Kind.stored
        rw [none]
      · show s.file.isSome = false
        rw [none]
        rfl
  | works mtime =>
    obtain ⟨file,temp,unread⟩ := s
    match file with
    | none => exact ⟨here,safe_pure here ⟨rfl,careful.2,_,rfl,Or.inl ⟨rfl,rfl⟩⟩⟩
    | some ⟨contents,date⟩ =>
      refine ⟨here,?_⟩
      apply safe_tryCatch
      apply safe_bind
      refine safe_mono ?_ (readFile_safe here rfl)
      rintro found t still ⟨same,reads⟩
      cases found with
      | error failure => exact safe_pure still ⟨same,careful.2,_,rfl,Or.inr ⟨reads,rfl⟩⟩
      | ok text =>
        obtain ⟨rfl,read⟩ := reads
        cases text with
        | none => exact safe_bind (safe_throw still (safe_pure still ⟨same,careful.2,_,rfl,Or.inl ⟨rfl,read⟩⟩))
        | some document => exact safe_bind (safe_pure still (safe_pure still ⟨same,careful.2,_,rfl,Or.inl ⟨rfl,read⟩⟩))

/-- A write leaves the store of the document, or the file as it was. -/
def Writes (kind : Kind Store) (payload : Json) (began : Disk) : Except Failure Unit → Disk → Prop
  | .ok _,disk => kind.stored disk = kind.normalizeStore payload ∧ disk.unread = began.unread
  | .error _,disk => disk.file = began.file

section
variable {allowed : Disk → Request → Input → Prop}
variable {payload : Json}

theorem rename_safe {retryableCodes : List Code} (here : Kept kind good onward s) (temp : s.temp = some payload)
    (goodAfter : good (kind.normalizeStore payload)) :
    safe respond allowed (Kept kind good onward) (renameWithRetry retryableCodes).run (Writes kind payload s) s := by
  refine withRetry_safe (P := fun t => t = s) ?_ 4 rfl
  rintro later t rfl
  apply safe_bind
  refine safe_ask here ?_
  intro input _
  obtain ⟨file,_,unread⟩ := t
  cases temp
  cases input with
  | works mtime =>
    have after : Kept kind good onward ⟨some ⟨some payload,mtime⟩,none,unread⟩ := by
      refine ⟨goodAfter,?_⟩
      rintro other ⟨⟩
    exact ⟨after,safe_pure after ⟨rfl,rfl⟩⟩
  | fails code => exact ⟨here,safe_throw here ⟨rfl,fun _ => rfl⟩⟩

theorem writeTemp_safe (here : Kept kind good onward s) (next : onward (kind.stored s) (kind.normalizeStore payload)) :
    safe respond allowed (Kept kind good onward) (writeTempFile payload).run
      (fun found t => t.file = s.file ∧ t.unread = s.unread ∧ ∀ done, found = .ok done → t.temp = some payload) s := by
  apply safe_bind
  refine safe_ask here ?_
  intro input _
  cases input with
  | works mtime =>
    have after : Kept kind good onward { s with temp := some payload } := by
      refine ⟨here.1,?_⟩
      rintro other ⟨⟩
      exact next
    exact ⟨after,safe_pure after ⟨rfl,rfl,fun _ _ => rfl⟩⟩
  | fails code =>
    refine ⟨Kept.untemp here,safe_throw (Kept.untemp here) ⟨rfl,rfl,?_⟩⟩
    rintro done ⟨⟩

theorem moved_safe {retryableCodes : List Code} (here : Kept kind good onward s) (temp : s.temp = some payload)
    (goodAfter : good (kind.normalizeStore payload)) (expectedMtimeMs : Option ℕ) :
    safe respond allowed (Kept kind good onward)
      (do
        assertJsonStoreFileMtimeUnchanged expectedMtimeMs
        renameWithRetry retryableCodes : StoreTask Unit).run (Writes kind payload s) s := by
  apply safe_bind
  rw [assertJsonStoreFileMtimeUnchanged]
  apply safe_bind
  refine safe_mono ?_ (mtime_safe here)
  rintro found t still rfl
  cases found with
  | error failure => exact rfl
  | ok currentMtimeMs =>
    dsimp only
    split
    · exact safe_throw still rfl
    · exact safe_pure still (rename_safe still temp goodAfter)

theorem orUnlink_safe {task : StoreTask Unit}
    (writes : safe respond allowed (Kept kind good onward) task.run (Writes kind payload s) s) :
    safe respond allowed (Kept kind good onward) (orUnlink task).run (Writes kind payload s) s := by
  apply safe_tryCatch
  refine safe_mono ?_ writes
  intro result t here after
  cases result with
  | ok done => exact after
  | error failure =>
    apply safe_bind
    refine safe_ask here ?_
    intro input _
    cases input with
    | works mtime => exact ⟨Kept.untemp here,safe_throw (Kept.untemp here) after⟩
    | fails code => exact ⟨here,safe_throw here after⟩

theorem mkdir_safe (request : Request) (here : Kept kind good onward s) (idle : ∀ disk input, (respond disk request input).1 = disk) :
    safe respond allowed (Kept kind good onward) (Task.ask request : StoreTask (Answer request)).run (fun _ t => t = s) s := by
  refine safe_ask here ?_
  intro input _
  rw [idle]
  exact ⟨here,rfl⟩

theorem mkdir_then {rest : StoreTask Unit} (here : Kept kind good onward s)
    (writes : safe respond allowed (Kept kind good onward) rest.run (Writes kind payload s) s) :
    safe respond allowed (Kept kind good onward) (do let answer ← Task.ask .mkdir; orThrow answer; rest : StoreTask Unit).run
      (Writes kind payload s) s := by
  apply safe_bind
  refine safe_mono ?_ (mkdir_safe .mkdir here (fun disk input => by cases input <;> rfl))
  rintro found t still rfl
  cases found with
  | error failure => exact rfl
  | ok answer =>
    apply safe_bind
    exact orThrow_safe still (fun _ _ => writes) (fun _ _ => rfl)

theorem temp_then {rest : StoreTask Unit} (here : Kept kind good onward s) (next : onward (kind.stored s) (kind.normalizeStore payload))
    (writes : ∀ {t}, Kept kind good onward t → t.temp = some payload →
      safe respond allowed (Kept kind good onward) rest.run (Writes kind payload t) t) :
    safe respond allowed (Kept kind good onward) (do writeTempFile payload; rest).run (Writes kind payload s) s := by
  apply safe_bind
  refine safe_mono ?_ (writeTemp_safe here next)
  rintro found t after ⟨file,unread,temp⟩
  cases found with
  | error failure => exact file
  | ok written =>
    refine safe_mono ?_ (writes after (temp written rfl))
    intro result u _ moved
    cases result with
    | ok done => exact ⟨moved.1,moved.2.trans unread⟩
    | error failure => exact moved.trans file

theorem writeJsonStore_safe (here : Kept kind good onward s) (goodAfter : good (kind.normalizeStore payload))
    (next : onward (kind.stored s) (kind.normalizeStore payload)) (expectedMtimeMs : Option ℕ) :
    safe respond allowed (Kept kind good onward) (writeJsonStoreFileAtomicWithRetry payload expectedMtimeMs).run
      (Writes kind payload s) s := by
  exact mkdir_then here (temp_then here next (fun after temp => orUnlink_safe (moved_safe after temp goodAfter expectedMtimeMs)))

end

/-! ### Updating -/

/-- What an update leaves. Where it could not read the store it has written nothing. -/
def Outcome (kind : Kind Store) (Done : Result → Store → Store → Prop) (began : Disk) : Except Failure Result → Disk → Prop
  | .ok result,disk => (disk.unread = true → disk.file = began.file) ∧ Done result (kind.stored began) (kind.stored disk)
  | .error _,disk => disk.file = began.file

/-- What an update makes of a good store is good and as it should be; a lenient one would
    write nothing to an empty store. -/
structure Mutates (kind : Kind Store) (lenient : Prop) (apt good : Store → Prop) (onward : Store → Store → Prop) (fits : Carry → Prop)
    (Done : Result → Store → Store → Prop) (mutate : Mutate Store Carry Result) : Prop where
  carries : ∀ carry store, fits carry → good store → fits (mutate carry store).1
  keeps : ∀ carry store, fits carry → good store → apt store → (mutate carry store).2.2 = none → Done (mutate carry store).2.1 store store
  writes : ∀ carry store payload, fits carry → good store → apt store → (mutate carry store).2.2 = some payload →
    good (kind.normalizeStore payload) ∧ onward store (kind.normalizeStore payload) ∧ Done (mutate carry store).2.1 store (kind.normalizeStore payload)
  misses : lenient → ∀ carry store, fits carry → good store → apt store →
    (mutate carry kind.emptyStore).2.2 = none ∧ Done (mutate carry kind.emptyStore).2.1 store store

section
variable {fits : Carry → Prop} {Done : Result → Store → Store → Prop} {mutate : Mutate Store Carry Result} {write : Json → Option ℕ → StoreTask Unit}
  {began : Disk}

def WriteRule (kind : Kind Store) (lenient : Prop) (apt good : Store → Prop) (onward : Store → Store → Prop)
    (write : Json → Option ℕ → StoreTask Unit) : Prop :=
  ∀ payload expectedMtimeMs s, Kept kind good onward s → good (kind.normalizeStore payload) → onward (kind.stored s) (kind.normalizeStore payload) →
    safe respond (Careful kind lenient apt) (Kept kind good onward) (write payload expectedMtimeMs).run (Writes kind payload s) s

theorem updateAttempt_safe {again : Failure → Carry → StoreTask Result} (mutates : Mutates kind lenient apt good onward fits Done mutate)
    (rule : WriteRule kind lenient apt good onward write) {carry : Carry} (fit : fits carry) (here : Kept kind good onward s) (same : s.file = began.file)
    (retries : ∀ failure carry t, fits carry → Kept kind good onward t → t.file = began.file →
      safe respond (Careful kind lenient apt) (Kept kind good onward) (again failure carry).run (Outcome kind Done began) t) :
    safe respond (Careful kind lenient apt) (Kept kind good onward) (updateAttempt kind write mutate again carry).run
      (Outcome kind Done began) s := by
  apply safe_bind
  apply safe_attempt
  apply safe_bind
  refine safe_mono ?_ (mtime_safe here)
  rintro found t _ rfl
  cases found with
  | error failure => exact retries failure carry t fit here same
  | ok expectedMtimeMs =>
    apply safe_bind
    refine safe_mono ?_ (load_safe here)
    rintro found u still ⟨file,suits,store,rfl,loaded⟩
    have unmoved : u.file = began.file := file.trans same
    have stored : kind.stored began = kind.stored t := Kind.stored_congr same.symm
    have storedAfter : kind.stored u = kind.stored t := Kind.stored_congr file
    refine safe_pure still ?_
    dsimp only
    rcases loaded with ⟨rfl,read⟩ | ⟨misread,rfl⟩
    · have next := mutates.carries carry (kind.stored t) fit here.1
      have keeps := mutates.keeps carry (kind.stored t) fit here.1 suits
      have writes := fun payload => mutates.writes carry (kind.stored t) payload fit here.1 suits
      revert next keeps writes
      obtain ⟨carry,result,payload⟩ := mutate carry (kind.stored t)
      intro next keeps writes
      cases payload with
      | none =>
        refine safe_pure still ⟨fun _ => unmoved,?_⟩
        rw [stored,storedAfter]
        exact keeps rfl
      | some payload =>
        obtain ⟨goodAfter,goes,done⟩ := writes payload rfl
        rw [← storedAfter] at goes
        apply safe_tryCatch
        apply safe_bind
        refine safe_mono ?_ (rule payload expectedMtimeMs u still goodAfter goes)
        intro found v kept after
        cases found with
        | error failure => exact retries failure carry v next kept (after.trans unmoved)
        | ok written =>
          refine safe_pure kept ⟨?_,?_⟩
          · intro unread
            rw [after.2,read] at unread
            cases unread
          · rw [after.1,stored]
            exact done
    · have misses := mutates.misses misread carry (kind.stored t) fit here.1 suits
      revert misses
      obtain ⟨carry,result,payload⟩ := mutate carry kind.emptyStore
      rintro ⟨rfl,done⟩
      refine safe_pure still ⟨fun _ => unmoved,?_⟩
      rw [stored,storedAfter]
      exact done

theorem update_safe (mutates : Mutates kind lenient apt good onward fits Done mutate) (rule : WriteRule kind lenient apt good onward write) {carry : Carry}
    (fit : fits carry) (here : Kept kind good onward s) :
    safe respond (Careful kind lenient apt) (Kept kind good onward) (withJsonStoreCasRetry kind write mutate carry).run
      (Outcome kind Done s) s := by
  rw [withJsonStoreCasRetry]
  have attempts (later : ℕ) : ∀ carry t, fits carry → Kept kind good onward t → t.file = s.file →
      safe respond (Careful kind lenient apt) (Kept kind good onward) (updateAttempts kind write mutate later carry).run
        (Outcome kind Done s) t := by
    induction later with
    | zero =>
      intro carry t fit here same
      exact updateAttempt_safe mutates rule fit here same (fun _ _ _ _ still unmoved => safe_throw still unmoved)
    | succ later ih =>
      intro carry t fit here same
      refine updateAttempt_safe mutates rule fit here same ?_
      intro failure carry u next still unmoved
      split
      · exact ih carry u next still unmoved
      · exact safe_throw still unmoved
  exact attempts 2 carry s fit here rfl

end

theorem respond_onward (refl : ∀ store, onward store store) (kept : Kept kind good onward s) (request : Request) (input : Input) :
    onward (kind.stored s) (kind.stored (respond s request input).1) := by
  obtain ⟨file,temp,unread⟩ := s
  match request,input with
  | .rename,.works mtime =>
    cases temp with
    | none => exact refl _
    | some payload => exact kept.2 payload rfl
  | .rename,.fails code => exact refl _
  | .stat,.works mtime => exact refl _
  | .stat,.fails code => exact refl _
  | .fileExists,.works mtime => exact refl _
  | .fileExists,.fails code => exact refl _
  | .read later,.works mtime =>
    cases file with
    | none => exact refl _
    | some file => exact refl _
  | .read later,.fails code => exact refl _
  | .mkdir,.works mtime => exact refl _
  | .mkdir,.fails code => exact refl _
  | .chmod,.works mtime => exact refl _
  | .chmod,.fails code => exact refl _
  | .writeTemp payload,.works mtime => exact refl _
  | .writeTemp payload,.fails code => exact refl _
  | .unlinkTemp,.works mtime => exact refl _
  | .unlinkTemp,.fails code => exact refl _

section
variable {Tag : Type} {allowed : Tag → Disk → Request → Input → Prop} {program : Tag → Program Answer (Except Failure Result)}
  {post : Tag → Disk → Except Failure Result → Disk → Prop} {w w' : Exclusive.World Answer Disk Tag (Except Failure Result)}

theorem onward_run (refl : ∀ store, onward store store) (trans : ∀ store later last, onward store later → onward later last → onward store last)
    (starts : ∀ tag s, Kept kind good onward s → safe respond (allowed tag) (Kept kind good onward) (program tag) (post tag s) s)
    (keeps : Exclusive.Keeps respond allowed (Kept kind good onward) post w) (run : Exclusive.Runs respond allowed program w w') :
    Exclusive.Keeps respond allowed (Kept kind good onward) post w' ∧ onward (kind.stored w.state) (kind.stored w'.state) := by
  refine run.invariant (P := fun v => Exclusive.Keeps respond allowed (Kept kind good onward) post v ∧ onward (kind.stored w.state) (kind.stored v.state))
    ?_ ⟨keeps,refl _⟩
  rintro v action may ⟨kept,goes⟩
  refine ⟨Exclusive.Keeps.step starts v action may kept,?_⟩
  cases action with
  | begin tag => exact goes
  | leave => exact goes
  | answer input =>
    obtain ⟨state,call⟩ := v
    match call with
    | none => exact goes
    | some ⟨tag,began,.done result⟩ => exact goes
    | some ⟨tag,began,.ask request next⟩ => exact trans _ _ _ goes (respond_onward refl kept.1 request input)

end

end
end CodexMultiAuth.JsonStore
