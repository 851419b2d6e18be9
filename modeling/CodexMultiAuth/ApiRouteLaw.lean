import CodexMultiAuth.ApiRouteStore
import CodexMultiAuth.Lists

/-!
Menu saves and discovery on one store, in any number of processes. A write is made from
the store as it is: the menu's when it is what the menu has read, and discovery's by
expanding what is there. Between menu saves the models that a user has hidden stay hidden.
-/
namespace CodexMultiAuth.ApiRoutes
open LockedFile.World
open LockedFile (Await Under Outside Held)

theorem mem_addTo {set : List String} {id other : String} : other ∈ addTo set id ↔ other ∈ set ∨ other = id := by
  rw [addTo]
  split
  · next present =>
    constructor
    · exact Or.inl
    · rintro (here | rfl)
      · exact here
      · exact List.contains_iff_mem.mp present
  · rw [List.mem_append,List.mem_singleton]

theorem mem_foldl_addTo {ids set : List String} {other : String} : other ∈ ids.foldl addTo set ↔ other ∈ set ∨ other ∈ ids := by
  induction ids generalizing set with
  | nil => exact (or_iff_left List.not_mem_nil).symm
  | cons id rest ih => rw [List.foldl_cons,ih,mem_addTo,List.mem_cons,or_assoc]

/-- What is found is kept, and only what was not known is shown. -/
structure Finds (before after : Discovered) : Prop where
  known : ∀ id ∈ before.known, id ∈ after.known
  visible : ∀ id ∈ before.visible, id ∈ after.visible
  shown : ∀ id ∈ after.visible, id ∈ before.visible ∨ id ∉ before.known

theorem discover_finds (found : Discovered) (id : String) : Finds found (discover found id) := by
  refine ⟨fun other member => mem_addTo.mpr (Or.inl member),?_,?_⟩
  · intro other member
    rw [discover]
    dsimp only
    split
    · exact mem_addTo.mpr (Or.inl member)
    · exact member
  · intro other member
    rw [discover] at member
    dsimp only at member
    split at member
    · next fresh =>
      rcases mem_addTo.mp member with old | rfl
      · exact Or.inl old
      · right
        rw [Bool.and_eq_true,Bool.not_eq_true'] at fresh
        exact fun known => Bool.false_ne_true (fresh.1.symm.trans (List.contains_iff_mem.mpr known))
    · exact Or.inl member

theorem Finds.trans {a b c : Discovered} (first : Finds a b) (second : Finds b c) : Finds a c := by
  refine ⟨fun id member => second.known id (first.known id member),fun id member => second.visible id (first.visible id member),?_⟩
  intro id member
  rcases second.shown id member with visible | unknown
  · exact first.shown id visible
  · exact Or.inr (fun known => unknown (first.known id known))

theorem foldl_finds (models : List String) (found : Discovered) : Finds found (models.foldl discover found) := by
  induction models generalizing found with
  | nil => exact ⟨fun _ => id,fun _ => id,fun _ => Or.inl⟩
  | cons id rest ih => exact (discover_finds found id).trans (ih _)

/-- A route that differs from another in nothing of the user's, but that it knows and
    shows more models; it shows none that the other knows and does not show. -/
structure Expands (old new : ApiRouteCredential) : Prop where
  user : new = { old with
    knownModels := new.knownModels
    visibleModels := new.visibleModels
    capabilityEpoch := new.capabilityEpoch
    legacyCapabilityCache := new.legacyCapabilityCache }
  known : ∀ known, old.knownModels = some known → ∃ more, new.knownModels = some more ∧ ∀ id ∈ known, id ∈ more
  visible : ∀ id ∈ old.visibleModels, id ∈ new.visibleModels
  hidden : ∀ known, old.knownModels = some known → ∀ id ∈ known, id ∉ old.visibleModels → id ∉ new.visibleModels
  epoch : ∀ epoch, old.capabilityEpoch = some epoch → new.capabilityEpoch = some epoch

theorem Expands.refl (route : ApiRouteCredential) : Expands route route :=
  ⟨rfl,fun known here => ⟨known,here,fun _ => id⟩,fun _ => id,fun _ _ _ _ => id,fun _ => id⟩

theorem Expands.trans {a b c : ApiRouteCredential} (first : Expands a b) (second : Expands b c) : Expands a c := by
  refine ⟨?_,?_,fun id member => second.visible id (first.visible id member),?_,fun epoch here => second.epoch epoch (first.epoch epoch here)⟩
  · rw [second.user,first.user]
  · intro known here
    obtain ⟨more,between_,grown⟩ := first.known known here
    obtain ⟨most,last,later⟩ := second.known more between_
    exact ⟨most,last,fun id member => later id (grown id member)⟩
  · intro known here id member hidden
    obtain ⟨more,between_,grown⟩ := first.known known here
    exact second.hidden more between_ id (grown id member) (first.hidden known here id member hidden)

theorem expanded_expands (current : ApiRouteCredential) (models : List String) : Expands current (expanded current models) := by
  have finds := foldl_finds models ⟨(current.knownModels.getD models).foldl addTo [],current.visibleModels.foldl addTo []⟩
  refine ⟨rfl,?_,?_,?_,fun _ => id⟩
  · intro known here
    refine ⟨_,rfl,?_⟩
    intro id member
    apply finds.known
    rw [here]
    exact mem_foldl_addTo.mpr (Or.inr member)
  · intro id member
    exact finds.visible id (mem_foldl_addTo.mpr (Or.inr member))
  · intro known here id member hidden shown
    rcases finds.shown id shown with visible | unknown
    · exact hidden ((mem_foldl_addTo.mp visible).resolve_left List.not_mem_nil)
    · rw [here] at unknown
      exact unknown (mem_foldl_addTo.mpr (Or.inr member))

/-- A route as the store owns it, which keeps the lifetime of a route of the same policy. -/
structure Owns (discoveryExpansion : Bool) (current : List ApiRouteCredential) (route owned : ApiRouteCredential) : Prop where
  user : owned = { route with
    capabilityEpoch := owned.capabilityEpoch
    legacyCapabilityCache := owned.legacyCapabilityCache }
  epoch : ∀ old epoch, sameLifetime discoveryExpansion current route = some old → old.capabilityEpoch = some epoch → owned.capabilityEpoch = some epoch

variable (texts : Texts)

/-- What a call writes over the routes that are stored. -/
def Saved (current : List ApiRouteCredential) (contents : List ApiRouteCredential) : Call → Prop
  | .menu routes expected => validate texts expected = some current ∧ List.Forall₂ (Owns false current) routes contents
  | .discovery route models => ∃ found ∈ current, isCurrent route found = true ∧
    List.Forall₂ (Owns true current) (current.map (fun r => if r.id = found.id then expanded found models else r)) contents

/-- Under the lock a call writes from what is stored, or once more what it has written. -/
def MayStore (call : Call) (held : Held (List ApiRouteCredential) Request Answer) (contents : List ApiRouteCredential) : Prop :=
  held.file = some contents ∨ ∃ current, validate texts (held.file.getD []) = some current ∧ Saved texts current contents call

def rules : LockedFile.Rules (List ApiRouteCredential) Request Answer Call where
  mayAsk _ _ _ := True
  free _ := True
  mayStore := MayStore texts

theorem validate_some {texts : Texts} {routes validated : List ApiRouteCredential} (valid : validate texts routes = some validated) :
    validated = routes ∧ (routes.map ApiRouteCredential.id).Nodup := by
  rw [validate] at valid
  split at valid
  · next checks => exact ⟨(Option.some.inj valid).symm,checks.2.2⟩
  · cases valid

/-! ### The programs keep the rules -/

section
variable {texts : Texts} {call : Call} {held : Held (List ApiRouteCredential) Request Answer}

theorem under_randomUUID {post : Held (List ApiRouteCredential) Request Answer → String → Prop}
    (holds : ∀ after id, after.file = held.file → post after id) : Under (rules texts) call randomUUID post held := by
  refine Under.bind (Under.ask trivial ?_)
  intro answer
  cases answer with
  | uuid id => exact Under.pure (holds _ id rfl)
  | _ => exact Under.throw

variable {discoveryExpansion : Bool}

theorem under_ownRoute {current : List ApiRouteCredential} {route : ApiRouteCredential}
    {post : Held (List ApiRouteCredential) Request Answer → ApiRouteCredential → Prop}
    (holds : ∀ after owned, after.file = held.file → Owns discoveryExpansion current route owned → post after owned) :
    Under (rules texts) call (ownRoute discoveryExpansion current route) post held := by
  rw [ownRoute]
  cases lifetime : sameLifetime discoveryExpansion current route with
  | none =>
    refine Under.bind (under_randomUUID ?_)
    intro after id same
    refine Under.pure (holds after _ same ⟨rfl,?_⟩)
    intro old epoch found
    rw [lifetime] at found
    cases found
  | some old =>
    dsimp only
    cases stored : old.capabilityEpoch with
    | some epoch =>
      refine Under.pure (holds held _ rfl ⟨rfl,?_⟩)
      intro other last found here
      rw [lifetime] at found
      cases found
      exact stored.symm.trans here
    | none =>
      refine Under.bind (under_randomUUID ?_)
      intro after id same
      refine Under.pure (holds after _ same ⟨rfl,?_⟩)
      intro other last found here
      rw [lifetime] at found
      cases found
      rw [stored] at here
      cases here

theorem under_ownRoutes {current routes : List ApiRouteCredential}
    {post : Held (List ApiRouteCredential) Request Answer → List ApiRouteCredential → Prop}
    (holds : ∀ after owned, after.file = held.file → List.Forall₂ (Owns discoveryExpansion current) routes owned → post after owned) :
    Under (rules texts) call (ownRoutes discoveryExpansion current routes) post held := by
  induction routes generalizing held post with
  | nil => exact Under.pure (holds held [] rfl List.Forall₂.nil)
  | cons route rest ih =>
    refine Under.bind (under_ownRoute ?_)
    intro middle owned same owns
    refine Under.bind (ih ?_)
    intro after others still each
    exact Under.pure (holds after (owned :: others) (still.trans same) (List.Forall₂.cons owns each))

theorem under_retry {contents : List ApiRouteCredential} {later : ℕ} (may : MayStore texts call held contents)
    (stored : ∀ {held}, MayStore texts call held contents → Under (rules texts) call (rename contents later) (fun _ _ => True) held) :
    Under (rules texts) call (do
      match ← Await.ask .retryable with
      | .retry true => rename contents later
      | _ => Await.throw) (fun _ _ => True) held := by
  refine Under.bind (Under.ask trivial ?_)
  intro answer
  cases answer with
  | retry again =>
    cases again with
    | true => exact stored (Or.elim may Or.inl Or.inr)
    | false => exact Under.throw
  | _ => exact Under.throw

theorem under_rename {contents : List ApiRouteCredential} (may : MayStore texts call held contents) (later : ℕ) :
    Under (rules texts) call (rename contents later) (fun _ _ => True) held := by
  induction later generalizing held with
  | zero => exact Under.store may trivial
  | succ later ih =>
    refine Under.bind (Under.attempt ?_)
    refine ⟨may,?_,⟨_,rfl,under_retry may ih⟩⟩
    intro resolved
    refine ⟨_,rfl,?_⟩
    cases resolved with
    | true => exact Under.pure trivial
    | false => exact under_retry (Or.inl rfl) ih

theorem under_fits {routes : List ApiRouteCredential} {post : Held (List ApiRouteCredential) Request Answer → Unit → Prop} (holds : post held ()) :
    Under (rules texts) call (fits texts routes) post held := by
  rw [fits]
  split
  · exact Under.pure holds
  · exact Under.throw

theorem under_writeRoutes {routes expected current : List ApiRouteCredential}
    (stored : validate texts (held.file.getD []) = some current)
    (saves : ∀ contents, validate texts expected = some current → List.Forall₂ (Owns discoveryExpansion current) routes contents →
      Saved texts current contents call) :
    Under (rules texts) call (writeRoutes texts routes (some expected) discoveryExpansion current) (fun _ _ => True) held := by
  refine Under.bind ?_
  rw [unchanged]
  split
  · next same =>
    refine Under.pure (Under.bind (under_ownRoutes ?_))
    intro after owned still each
    refine Under.bind (under_fits (Under.bind (Under.ask trivial ?_)))
    intro answer
    refine Under.bind (Under.mono (under_rename (Or.inr ⟨current,?_,saves owned same each⟩) 5) (fun _ _ _ => Under.pure trivial))
    rw [still]
    exact stored
  · exact Under.throw

theorem under_saveApiRoutesLocked {routes expected : List ApiRouteCredential}
    (saves : ∀ current contents, validate texts expected = some current → List.Forall₂ (Owns discoveryExpansion current) routes contents →
      Saved texts current contents call) :
    Under (rules texts) call (saveApiRoutesLocked texts routes (some expected) discoveryExpansion) (fun _ _ => True) held := by
  refine Under.bind (Under.orThrow ?_)
  intro validated valid
  obtain ⟨rfl,-⟩ := validate_some valid
  refine Under.bind (under_fits (Under.bind (Under.bind (Under.load ?_))))
  cases stored : validate texts (held.file.getD []) with
  | none => exact Under.throw
  | some current =>
    refine Under.pure (Under.bind (Under.ask trivial ?_))
    intro answer
    refine Under.ensure (under_writeRoutes stored (fun contents same each => saves current contents same each)) ?_
    intro after
    exact Under.bind (Under.ask trivial (fun _ => Under.pure trivial))

end

theorem program_keeps_rules (call : Call) : LockedFile.wp (rules texts) call (Call.program texts call) (fun mode _ => mode = none) none := by
  cases call with
  | menu routes expected =>
    exact Outside.forget (Outside.withLock (fun file => under_saveApiRoutesLocked (fun current contents same each => ⟨same,each⟩)))
  | discovery route models =>
    refine Outside.forget (Outside.bind (Outside.bind Outside.load (fun file => Outside.orThrow)) ?_)
    intro routes
    cases found : routes.find? (isCurrent route) with
    | none => exact Outside.pure
    | some current =>
      dsimp only
      split
      · exact Outside.pure
      · split
        · exact Outside.pure
        · refine Outside.bind (Outside.withLock (fun file => under_saveApiRoutesLocked ?_)) (fun values => Outside.pure)
          intro stored contents same each
          obtain ⟨rfl,-⟩ := validate_some same
          exact ⟨current,List.mem_of_find?_eq_some found,List.find?_some found,each⟩

section
variable {texts : Texts} {current contents : List ApiRouteCredential}

theorem policy_of_user {discoveryExpansion : Bool} {route owned : ApiRouteCredential}
    (user : owned = { route with
      capabilityEpoch := owned.capabilityEpoch
      legacyCapabilityCache := owned.legacyCapabilityCache }) : policy discoveryExpansion owned = policy discoveryExpansion route := by
  rw [user]
  rfl

section
variable (distinct : (current.map ApiRouteCredential.id).Nodup)
include distinct

theorem owned_expands {old route owned : ApiRouteCredential} (member : old ∈ current)
    (expands : Expands old route) (owns : Owns true current route owned) : Expands old owned := by
  have same_id : route.id = old.id := by rw [expands.user]
  have known : owned.knownModels = route.knownModels := by rw [owns.user]
  have visible : owned.visibleModels = route.visibleModels := by rw [owns.user]
  have lifetime : sameLifetime true current route = some old := by
    rw [sameLifetime,same_id,find?_of_key _ distinct member,Option.filter_some,if_pos]
    apply decide_eq_true
    rw [expands.user]
    rfl
  refine ⟨?_,?_,?_,?_,fun epoch here => owns.epoch old epoch lifetime here⟩
  · rw [owns.user,expands.user]
  · rw [known]
    exact expands.known
  · rw [visible]
    exact expands.visible
  · rw [visible]
    exact expands.hidden

theorem discovered_expands {found : ApiRouteCredential} (member : found ∈ current)
    {models : List String}
    (each : List.Forall₂ (Owns true current) (current.map (fun r => if r.id = found.id then expanded found models else r)) contents) :
    List.Forall₂ Expands current contents := by
  refine List.Forall₂.imp ?_ ((List.forall₂_and_left _ _).mpr ⟨fun _ => id,List.forall₂_map_left_iff.mp each⟩)
  rintro old owned ⟨among,owns⟩
  refine owned_expands distinct among ?_ owns
  split
  · next same =>
    have one : old = found := Option.some.inj
      ((find?_of_key _ distinct among).symm.trans (by rw [same]; exact find?_of_key _ distinct member))
    rw [one]
    exact expanded_expands found models
  · exact Expands.refl old

theorem owned_epoch {routes : List ApiRouteCredential}
    (each : List.Forall₂ (Owns false current) routes contents) {old new : ApiRouteCredential} (member : old ∈ current) (written : new ∈ contents)
    (same : new.id = old.id) {epoch : String} (stored : old.capabilityEpoch = some epoch) (policies : policy false new = policy false old) :
    new.capabilityEpoch = some epoch := by
  obtain ⟨route,-,owns⟩ := forall₂_member each written
  refine owns.epoch old epoch ?_ stored
  have same_id : route.id = old.id := by rw [← same,owns.user]
  rw [sameLifetime,same_id,find?_of_key _ distinct member,Option.filter_some,if_pos]
  exact decide_eq_true ((policy_of_user owns.user).symm.trans policies).symm

end

end

abbrev World : Type := LockedFile.World (List ApiRouteCredential) Unit Request Answer Call

def World.routes (w : World) : List ApiRouteCredential := w.file.getD []

/-- The holder of the lock writes what the menu has saved, over what the menu has read. -/
structure MenuSaves (w after : World) : Prop where
  save : ∃ call r routes expected, w.running call = some r ∧ w.holder = some call ∧ r.tag = .menu routes expected ∧
    validate texts expected = some w.routes ∧ List.Forall₂ (Owns false w.routes) routes after.routes
  /-- A lifetime ends with a policy. -/
  epoch : ∀ old ∈ w.routes, ∀ new ∈ after.routes, new.id = old.id → ∀ epoch, old.capabilityEpoch = some epoch →
    policy false new = policy false old → new.capabilityEpoch = some epoch

/-- The holder of the lock expands the routes that are stored as it writes. -/
structure Discovers (w after : World) : Prop where
  update : ∃ call r route models, w.running call = some r ∧ w.holder = some call ∧ r.tag = .discovery route models
  expands : List.Forall₂ Expands w.routes after.routes

/-- Steps of which none is a save of the menu. -/
abbrev Unsaved : World → World → Prop :=
  Runs.Run (fun w action => step w (Call.program texts) () action)
    (fun w action => enabled w (Call.program texts) () action ∧
      ¬ MenuSaves texts w (step w (Call.program texts) () action))

/-- What holds wherever a run has come to. -/
structure KeepsVisibility (w : World) : Prop where
  /-- A step leaves the file, or writes over what is stored as a save or a discovery does. -/
  writes : ∀ action, w.enabled (Call.program texts) () action →
    (w.step (Call.program texts) () action).file = w.file ∨ MenuSaves texts w (w.step (Call.program texts) () action) ∨
      Discovers w (w.step (Call.program texts) () action)
  /-- As long as the menu saves nothing, what is hidden stays hidden and nothing that the user has set changes. -/
  hidden : ∀ later, Unsaved texts w later → List.Forall₂ Expands w.routes (World.routes later)

section
variable {texts : Texts} {w : World}

theorem routes_of_stored {contents : List ApiRouteCredential} (stored : w.file = some contents) : w.routes = contents := by
  rw [World.routes,stored]
  rfl

theorem step_writes (secure : LockedFile.Secure (rules texts) w) {action : LockedFile.Action Answer Call} (may : w.enabled (Call.program texts) () action) :
    LockedFile.Secure (rules texts) (w.step (Call.program texts) () action) ∧
      ((w.step (Call.program texts) () action).file = w.file ∨ MenuSaves texts w (w.step (Call.program texts) () action) ∨
        Discovers w (w.step (Call.program texts) () action)) := by
  obtain ⟨kept,files⟩ := LockedFile.act_secure (program_keeps_rules texts) secure (act_of_enabled may)
  refine ⟨kept,?_⟩
  rcases files with same | ⟨call,r,under,written⟩
  · exact Or.inl same
  obtain ⟨contents,stored,again | ⟨current,valid,saved⟩⟩ := written.may
  · exact Or.inl (stored.trans again.symm)
  right
  obtain ⟨rfl,distinct⟩ := validate_some valid
  have after := routes_of_stored stored
  cases tag : r.tag with
  | menu routes expected =>
    rw [tag] at saved
    left
    refine ⟨⟨call,r,routes,expected,under,written.held,tag,saved.1,after ▸ saved.2⟩,?_⟩
    intro old member new among same epoch here policies
    exact owned_epoch distinct saved.2 member (after ▸ among) same here policies
  | discovery route models =>
    rw [tag] at saved
    obtain ⟨found,member,-,each⟩ := saved
    right
    refine ⟨⟨call,r,route,models,under,written.held,tag⟩,?_⟩
    rw [after]
    exact discovered_expands distinct member each

theorem unsaved_expands (secure : LockedFile.Secure (rules texts) w) {later : World} (run : Unsaved texts w later) :
    LockedFile.Secure (rules texts) later ∧ List.Forall₂ Expands w.routes later.routes := by
  refine run.invariant (P := fun s => LockedFile.Secure (rules texts) s ∧ List.Forall₂ Expands w.routes (World.routes s)) ?_
    ⟨secure,List.forall₂_same.mpr (fun route _ => Expands.refl route)⟩
  rintro s action ⟨may,silent⟩ ⟨safe,expands⟩
  obtain ⟨kept,same | saves | discovers⟩ := step_writes safe may
  · refine ⟨kept,?_⟩
    have routes : World.routes (step s (Call.program texts) () action) = World.routes s := congrArg (fun file => file.getD []) same
    rw [routes]
    exact expands
  · exact absurd saves silent
  · exact ⟨kept,forall₂_trans (R := Expands) Expands.trans expands discovers.expands⟩

end

theorem discovery_keeps_visibility (file : Option (List ApiRouteCredential)) {w : World}
    (run : LockedFile.Runs (Call.program texts) () (quiet file ()) w) : KeepsVisibility texts w := by
  have secure : LockedFile.Secure (rules texts) w := LockedFile.Secure.run (program_keeps_rules texts) run LockedFile.Secure.quiet
  exact ⟨fun action may => (step_writes secure may).2,fun later unsaved => (unsaved_expands secure unsaved).2⟩

/-- A route that hides a model, and a discovery that finds it again with another one. -/
def hidesOne : ApiRouteCredential :=
  { capabilityEpoch := some "00000000-0000-0000-0000-000000000000",id := "a",label := "a",kind := .api,apiKey := "k",enabled := true,priority := 0
    visibleModels := [],knownModels := some ["gpt-a"] }

def readable : Texts := ⟨fun _ => 0,fun _ => 0,fun _ => true⟩

/-- The discovery up to its write. -/
def discoverActions : List (LockedFile.Action Answer Call) :=
  let answered : List (LockedFile.Action Answer Call) := [.issue 0,.settle 0 (.answered .done)]
  [.start 0 0 (.discovery hidesOne ["gpt-a","gpt-b"]),.settle 0 .resolved,.settle 0 .resolved,.settle 0 .resolved] ++ answered ++ answered ++
    [.settle 0 .resolved]

def discovering : World :=
  discoverActions.foldl (fun w action => step w (Call.program readable) () action) (quiet (some [hidesOne]) ())

theorem discovery_shows_the_other : KeepsVisibility readable discovering ∧
    discovering.file.map (fun routes => routes.map ApiRouteCredential.visibleModels) = some [["gpt-b"]] := by
  have run : LockedFile.Runs (Call.program readable) () (quiet (some [hidesOne]) ()) discovering :=
    Runs.Run.ofList (Runs.Run.nil _) discoverActions (by decide +kernel)
  exact ⟨discovery_keeps_visibility _ _ run,by decide +kernel⟩

end CodexMultiAuth.ApiRoutes
