import CodexMultiAuth.PendingPrune

/-!
Prunes among recordings, as long as what a scan cannot read holds no token of a pending
entry and no rotation spends a token that more than one entry leads to.
-/
namespace CodexMultiAuth.PendingPrune
open List
set_option linter.unusedSectionVars false

section
variable [Host]

/-- No recorded rotation has spent the token. -/
def Unspent (spent : List Rotation) (token : Token) : Prop := ∀ auth ∈ spent, auth.priorRefreshToken ≠ token

/-- Whether an entry leads to the token that a rotation spends. -/
def leadsTo (token : Token) (entry : PendingAuth) : Bool := decide (entry.refreshToken = token)

/-- The rotation brings a new token, and at most one entry leads to the one it spends. -/
structure Orderly (w : World) (auth : Rotation) : Prop where
  renewed : auth.refreshToken ≠ auth.priorRefreshToken
  unspent : Unspent w.spent auth.refreshToken
  unnamed : ∀ entry ∈ w.journal, entry.prior ≠ Host.sha256 auth.refreshToken
  alone : (w.journal.filter (leadsTo auth.priorRefreshToken)).length ≤ 1

variable {auth : Rotation} {entries : List PendingAuth} {entry : PendingAuth}

theorem mem_extendChained (alone : (entries.filter (leadsTo auth.priorRefreshToken)).length ≤ 1)
    (member : entry ∈ extendChained auth entries) :
    entry.refreshToken = auth.refreshToken ∨ (entry ∈ entries ∧ entry.refreshToken ≠ auth.priorRefreshToken) := by
  induction entries with
  | nil => exact absurd member not_mem_nil
  | cons first rest ih =>
    rw [extendChained] at member
    split at member
    · next leads =>
      rcases mem_cons.mp member with rfl | later
      · exact Or.inl rfl
      · refine Or.inr ⟨mem_cons_of_mem _ later,?_⟩
        intro also
        rw [filter_cons_of_pos (show leadsTo auth.priorRefreshToken first = true from decide_eq_true leads),length_cons] at alone
        have among : entry ∈ rest.filter (leadsTo auth.priorRefreshToken) := mem_filter.mpr ⟨later,decide_eq_true also⟩
        have some := length_pos_of_mem among
        omega
    · next other =>
      rw [filter_cons_of_neg (by rw [leadsTo,decide_eq_true_eq]; exact other)] at alone
      rcases mem_cons.mp member with rfl | later
      · exact Or.inr ⟨mem_cons_self,other⟩
      · exact (ih alone later).imp_right (fun both => ⟨mem_cons_of_mem _ both.1,both.2⟩)

theorem extendChained_priors (auth : Rotation) (entries : List PendingAuth) :
    (extendChained auth entries).map PendingAuth.prior = entries.map PendingAuth.prior := by
  induction entries with
  | nil => rfl
  | cons first rest ih =>
    rw [extendChained]
    split
    · rfl
    · rw [map_cons,map_cons,ih]

theorem dropOldest_sublist (excess : ℕ) (entries : List PendingAuth) : (dropOldest excess entries).Sublist entries := by
  have kept := (filter_sublist (p := fun entry : PendingAuth × ℕ =>
    !(((entries.zipIdx.mergeSort (fun a b => decide (a.1.recordedAt ≤ b.1.recordedAt))).take excess).map Prod.snd).contains entry.2)
    (l := entries.zipIdx)).map Prod.fst
  rwa [zipIdx_map_fst] at kept

theorem record_cases {reset : Bool} {journal after : List PendingAuth} (records : recordPendingAuth reset journal auth = .ok after) :
    ∃ kept, after = kept ++ [auth.entry] ∧ kept.Sublist (extendChained auth (survivors journal auth)) ∧
      (journal.length < maxEntries → kept = extendChained auth (survivors journal auth)) := by
  rw [recordPendingAuth] at records
  split at records
  · cases records
  · dsimp only at records
    split at records
    · next over_ =>
      cases records
      refine ⟨_,rfl,dropOldest_sublist _ _,?_⟩
      intro below
      have short := length_survivors journal auth
      rw [length_extendChained] at over_
      omega
    · cases records
      exact ⟨_,rfl,List.Sublist.refl _,fun _ => rfl⟩

/-- The journal names each spent token once, and leads to no spent one. -/
structure Sound (journal : List PendingAuth) (spent : List Rotation) : Prop where
  distinct : (journal.map PendingAuth.prior).Nodup
  newest : ∀ entry ∈ journal, Unspent spent entry.refreshToken

variable {w : World}

theorem Sound.record (sound : Sound w.journal w.spent) (orderly : Orderly w auth) {reset : Bool}
    {after : List PendingAuth} (records : recordPendingAuth reset w.journal auth = .ok after) : Sound after (w.spent ++ [auth]) := by
  obtain ⟨kept,rfl,sublist,_⟩ := record_cases records
  have brought : Unspent (w.spent ++ [auth]) auth.refreshToken := by
    intro other member
    rcases mem_append.mp member with old | new
    · exact orderly.unspent other old
    · rw [mem_singleton.mp new]
      exact orderly.renewed.symm
  have alone : ((survivors w.journal auth).filter (leadsTo auth.priorRefreshToken)).length ≤ 1 :=
    (filter_sublist.filter _).length_le.trans orderly.alone
  refine ⟨?_,?_⟩
  · have priors := sublist.map PendingAuth.prior
    rw [extendChained_priors] at priors
    rw [map_append,nodup_append]
    refine ⟨priors.nodup ((filter_sublist.map PendingAuth.prior).nodup sound.distinct),nodup_singleton _,?_⟩
    intro prior member other new same
    obtain ⟨entry,survives,rfl⟩ := mem_map.mp (priors.subset member)
    have differs := (mem_filter.mp survives).2
    rw [Bool.and_eq_true] at differs
    exact of_decide_eq_true differs.1 (same.trans (mem_singleton.mp new))
  · intro entry member
    rcases mem_append.mp member with old | new
    · rcases mem_extendChained alone (sublist.subset old) with renewed | ⟨survives,unled⟩
      · rw [renewed]
        exact brought
      · intro other recorded
        rcases mem_append.mp recorded with earlier | now
        · exact sound.newest entry (mem_of_mem_filter survives) other earlier
        · rw [mem_singleton.mp now]
          exact unled.symm
    · rw [mem_singleton.mp new]
      exact brought

theorem record_keeps (orderly : Orderly w auth) {reset : Bool} {after : List PendingAuth}
    (records : recordPendingAuth reset w.journal auth = .ok after) (below : w.journal.length < maxEntries) {prior : String}
    (pending : prior ∈ w.journal.map PendingAuth.prior) : prior ∈ after.map PendingAuth.prior := by
  obtain ⟨kept,rfl,_,whole⟩ := record_cases records
  rw [whole below,map_append,extendChained_priors,mem_append]
  by_cases own : prior = Host.sha256 auth.priorRefreshToken
  · right
    rw [own]
    exact mem_singleton_self _
  · left
    obtain ⟨entry,member,rfl⟩ := mem_map.mp pending
    refine mem_map_of_mem (mem_filter.mpr ⟨member,?_⟩)
    rw [decide_eq_true own,decide_eq_true (orderly.unnamed entry member)]
    rfl

/-- No pending entry is for one of the tokens. -/
def Indifferent (w : World) (tokens : List String) : Prop := ∀ token ∈ tokens, ∀ entry ∈ w.journal, entry.prior ≠ Host.sha256 token

/-- What cannot be read or listed is indifferent, and recordings are orderly. -/
def Careful (w : World) : Action → Prop
  | .record _ _ auth => Orderly w auth
  | .lock works => works = true ∨ ∀ candidate ∈ w.sources.candidates, candidate.known = false → Indifferent w (collectContent candidate.content)
  | .scan works => works = true ∨ ∀ prune candidate left tokens, w.prune = some prune → prune.phase = .scanning (candidate :: left) tokens →
    Indifferent w (collectContent candidate.content)
  | .scanWal works => works = true ∨ Indifferent w w.sources.walTokens
  | _ => True

/-- A token has been seen, or could not be and does not matter. -/
def Seen (w : World) (complete : Bool) (tokens : List String) (token : String) : Prop :=
  token ∈ tokens ∨ (complete = false ∧ Indifferent w [token])

/-- What has been seen is restorable, and what is restorable has been seen, up to the
    candidates that are left. -/
structure Scanning (w : World) (complete : Bool) (left : List Candidate) (tokens : List String) : Prop where
  listed : ∀ candidate ∈ left, candidate ∈ w.sources.candidates
  found : ∀ token ∈ tokens, token ∈ w.sources.restorable
  seen : ∀ candidate ∈ w.sources.candidates, candidate ∈ left ∨ ∀ token ∈ collectContent candidate.content, Seen w complete tokens token

structure Scanned (w : World) (complete : Bool) (tokens : List String) : Prop where
  found : ∀ token ∈ tokens, token ∈ w.sources.restorable
  seen : ∀ token ∈ w.sources.restorable, Seen w complete tokens token

def InPhase (w : World) (complete : Bool) : Phase → Prop
  | .begun => True
  | .looked => True
  | .scanning left tokens => Scanning w complete left tokens
  | .scanned tokens => Scanned w complete tokens
  | .decided tokens entries => Scanned w complete tokens ∧ entries = w.journal

structure Inv (w : World) : Prop where
  sound : Sound w.journal w.spent
  prune : ∀ prune, w.prune = some prune → prune.saved = w.sources.primary ∧ InPhase w prune.complete prune.phase

theorem inv_withoutPrune {v : World} (sound : Sound v.journal v.spent) (none : v.prune = none) : Inv v := by
  refine ⟨sound,?_⟩
  intro prune under
  rw [none] at under
  cases under

variable {complete : Bool} {tokens : List String}

theorem Seen.more {token : String} (seen : Seen w complete tokens token) (other : List String) :
    Seen w complete (tokens ++ other) token := seen.imp_left (mem_append_left other)

theorem Seen.less {token : String} (seen : Seen w complete tokens token) :
    Seen w false tokens token := seen.imp_right (fun both => ⟨rfl,both.2⟩)

theorem mem_restorable {sources : Sources} {candidate : Candidate} (member : candidate ∈ sources.candidates) {token : String}
    (among : token ∈ collectContent candidate.content) : token ∈ sources.restorable :=
  mem_append_left _ (mem_flatMap.mpr ⟨candidate,member,among⟩)

theorem Scanning.scan {candidate : Candidate} {left : List Candidate}
    (scanning : Scanning w complete (candidate :: left) tokens) {works : Bool} (careful : works = true ∨ Indifferent w (collectContent candidate.content)) :
    Scanning w (complete && works) left (if works then tokens ++ collectContent candidate.content else tokens) := by
  have here := scanning.listed candidate mem_cons_self
  cases works with
  | true =>
    rw [Bool.and_true,if_pos rfl]
    refine ⟨fun other member => scanning.listed other (mem_cons_of_mem _ member),?_,?_⟩
    · intro token member
      rcases mem_append.mp member with old | new
      · exact scanning.found token old
      · exact mem_restorable here new
    · intro other member
      rcases scanning.seen other member with first | seen
      · rcases mem_cons.mp first with rfl | later
        · exact Or.inr (fun token among => Or.inl (mem_append_right _ among))
        · exact Or.inl later
      · exact Or.inr (fun token among => (seen token among).more _)
  | false =>
    have indifferent := careful.resolve_left (by decide)
    rw [Bool.and_false,if_neg (by decide)]
    refine ⟨fun other member => scanning.listed other (mem_cons_of_mem _ member),scanning.found,?_⟩
    intro other member
    rcases scanning.seen other member with first | seen
    · rcases mem_cons.mp first with rfl | later
      · refine Or.inr (fun token among => Or.inr ⟨rfl,?_⟩)
        intro same alone
        rw [mem_singleton.mp alone]
        exact indifferent token among
      · exact Or.inl later
    · exact Or.inr (fun token among => (seen token among).less)

theorem Scanning.scanWal (scanning : Scanning w complete [] tokens) {works : Bool}
    (careful : works = true ∨ Indifferent w w.sources.walTokens) :
    Scanned w (complete && works) (if works then tokens ++ w.sources.walTokens else tokens) := by
  have seen : ∀ candidate ∈ w.sources.candidates, ∀ token ∈ collectContent candidate.content, Seen w complete tokens token :=
    fun candidate member => (scanning.seen candidate member).resolve_left not_mem_nil
  cases works with
  | true =>
    rw [Bool.and_true,if_pos rfl]
    refine ⟨?_,?_⟩
    · intro token member
      rcases mem_append.mp member with old | new
      · exact scanning.found token old
      · exact mem_append_right _ new
    · intro token member
      rcases mem_append.mp member with candidates | wal
      · obtain ⟨candidate,there,among⟩ := mem_flatMap.mp candidates
        exact (seen candidate there token among).more _
      · exact Or.inl (mem_append_right _ wal)
  | false =>
    have indifferent := careful.resolve_left (by decide)
    rw [Bool.and_false,if_neg (by decide)]
    refine ⟨scanning.found,?_⟩
    intro token member
    rcases mem_append.mp member with candidates | wal
    · obtain ⟨candidate,there,among⟩ := mem_flatMap.mp candidates
      exact (seen candidate there token among).less
    · refine Or.inr ⟨rfl,?_⟩
      intro same alone
      rw [mem_singleton.mp alone]
      exact indifferent token wal

theorem scanning_lock {works : Bool}
    (careful : works = true ∨ ∀ candidate ∈ w.sources.candidates, candidate.known = false → Indifferent w (collectContent candidate.content)) :
    Scanning w works (if works then w.sources.candidates else w.sources.candidates.filter Candidate.known) [] := by
  cases works with
  | true => exact ⟨fun _ member => member,forall_mem_nil _,fun _ member => Or.inl member⟩
  | false =>
    have indifferent := careful.resolve_left (by decide)
    rw [if_neg (by decide)]
    refine ⟨fun _ member => mem_of_mem_filter member,forall_mem_nil _,?_⟩
    intro candidate member
    cases known : candidate.known with
    | true => exact Or.inl (mem_filter.mpr ⟨member,known⟩)
    | false =>
      refine Or.inr (fun token among => Or.inr ⟨rfl,?_⟩)
      intro same alone
      rw [mem_singleton.mp alone]
      exact indifferent candidate member known token among

theorem mem_pruned {saved : AccountStorageV3} :
    entry ∈ prunePendingAuth entries saved (some (.ok tokens)) ↔
      entry ∈ entries ∧ entry.prior ∈ (saved.accounts.filterMap AccountMetadataV3.refreshToken ++ tokens).map Host.sha256 := by
  rw [prunePendingAuth,mem_filter,contains_iff_mem]

theorem kept_of_holds (scanned : Scanned w complete tokens)
    (pending : entry ∈ w.journal) (holds : w.sources.Holds entry.prior) :
    entry ∈ prunePendingAuth w.journal w.sources.primary (some (.ok tokens)) := by
  rw [mem_pruned]
  refine ⟨pending,?_⟩
  obtain ⟨token,among,same⟩ := mem_map.mp holds
  rw [← same]
  rcases mem_append.mp among with saved | restorable
  · exact mem_map_of_mem (mem_append_left _ saved)
  · rcases scanned.seen token restorable with seen | ⟨_,indifferent⟩
    · exact mem_map_of_mem (mem_append_right _ seen)
    · exact absurd same.symm (indifferent token mem_cons_self entry pending)

theorem kept_iff (scanned : Scanned w true tokens) (entry : PendingAuth) :
    entry ∈ prunePendingAuth w.journal w.sources.primary (some (.ok tokens)) ↔ entry ∈ w.journal ∧ w.sources.Holds entry.prior := by
  constructor
  · intro member
    obtain ⟨pending,among⟩ := mem_pruned.mp member
    refine ⟨pending,?_⟩
    obtain ⟨token,there,same⟩ := mem_map.mp among
    rw [Sources.Holds,← same]
    rcases mem_append.mp there with saved | seen
    · exact mem_map_of_mem (mem_append_left _ saved)
    · exact mem_map_of_mem (mem_append_right _ (scanned.found token seen))
  · rintro ⟨pending,holds⟩
    exact kept_of_holds scanned pending holds

theorem Sound.sublist {journal after : List PendingAuth} {spent : List Rotation} (sound : Sound journal spent) (sublist : after.Sublist journal) :
    Sound after spent :=
  ⟨(sublist.map PendingAuth.prior).nodup sound.distinct,fun entry member => sound.newest entry (sublist.subset member)⟩

theorem Inv.begin (inv : Inv w) : Inv (w.step .begin) := by
  refine ⟨inv.sound,?_⟩
  rintro prune ⟨⟩
  exact ⟨rfl,trivial⟩

theorem Inv.record (inv : Inv w) {reset fails : Bool} (free : w.free = true) (orderly : Orderly w auth) :
    Inv (w.recorded reset fails auth) := by
  rw [World.recorded]
  cases records : recordPendingAuth reset w.journal auth with
  | error error => exact inv
  | ok journal =>
    cases fails with
    | true => exact inv
    | false =>
      refine ⟨inv.sound.record orderly records,?_⟩
      intro prune under
      have under : w.prune = some prune := under
      rw [World.free,under] at free
      obtain ⟨saved,_⟩ := inv.prune prune under
      refine ⟨saved,?_⟩
      match phase : prune.phase with
      | .begun => trivial
      | .looked => trivial
      | .scanning left tokens =>
        rw [Option.map_some,phase] at free
        cases free
      | .scanned tokens =>
        rw [Option.map_some,phase] at free
        cases free
      | .decided tokens entries =>
        rw [Option.map_some,phase] at free
        cases free

theorem Scanning.under {left : List Candidate} (scanning : Scanning w complete left tokens)
    (prune : Option Prune) : Scanning { w with prune } complete left tokens := ⟨scanning.listed,scanning.found,scanning.seen⟩

theorem Scanned.under (scanned : Scanned w complete tokens) (prune : Option Prune) :
    Scanned { w with prune } complete tokens := ⟨scanned.found,scanned.seen⟩

theorem Inv.goesOn (inv : Inv w) {prune : Prune} (saved : prune.saved = w.sources.primary)
    (inPhase : InPhase { w with prune := some prune } prune.complete prune.phase) : Inv { w with prune := some prune } := by
  refine ⟨inv.sound,?_⟩
  rintro other ⟨⟩
  exact ⟨saved,inPhase⟩

theorem Inv.ends (inv : Inv w) : Inv { w with prune := none } := inv_withoutPrune inv.sound rfl

theorem step_prunes {prune : Prune} (under : w.prune = some prune) (works : Bool) :
    w.step (.look works) = w.prunes prune prune.phase (.look works) ∧ w.step (.lock works) = w.prunes prune prune.phase (.lock works) ∧
      w.step (.scan works) = w.prunes prune prune.phase (.scan works) ∧ w.step (.scanWal works) = w.prunes prune prune.phase (.scanWal works) ∧
      w.step (.read works) = w.prunes prune prune.phase (.read works) ∧ w.step (.write works) = w.prunes prune prune.phase (.write works) := by
  refine ⟨?_,?_,?_,?_,?_,?_⟩ <;> simp only [World.step,under]

theorem Inv.step (w : World) (action : Action) (may : w.enabled action ∧ Careful w action) (inv : Inv w) : Inv (w.step action) := by
  obtain ⟨enabled,careful⟩ := may
  cases action with
  | store sources => exact inv_withoutPrune inv.sound (Option.isNone_iff_eq_none.mp enabled)
  | record reset fails auth => exact inv.record enabled careful
  | begin => exact inv.begin
  | crash => exact inv.ends
  | look works =>
    obtain ⟨prune,under,phase⟩ := enabled
    rw [(step_prunes under works).1,phase,World.prunes]
    split
    · exact inv.goesOn (inv.prune prune under).1 trivial
    · exact inv.ends
  | lock works =>
    obtain ⟨prune,under,phase⟩ := enabled
    rw [(step_prunes under works).2.1,phase]
    exact inv.goesOn (inv.prune prune under).1 ((scanning_lock careful).under _)
  | scan works =>
    obtain ⟨prune,candidate,left,tokens,under,phase⟩ := enabled
    obtain ⟨saved,inPhase⟩ := inv.prune prune under
    rw [phase] at inPhase
    rw [(step_prunes under works).2.2.1,phase]
    have reads := careful.imp_right (fun indifferent => indifferent prune candidate left tokens under phase)
    exact inv.goesOn saved ((Scanning.scan inPhase reads).under _)
  | scanWal works =>
    obtain ⟨prune,tokens,under,phase⟩ := enabled
    obtain ⟨saved,inPhase⟩ := inv.prune prune under
    rw [phase] at inPhase
    rw [(step_prunes under works).2.2.2.1,phase]
    exact inv.goesOn saved ((Scanning.scanWal inPhase careful).under _)
  | read works =>
    obtain ⟨prune,tokens,under,phase⟩ := enabled
    obtain ⟨saved,inPhase⟩ := inv.prune prune under
    rw [phase] at inPhase
    rw [(step_prunes under works).2.2.2.2.1,phase,World.prunes]
    split
    · exact inv.goesOn saved ⟨Scanned.under inPhase _,rfl⟩
    · exact inv.ends
  | write works =>
    obtain ⟨prune,tokens,entries,under,phase⟩ := enabled
    obtain ⟨saved,inPhase⟩ := inv.prune prune under
    rw [phase] at inPhase
    rw [(step_prunes under works).2.2.2.2.2,phase,World.prunes,inPhase.2]
    refine inv_withoutPrune ?_ rfl
    cases works with
    | true => exact inv.sound.sublist filter_sublist
    | false => exact inv.sound

/-- Any run of careful steps. -/
abbrev CarefulRuns : World → World → Prop := Runs.Run World.step (fun w action => w.enabled action ∧ Careful w action)

theorem step_cases (w : World) (action : Action) (enabled : w.enabled action) :
    (∃ prune, w.step action = { w with prune }) ∨ (∃ sources, action = .store sources ∧ w.step action = { w with sources }) ∨
      (∃ reset auth journal, action = .record reset false auth ∧ recordPendingAuth reset w.journal auth = .ok journal ∧
        w.step action = { w with journal,spent := w.spent ++ [auth] }) ∨
      ∃ prune tokens entries, action = .write true ∧ w.prune = some prune ∧ prune.phase = .decided tokens entries ∧
        w.step action = { w with journal := prunePendingAuth entries prune.saved (some (.ok tokens)),prune := none } := by
  cases action with
  | store sources => exact Or.inr (Or.inl ⟨sources,rfl,rfl⟩)
  | begin => exact Or.inl ⟨_,rfl⟩
  | crash => exact Or.inl ⟨none,rfl⟩
  | record reset fails auth =>
    simp only [World.step,World.recorded]
    cases records : recordPendingAuth reset w.journal auth with
    | error error => exact Or.inl ⟨w.prune,rfl⟩
    | ok journal =>
      cases fails with
      | true => exact Or.inl ⟨w.prune,rfl⟩
      | false => exact Or.inr (Or.inr (Or.inl ⟨reset,auth,journal,rfl,records,rfl⟩))
  | look works =>
    obtain ⟨prune,under,phase⟩ := enabled
    left
    rw [(step_prunes under works).1,phase,World.prunes]
    split
    · exact ⟨_,rfl⟩
    · exact ⟨none,rfl⟩
  | lock works =>
    obtain ⟨prune,under,phase⟩ := enabled
    left
    rw [(step_prunes under works).2.1,phase,World.prunes]
    exact ⟨_,rfl⟩
  | scan works =>
    obtain ⟨prune,candidate,later,tokens,under,phase⟩ := enabled
    left
    rw [(step_prunes under works).2.2.1,phase,World.prunes]
    exact ⟨_,rfl⟩
  | scanWal works =>
    obtain ⟨prune,tokens,under,phase⟩ := enabled
    left
    rw [(step_prunes under works).2.2.2.1,phase,World.prunes]
    exact ⟨_,rfl⟩
  | read works =>
    obtain ⟨prune,tokens,under,phase⟩ := enabled
    left
    rw [(step_prunes under works).2.2.2.2.1,phase,World.prunes]
    split
    · exact ⟨_,rfl⟩
    · exact ⟨none,rfl⟩
  | write works =>
    obtain ⟨prune,tokens,entries,under,phase⟩ := enabled
    cases works with
    | false =>
      left
      rw [(step_prunes under false).2.2.2.2.2,phase,World.prunes]
      exact ⟨none,rfl⟩
    | true =>
      refine Or.inr (Or.inr (Or.inr ⟨prune,tokens,entries,rfl,under,phase,?_⟩))
      rw [(step_prunes under true).2.2.2.2.2,phase,World.prunes]
      rfl

theorem Inv.decided (inv : Inv w) {prune : Prune} (under : w.prune = some prune)
    (phase : prune.phase = .decided tokens entries) : prune.saved = w.sources.primary ∧ Scanned w prune.complete tokens ∧ entries = w.journal := by
  obtain ⟨saved,inPhase⟩ := inv.prune prune under
  rw [phase] at inPhase
  exact ⟨saved,inPhase.1,inPhase.2⟩

theorem Inv.keeps (inv : Inv w) {action : Action} (enabled : w.enabled action) (other : ∀ reset fails auth, action ≠ .record reset fails auth)
    (pending : entry ∈ w.journal) (holds : w.sources.Holds entry.prior) : entry ∈ (w.step action).journal := by
  rcases step_cases w action enabled with ⟨prune,same⟩ | ⟨sources,_,same⟩ | ⟨reset,auth,_,records,_⟩ |
    ⟨prune,tokens,entries,_,under,phase,writes⟩
  · rw [same]
    exact pending
  · rw [same]
    exact pending
  · exact absurd records (other reset false auth)
  · obtain ⟨saved,scanned,rfl⟩ := inv.decided under phase
    rw [writes,saved]
    exact kept_of_holds scanned pending holds

/-- A row that holds a token of the journal loads with the credential of the entry. -/
def Heals (w : World) (entry : PendingAuth) : Prop :=
  Unspent w.spent entry.refreshToken ∧ ∀ (storage : AccountStorageV3) (i : ℕ) (row : AccountMetadataV3) (token : Token),
    storage.accounts[i]? = some row → row.refreshToken = some token.val → Host.sha256 token = entry.prior →
    ∃ loaded, (applyPendingAuth (.ok w.journal) storage).accounts[i]? = some loaded ∧ loaded.refreshToken = some entry.refreshToken.val ∧
      loaded.accessToken = some entry.accessToken.val ∧ loaded.expiresAt = some entry.expiresAt

theorem find_prior {journal : List PendingAuth} (distinct : (journal.map PendingAuth.prior).Nodup) (pending : entry ∈ journal) :
    journal.find? (fun other => other.prior = entry.prior) = some entry := by
  induction journal with
  | nil => exact absurd pending not_mem_nil
  | cons first rest ih =>
    rw [map_cons,nodup_cons] at distinct
    rw [List.find?_cons]
    rcases mem_cons.mp pending with rfl | later
    · rw [decide_eq_true rfl]
    · have other : first.prior ≠ entry.prior := fun same => distinct.1 (same ▸ mem_map_of_mem later)
      rw [decide_eq_false other]
      exact ih distinct.2 later

theorem Inv.heals (inv : Inv w) (pending : entry ∈ w.journal) : Heals w entry := by
  refine ⟨inv.sound.newest entry pending,?_⟩
  intro storage i row token place holds prior
  have text : row.refreshToken.bind nonEmpty = some token.val := by
    rw [holds,Option.bind_some,nonEmpty,if_neg token.property]
  have found : entryFor w.journal row = some entry := by
    rw [entryFor,text,Option.bind_some,prior]
    exact find_prior inv.sound.distinct pending
  refine ⟨applyEntry row entry,?_,applyEntry_credential row entry⟩
  simp only [applyPendingAuth,List.getElem?_map,place,Option.map_some,found,Option.elim_some]

/-- What keeps an entry for a token: a source goes on to hold the token, and the journal is below its cap. -/
def Retains (prior : String) (w : World) : Action → Prop
  | .store sources => sources.Holds prior
  | .record _ _ _ => w.journal.length < maxEntries
  | _ => True

theorem pending_step {prior : String} {action : Action} (may : w.enabled action ∧ Careful w action) (retains : Retains prior w action)
    (inv : Inv w) (holds : w.sources.Holds prior) (pending : prior ∈ w.journal.map PendingAuth.prior) :
    (w.step action).sources.Holds prior ∧ prior ∈ (w.step action).journal.map PendingAuth.prior := by
  obtain ⟨entry,member,named⟩ := mem_map.mp pending
  rcases step_cases w action may.1 with ⟨prune,same⟩ | ⟨sources,rfl,same⟩ | ⟨reset,auth,journal,rfl,records,same⟩ |
    ⟨prune,tokens,entries,rfl,_,_,same⟩
  · rw [same]
    exact ⟨holds,pending⟩
  · rw [same]
    exact ⟨retains,pending⟩
  · rw [same]
    exact ⟨holds,record_keeps may.2 records retains pending⟩
  · rw [← named] at holds ⊢
    refine ⟨?_,mem_map_of_mem (inv.keeps may.1 (fun _ _ _ => Action.noConfusion) member holds)⟩
    rw [same]
    exact holds

/-- From any state of a careful run: the end of a prune keeps each entry for a token that
    a source holds, and one that has read everything keeps no others; every entry heals
    the rows with its token; and an entry for a token that goes on to be held stays. -/
theorem prunes_keep_restorable {start w : World} (idle : start.prune = none) (sound : Sound start.journal start.spent) (run : CarefulRuns start w) :
    (∀ action, w.enabled action → Careful w action → w.prune.isSome = true → (w.step action).prune = none →
      ∀ entry ∈ w.journal, w.sources.Holds entry.prior → entry ∈ (w.step action).journal ∧ Heals (w.step action) entry) ∧
    (∀ prune tokens entries, w.prune = some prune → prune.phase = .decided tokens entries → prune.complete = true →
      ∀ entry, entry ∈ (w.step (.write true)).journal ↔ entry ∈ w.journal ∧ w.sources.Holds entry.prior) ∧
    (∀ entry ∈ w.journal, Heals w entry) ∧
    ∀ prior later, Runs.Run World.step (fun w action => (w.enabled action ∧ Careful w action) ∧ Retains prior w action) w later →
      w.sources.Holds prior → prior ∈ w.journal.map PendingAuth.prior → ∃ entry ∈ later.journal, entry.prior = prior ∧ Heals later entry := by
  have inv : Inv w := run.invariant Inv.step ⟨sound,fun prune under => by rw [idle] at under; cases under⟩
  refine ⟨?_,?_,fun entry pending => inv.heals pending,?_⟩
  · intro action enabled careful under ends entry pending holds
    have other : ∀ reset fails auth, action ≠ .record reset fails auth := by
      rintro reset fails auth rfl
      have goesOn : (w.recorded reset fails auth).prune = w.prune := by
        rw [World.recorded]
        split
        · rfl
        · split <;> rfl
      rw [← goesOn,show (w.recorded reset fails auth).prune = none from ends] at under
      cases under
    have kept := inv.keeps enabled other pending holds
    exact ⟨kept,(Inv.step w action ⟨enabled,careful⟩ inv).heals kept⟩
  · intro prune tokens entries under phase complete entry
    obtain ⟨saved,scanned,same⟩ := inv.decided under phase
    rw [complete] at scanned
    rw [(step_prunes under true).2.2.2.2.2,phase,World.prunes,if_pos rfl,saved,same]
    exact kept_iff scanned entry
  · intro prior later onward holds pending
    have kept : Inv later ∧ later.sources.Holds prior ∧ prior ∈ later.journal.map PendingAuth.prior :=
      onward.invariant (P := fun v => Inv v ∧ v.sources.Holds prior ∧ prior ∈ v.journal.map PendingAuth.prior)
        (fun v action may holds => ⟨Inv.step v action may.1 holds.1,pending_step may.1 may.2 holds.1 holds.2.1 holds.2.2⟩) ⟨inv,holds,pending⟩
    obtain ⟨entry,member,same⟩ := mem_map.mp kept.2.2
    exact ⟨entry,member,same,kept.1.heals member⟩

end

section
attribute [local instance] asciiHost

def spentToken : Token := ⟨"t",by decide⟩

def newToken : Token := ⟨"u",by decide⟩

def rotated : Rotation := ⟨spentToken,none,newToken,newToken,0,0⟩

/-- The pool holds the new token, a backup still the spent one. -/
def staleBackup : Sources where
  primary := ⟨[[("refreshToken",.str "u")]],0,none,none,none,[]⟩
  candidates := [⟨true,some (.obj [("accounts",.arr [.obj [("refreshToken",.str "t")]])])⟩]
  wal := none

def recordedWorld : World := ⟨staleBackup,[rotated.entry],[rotated],none⟩

/-- A prune up to its write, where the backup can be read or not. -/
def pruning (reads : Bool) : List Action := [.begin,.look true,.lock true,.scan reads,.scanWal true,.read true]

def beforeWrite (reads : Bool) : World := (pruning reads).foldl World.step recordedWorld

theorem recorded_sound : Sound recordedWorld.journal recordedWorld.spent := by
  refine ⟨by decide,?_⟩
  intro entry member auth recorded
  rw [mem_singleton.mp member,mem_singleton.mp recorded]
  decide

theorem held : staleBackup.Holds rotated.entry.prior := by decide

theorem beforeWrite_runs : CarefulRuns recordedWorld (beforeWrite true) := by
  have legal : Runs.Legal World.step (fun w action => w.enabled action ∧ Careful w action) recordedWorld (pruning true) :=
    ⟨⟨rfl,trivial⟩,⟨⟨_,rfl,rfl⟩,trivial⟩,⟨⟨_,rfl,rfl⟩,Or.inl rfl⟩,⟨⟨_,_,_,_,rfl,rfl⟩,Or.inl rfl⟩,⟨⟨_,_,rfl,rfl⟩,Or.inl rfl⟩,
      ⟨⟨_,_,rfl,rfl⟩,trivial⟩,trivial⟩
  exact (Runs.Run.nil _).ofList _ legal

/-- The backup can be read, and the entry for its token is kept. -/
theorem prunes_keep_restorable_backup :
    rotated.entry ∈ ((beforeWrite true).step (.write true)).journal ∧ Heals ((beforeWrite true).step (.write true)) rotated.entry :=
  (prunes_keep_restorable rfl recorded_sound beforeWrite_runs).1 (.write true) ⟨_,_,_,rfl,rfl⟩ trivial rfl rfl rotated.entry
    (mem_singleton_self _) held

/-- The backup cannot be read for the moment, and the entry for its token is dropped. -/
theorem unread_backup_drops :
    Runs.Run World.step World.enabled recordedWorld ((beforeWrite false).step (.write true)) ∧
      rotated.entry ∈ recordedWorld.journal ∧ ((beforeWrite false).step (.write true)).sources.Holds rotated.entry.prior ∧
      ((beforeWrite false).step (.write true)).journal = [] := by
  have legal : Runs.Legal World.step World.enabled recordedWorld (pruning false ++ [.write true]) :=
    ⟨rfl,⟨_,rfl,rfl⟩,⟨_,rfl,rfl⟩,⟨_,_,_,_,rfl,rfl⟩,⟨_,_,rfl,rfl⟩,⟨_,_,rfl,rfl⟩,⟨_,_,_,rfl,rfl⟩,trivial⟩
  exact ⟨(Runs.Run.nil _).ofList _ legal,mem_singleton_self _,held,by decide⟩

end

end CodexMultiAuth.PendingPrune
