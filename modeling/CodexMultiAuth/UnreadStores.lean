import CodexMultiAuth.ClientTokenLaw
import CodexMultiAuth.RoutingProfileLaw

/-!
What the two stores promise together, and what becomes of a store that an operation
cannot read: it counts as empty, and a new token takes the place of all the others.
-/
namespace CodexMultiAuth.UnreadStores
open ClientTokens RoutingProfiles
open JsonStore (Disk Request Input StoreFile)

/-- Where a store can be read by every operation that would write over it, and what is
    brought to the tokens takes no other's id or hash: from any state of a run on, every
    token stays, a revoked one stays revoked and does not verify, a rotation adds one
    token, and profiles that no operation changes have what they had; and an operation
    that could not read its store has written nothing. -/
theorem stores_keep_rows [Host] [LawfulHost] (T : Type) :
    (∀ file : Option StoreFile, ClientTokens.Sound (tokensOf ⟨file,none,false⟩) → ∀ w w' : ClientTokens.TokenWorld,
      ClientTokens.TokenRuns (startWith file) w → ClientTokens.TokenRuns w w' →
      ClientTokens.Continues (tokensOf w.state) (tokensOf w'.state) ∧
        (∀ operation began result, w'.call = some ⟨operation,began,.done (.ok result)⟩ →
          ClientTokens.Does operation result (tokensOf began) (tokensOf w'.state)) ∧
        (∀ operation began ended, w'.call = some ⟨operation,began,.done ended⟩ → w'.state.unread = true ∨ ended.isOk = false →
          w'.state.file = began.file) ∧
        ∀ authorizationHeader now began record token,
          w'.call = some ⟨.verify authorizationHeader now,began,.done (.ok (.verified (some record)))⟩ →
          authorizationHeader.bind bearerToken = some token →
          ∀ row ∈ tokensOf w.state, row.revokedAt.isSome = true →
            tokenHashEqual row.tokenHash.text (hashToken token).text = false) ∧
    ∀ (keys : String → Prop) (file : Option StoreFile), good (storeOf ⟨file,none,false⟩) →
      ∀ w w' : RoutingProfiles.ProfileWorld T, RoutingProfiles.ProfileRuns keys (startWith file) w →
      RoutingProfiles.ProfileRuns keys w w' →
      (∀ key, keys key → OrderedMap.find (storeOf w'.state).profiles key = OrderedMap.find (storeOf w.state).profiles key) ∧
        (∀ operation began result, w'.call = some ⟨operation,began,.done (.ok result)⟩ →
          ∀ key, ¬ RoutingProfiles.Changes operation (storeOf began) key →
          OrderedMap.find (storeOf w'.state).profiles key = OrderedMap.find (storeOf began).profiles key) ∧
        ∀ operation began ended, w'.call = some ⟨operation,began,.done ended⟩ → w'.state.unread = true ∨ ended.isOk = false →
          w'.state.file = began.file :=
  ⟨fun _ sound _ _ run later => tokens_kept sound run later,
    fun keys _ settled _ _ run later => profiles_kept keys settled run later⟩

def drawn (name : String) (trimmed : trim name = name) (named : name ≠ "") : ClientTokens.Drawn := ⟨⟨name,trimmed,named⟩,name⟩

def works (n : ℕ) : List Input := List.replicate n (.works 1)

def busyReads : List Input := works 2 ++ List.replicate 5 (.fails .EBUSY) ++ works 5

def firstAdd : List (Exclusive.Action Input ClientTokens.Operation) :=
  .begin (.add none 1 (drawn "a" (by decide) (by decide))) :: (works 7).map .answer ++ [.leave]

def secondAdd (answers : List Input) : List (Exclusive.Action Input ClientTokens.Operation) :=
  .begin (.add none 2 (drawn "b" (by decide) (by decide))) :: answers.map .answer

def profileStore : Json := .obj [("version",.num 1),("profiles",.obj [("p",.obj [])])]

def saveProfile : List (Exclusive.Action Input (RoutingProfiles.Operation Unit)) := .begin (.save profileStore none) :: (works 7).map .answer

/-- The first token is revoked, and the second one verified. -/
def revokeFirst : List (Exclusive.Action Input ClientTokens.Operation) := [.leave,.begin (.revoke "a" 3)] ++ (works 8).map .answer ++ [.leave]

def verifySecond : List (Exclusive.Action Input ClientTokens.Operation) :=
  .begin (.verify (some "Bearer cma_local_b") 4) :: (works 8).map .answer

/-- A host whose hashes have 64 digits, of which the last is that of the text. -/
@[reducible] def hashingHost : Host := { asciiHost with sha256 := fun text => String.ofList (List.replicate 63 '0' ++ text.toList.getLast?.toList) }

section
attribute [local instance] hashingHost

def oneToken : ClientTokens.TokenWorld :=
  firstAdd.foldl (fun w action => w.step JsonStore.respond ClientTokens.Operation.program action) (startWith none)

def twoTokens (answers : List Input) : ClientTokens.TokenWorld :=
  (secondAdd answers).foldl (fun w action => w.step JsonStore.respond ClientTokens.Operation.program action) oneToken

def revoked : ClientTokens.TokenWorld :=
  revokeFirst.foldl (fun w action => w.step JsonStore.respond ClientTokens.Operation.program action) (twoTokens (works 8))

def verified : ClientTokens.TokenWorld :=
  verifySecond.foldl (fun w action => w.step JsonStore.respond ClientTokens.Operation.program action) revoked

def oneProfile : RoutingProfiles.ProfileWorld Unit :=
  saveProfile.foldl (fun w action => w.step JsonStore.respond RoutingProfiles.Operation.program action) (startWith none)

theorem oneToken_runs : ClientTokens.TokenRuns (startWith none) oneToken := (Runs.Run.nil _).ofList _ (by decide)

theorem revoked_runs : ClientTokens.TokenRuns (startWith none) revoked :=
  (oneToken_runs.ofList (secondAdd (works 8)) (by decide)).ofList revokeFirst (by decide)

theorem verified_runs : ClientTokens.TokenRuns revoked verified := (Runs.Run.nil _).ofList _ (by decide)

theorem oneProfile_runs : RoutingProfiles.ProfileRuns (fun _ => False) (startWith none) oneProfile := by
  have legal : Runs.Legal (fun w : RoutingProfiles.ProfileWorld Unit => w.step JsonStore.respond RoutingProfiles.Operation.program)
      (fun w action => w.enabled (fun operation => JsonStore.Readable profileKind (RoutingProfiles.Lenient operation)) action)
      (startWith none) saveProfile := by decide
  refine (Runs.Run.nil _).ofList _ ((Runs.Legal.congr ?_).mpr legal)
  intro w action
  cases action with
  | begin tag => exact Iff.rfl
  | leave => exact Iff.rfl
  | answer input =>
    obtain ⟨state,call⟩ := w
    match call with
    | none => exact Iff.rfl
    | some ⟨tag,began,.done result⟩ => exact Iff.rfl
    | some ⟨tag,began,.ask request next⟩ => exact ⟨fun careful => careful.1,fun readable => ⟨readable,fun _ none => none.elim⟩⟩

theorem spares_other : ¬ RoutingProfiles.Changes (T := Unit) (.save profileStore none) (storeOf ⟨none,none,false⟩) "q" := by
  rintro ⟨entry,member,named,_⟩
  have keys : (RoutingProfiles.normalizeStore profileStore).profiles.map Prod.fst = ["p"] := by decide
  have among := List.mem_map_of_mem (f := Prod.fst) member
  rw [keys,named] at among
  exact absurd among (by decide)

/-- A token is verified after another one was revoked, and a profile saved. -/
theorem stores_keep_rows_added :
    ClientTokens.Continues (tokensOf revoked.state) (tokensOf verified.state) ∧
      (∀ row ∈ tokensOf revoked.state, row.revokedAt.isSome = true →
        tokenHashEqual row.tokenHash.text (hashToken "cma_local_b").text = false) ∧
      OrderedMap.find (storeOf oneProfile.state).profiles "q" = none := by
  have : LawfulHost := ⟨asciiHost_lawful.1,asciiHost_lawful.2⟩
  have none_sound : ClientTokens.Sound (tokensOf ⟨none,none,false⟩) :=
    ⟨List.nodup_nil,List.forall_mem_nil _⟩
  have none_settled : good (storeOf ⟨none,none,false⟩) := List.forall_mem_nil _
  obtain ⟨goesOn,-,-,rejects⟩ := (stores_keep_rows Unit).1 none none_sound revoked verified revoked_runs verified_runs
  exact ⟨goesOn,rejects (some "Bearer cma_local_b") 4 _ _ "cma_local_b" rfl (by decide),
    ((stores_keep_rows Unit).2 (fun _ => False) none none_settled _ oneProfile (Runs.Run.nil _) oneProfile_runs).2.1
      (.save profileStore none) ⟨none,none,false⟩ none rfl "q" spares_other⟩

/-- Every read of the store fails, and the token that was there is gone. -/
theorem unread_store_forgets :
    Exclusive.Runs JsonStore.respond (fun _ _ _ _ => True) ClientTokens.Operation.program oneToken (twoTokens busyReads) ∧
      (twoTokens busyReads).call.map (fun call => match call.program with | .done (.ok _) => true | _ => false) = some true ∧
      (tokensOf oneToken.state).map idOf = ["a"] ∧
      (tokensOf (twoTokens busyReads).state).map idOf = ["b"] :=
  ⟨(Runs.Run.nil _).ofList _ (by decide),by decide,by decide,by decide⟩

end
end CodexMultiAuth.UnreadStores
