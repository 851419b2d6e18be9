import CodexMultiAuth.AccountPool
import CodexMultiAuth.Dedup
import CodexMultiAuth.Runs

/-!
Access tokens from the Codex CLI: the pool that a manager loads takes them over
where it has none that is live, and so does the account check. Both look an entry
up by the email of the row.
-/
namespace CodexMultiAuth.CliHydration
open List AccountMetadataV3
set_option linter.unusedSectionVars false

structure CodexCliAccountSnapshot where
  email : Option String := none
  accountId : Option String := none
  accessToken : String := ""
  refreshToken : Option String := none
  expiresAt : Option ℚ := none
  deriving DecidableEq

/-- What the claims of an access token say. -/
structure TokenClaims where
  accountId : Option String := none
  email : Option String := none
  deriving DecidableEq

section
variable [Host]

/-- Account ids that are not both there and different. -/
def Agree (a b : Option String) : Prop := conflicts (normalizeAccountIdKey a) (normalizeAccountIdKey b) = false

/-- One identity key. -/
def Coincide (a b : AccountLike) : Prop :=
  ∃ key, getIdentityKeyFromRef (toAccountIdentityRef a) true = some key ∧ getIdentityKeyFromRef (toAccountIdentityRef b) true = some key

/-- Row, entry and token name no two accounts. -/
structure Own (claims : String → TokenClaims) (accountId : Option String) (entry : CodexCliAccountSnapshot) : Prop where
  row : Agree accountId entry.accountId
  token : Agree accountId (claims entry.accessToken).accountId
  entry : Agree entry.accountId (claims entry.accessToken).accountId

/-- A row as deduplication reads it, with its position. -/
structure PlacedRow where
  position : ℕ
  row : AccountLike
  lastUsed : Option ℚ
  addedAt : Option ℚ

instance : AccountRow PlacedRow := ⟨PlacedRow.row,PlacedRow.lastUsed,PlacedRow.addedAt⟩

/-- Every row that deduplication keeps of the first pool it keeps of the second. -/
def KeepsRows (before after : List PlacedRow) : Prop :=
  ∀ position, (∃ row ∈ deduplicateAccounts before, row.position = position) → ∃ row ∈ deduplicateAccounts after, row.position = position

/-- What a row was and is, and the entry whose token was put on it. -/
structure Move where
  before : AccountLike
  after : AccountLike
  put : Option CodexCliAccountSnapshot
  lastUsed : ℚ
  addedAt : ℚ

def placed (identity : Move → AccountLike) (moves : List Move) : List PlacedRow :=
  moves.mapIdx (fun i move => ⟨i,identity move,some move.lastUsed,some move.addedAt⟩)

def Move.Renamed (move : Move) : Prop := move.before.accountId ≠ move.after.accountId ∨ move.before.email ≠ move.after.email

/-- No token and no identity ends on a row of another account, and no row is merged away for it. -/
structure Unmixed (claims : String → TokenClaims) (moves : List Move) : Prop where
  own : ∀ move ∈ moves, ∀ entry, move.put = some entry → Own claims move.before.accountId entry
  apart : ∀ move ∈ moves, ∀ other ∈ moves, ∀ entry another, move.put = some entry → other.put = some another →
    entry.accessToken = another.accessToken → Agree move.after.accountId other.after.accountId
  identity : ∀ (i j : ℕ) (move other : Move), moves[i]? = some move → moves[j]? = some other → i ≠ j → move.Renamed → ¬ Coincide move.after other.after
  kept : KeepsRows (placed Move.before moves) (placed Move.after moves)

/-- A later entry with an email takes the place of an earlier one. -/
def codexCliCache (accounts : List CodexCliAccountSnapshot) : OrderedMap String CodexCliAccountSnapshot :=
  accounts.foldl (fun cache snapshot =>
    match sanitizeEmail snapshot.email with
    | none => cache
    | some email => if snapshot.accessToken = "" then cache else cache.put email snapshot) []

def isExpired (now : ℚ) (expiresAt : Option ℚ) : Bool :=
  match expiresAt with
  | some expires => decide (expires ≤ now)
  | none => false

def missingOrExpired (now : ℚ) (account : ManagedAccount) : Bool :=
  (account.access.bind nonEmpty).isNone ||
    match account.expires with
    | none => true
    | some expires => decide (expires ≤ now)

/-- `shouldUpdateAccountIdFromToken` -/
def followsToken (source accountId : Option String) : Bool :=
  (accountId.bind nonEmpty).isNone || (source.bind nonEmpty).isNone || decide (source = some "token") || decide (source = some "id_token")

/-- The row after the pass, and the entry whose token was put on it. -/
def hydrateAccount (cache : OrderedMap String CodexCliAccountSnapshot) (now : ℚ) (account : ManagedAccount) :
    ManagedAccount × Option CodexCliAccountSnapshot :=
  match (sanitizeEmail account.email).bind cache.find with
  | none => (account,none)
  | some cached =>
    if isExpired now cached.expiresAt then (account,none)
    else
      let hydrated : ManagedAccount :=
        if missingOrExpired now account then { account with access := some cached.accessToken,expires := cached.expiresAt.or account.expires } else account
      let identified : ManagedAccount :=
        if (account.accountId.bind nonEmpty).isNone ∧ (cached.accountId.bind nonEmpty).isSome ∧
            followsToken account.accountIdSource account.accountId = true then
          { hydrated with accountId := cached.accountId,accountIdSource := account.accountIdSource.or (some "token") }
        else hydrated
      (identified,if missingOrExpired now account then some cached else none)

def identityOf (account : ManagedAccount) : AccountLike := ⟨account.accountId,account.email,some account.refreshToken⟩

def hydrationMove (cache : OrderedMap String CodexCliAccountSnapshot) (now : ℚ) (account : ManagedAccount) : Move :=
  ⟨identityOf account,identityOf (hydrateAccount cache now account).1,(hydrateAccount cache now account).2,account.lastUsed,account.addedAt⟩

def hydrateFromCodexCli (accounts : List CodexCliAccountSnapshot) (now : ℚ) (pool : List ManagedAccount) : List Move :=
  pool.map (hydrationMove (codexCliCache accounts) now)

/-! ### When it keeps the accounts apart -/

/-- The last entry with an email and a token. -/
def lastEntry (accounts : List CodexCliAccountSnapshot) (email : String) : Option CodexCliAccountSnapshot :=
  accounts.reverse.find? (fun snapshot => decide (sanitizeEmail snapshot.email = some email) && decide (snapshot.accessToken ≠ ""))

def offered (accounts : List CodexCliAccountSnapshot) (now : ℚ) (account : ManagedAccount) : Option CodexCliAccountSnapshot :=
  ((sanitizeEmail account.email).bind (lastEntry accounts)).filter (fun entry => !isExpired now entry.expiresAt)

/-- A row keeps its account id; one that has none is given that of its entry. -/
def settledId (accounts : List CodexCliAccountSnapshot) (now : ℚ) (account : ManagedAccount) : Option String :=
  if (account.accountId.bind nonEmpty).isSome then account.accountId
  else
    match offered accounts now account with
    | some entry => if (entry.accountId.bind nonEmpty).isSome then entry.accountId else account.accountId
    | none => account.accountId

def settled (accounts : List CodexCliAccountSnapshot) (now : ℚ) (account : ManagedAccount) : AccountLike :=
  ⟨settledId accounts now account,account.email,some account.refreshToken⟩

def rowsWith (identity : ManagedAccount → AccountLike) (pool : List ManagedAccount) : List PlacedRow :=
  pool.mapIdx (fun i account => ⟨i,identity account,some account.lastUsed,some account.addedAt⟩)

/-- The entries of the state belong to the rows that have their emails. -/
structure Matched (claims : String → TokenClaims) (accounts : List CodexCliAccountSnapshot) (now : ℚ) (pool : List ManagedAccount) : Prop where
  /-- The last entry with the email of a row that needs a token is the same account. -/
  own : ∀ account ∈ pool, ∀ entry, missingOrExpired now account = true → offered accounts now account = some entry →
    Own claims account.accountId entry
  /-- Two rows that are offered one token have one account id. -/
  apart : ∀ account ∈ pool, ∀ other ∈ pool, ∀ entry another, missingOrExpired now account = true → missingOrExpired now other = true →
    offered accounts now account = some entry → offered accounts now other = some another → entry.accessToken = another.accessToken →
    Agree (settledId accounts now account) (settledId accounts now other)
  /-- The account id that a row without one is offered makes it no other row. -/
  identity : ∀ (i j : ℕ) (account other : ManagedAccount) (entry : CodexCliAccountSnapshot), pool[i]? = some account → pool[j]? = some other → i ≠ j → (account.accountId.bind nonEmpty).isNone →
    offered accounts now account = some entry → (entry.accountId.bind nonEmpty).isSome →
    ¬ Coincide (settled accounts now account) (settled accounts now other)
  /-- With the account ids that rows are offered, deduplication keeps the rows that it keeps without them. -/
  kept : KeepsRows (rowsWith identityOf pool) (rowsWith (settled accounts now) pool)

theorem find_codexCliCache (accounts : List CodexCliAccountSnapshot) (email : String) :
    (codexCliCache accounts).find email = lastEntry accounts email := by
  unfold codexCliCache lastEntry
  induction accounts using List.reverseRecOn with
  | nil => rfl
  | append_singleton accounts snapshot ih =>
    rw [foldl_append,foldl_cons,foldl_nil,reverse_append,reverse_singleton,singleton_append,List.find?_cons]
    cases named : sanitizeEmail snapshot.email with
    | none => simpa [named] using ih
    | some other =>
      by_cases empty : snapshot.accessToken = ""
      · simpa [named,empty] using ih
      · by_cases same : other = email
        · simp [empty,same]
        · simpa [named,empty,same] using ih

section
variable {accounts : List CodexCliAccountSnapshot} {now : ℚ} {account : ManagedAccount}

theorem find_cache : (codexCliCache accounts).find = lastEntry accounts := funext (find_codexCliCache accounts)

theorem followsToken_of_missing {source accountId : Option String} (missing : (accountId.bind nonEmpty).isNone) : followsToken source accountId = true := by
  simp [followsToken,missing]

theorem put_eq_some {entry : CodexCliAccountSnapshot} : (hydrationMove (codexCliCache accounts) now account).put = some entry ↔
    missingOrExpired now account = true ∧ offered accounts now account = some entry := by
  unfold hydrationMove hydrateAccount offered
  rw [find_cache]
  cases (sanitizeEmail account.email).bind (lastEntry accounts) with
  | none => simp
  | some cached => cases expired : isExpired now cached.expiresAt <;> cases missingOrExpired now account <;> simp [expired,Option.filter]

theorem after_settled : (hydrationMove (codexCliCache accounts) now account).after = settled accounts now account := by
  unfold settled settledId hydrationMove hydrateAccount offered
  rw [find_cache]
  cases (sanitizeEmail account.email).bind (lastEntry accounts) with
  | none => simp [identityOf]
  | some cached =>
    cases expired : isExpired now cached.expiresAt with
    | true => simp [identityOf,expired,Option.filter]
    | false =>
      simp only [expired,Option.filter,Bool.not_false,if_true,Bool.false_eq_true,if_false]
      by_cases missing : (account.accountId.bind nonEmpty).isNone
      · have follows : followsToken account.accountIdSource account.accountId = true := followsToken_of_missing missing
        have absent : ¬ (account.accountId.bind nonEmpty).isSome := by simpa using missing
        by_cases given : (cached.accountId.bind nonEmpty).isSome
        · simp only [if_pos (And.intro missing (And.intro given follows)),if_neg absent,if_pos given]
          split <;> rfl
        · simp only [if_neg (fun all : _ ∧ _ ∧ _ => given all.2.1),if_neg absent,if_neg given]
          split <;> rfl
      · have there : (account.accountId.bind nonEmpty).isSome := by simpa [Option.isSome_iff_ne_none] using missing
        simp only [if_neg (fun all : _ ∧ _ ∧ _ => missing all.1),if_pos there]
        split <;> rfl

theorem renamed_iff : (hydrationMove (codexCliCache accounts) now account).Renamed ↔
    (account.accountId.bind nonEmpty).isNone ∧ ∃ entry, offered accounts now account = some entry ∧ (entry.accountId.bind nonEmpty).isSome := by
  have before : (hydrationMove (codexCliCache accounts) now account).before = identityOf account := rfl
  rw [Move.Renamed,after_settled,before,settled,settledId,identityOf]
  by_cases there : (account.accountId.bind nonEmpty).isSome
  · have present : ¬ (account.accountId.bind nonEmpty).isNone := by simpa [Option.isSome_iff_ne_none] using there
    simp [there,present]
  · have missing : (account.accountId.bind nonEmpty).isNone := by simpa using there
    cases offer : offered accounts now account with
    | none => simp [there]
    | some entry =>
      by_cases given : (entry.accountId.bind nonEmpty).isSome
      · have other : account.accountId ≠ entry.accountId := by
          intro same
          rw [same] at there
          exact there given
        simp [there,given,missing,other]
      · simp [there,given]

end

variable (claims : String → TokenClaims)

theorem hydrate_unmixed_iff (accounts : List CodexCliAccountSnapshot) (now : ℚ) (pool : List ManagedAccount) :
    Unmixed claims (hydrateFromCodexCli accounts now pool) ↔ Matched claims accounts now pool := by
  have rows : ∀ (i : ℕ) move, (hydrateFromCodexCli accounts now pool)[i]? = some move ↔
      ∃ account, pool[i]? = some account ∧ hydrationMove (codexCliCache accounts) now account = move := by
    intro i move
    rw [hydrateFromCodexCli,List.getElem?_map,Option.map_eq_some_iff]
  have befores : placed Move.before (hydrateFromCodexCli accounts now pool) = rowsWith identityOf pool := by
    refine ext_getElem? (fun i => ?_)
    simp [placed,rowsWith,hydrateFromCodexCli,hydrationMove,Function.comp_def]
  have afters : placed Move.after (hydrateFromCodexCli accounts now pool) = rowsWith (settled accounts now) pool := by
    refine ext_getElem? (fun i => ?_)
    simp only [placed,rowsWith,hydrateFromCodexCli,List.getElem?_mapIdx,List.getElem?_map,Option.map_map,Function.comp_def,after_settled]
    rfl
  constructor
  · intro unmixed
    refine ⟨?_,?_,?_,befores ▸ afters ▸ unmixed.kept⟩
    · intro account member entry missing offer
      exact unmixed.own _ (mem_map_of_mem member) entry (put_eq_some.mpr ⟨missing,offer⟩)
    · intro account member other member' entry another missing missing' offer offer' same
      have agree := unmixed.apart _ (mem_map_of_mem member) _ (mem_map_of_mem member') entry another
        (put_eq_some.mpr ⟨missing,offer⟩) (put_eq_some.mpr ⟨missing',offer'⟩) same
      rw [after_settled,after_settled] at agree
      exact agree
    · intro i j account other entry found found' apart absent offer given
      have distinct := unmixed.identity i j _ _ ((rows i _).mpr ⟨account,found,rfl⟩) ((rows j _).mpr ⟨other,found',rfl⟩) apart
        (renamed_iff.mpr ⟨absent,entry,offer,given⟩)
      rw [after_settled,after_settled] at distinct
      exact distinct
  · intro matched
    refine ⟨?_,?_,?_,befores.symm ▸ afters.symm ▸ matched.kept⟩
    · intro move member entry put
      obtain ⟨account,among,rfl⟩ := mem_map.mp member
      obtain ⟨missing,offer⟩ := put_eq_some.mp put
      exact matched.own account among entry missing offer
    · intro move member other member' entry another put put' same
      obtain ⟨account,among,rfl⟩ := mem_map.mp member
      obtain ⟨account',among',rfl⟩ := mem_map.mp member'
      obtain ⟨missing,offer⟩ := put_eq_some.mp put
      obtain ⟨missing',offer'⟩ := put_eq_some.mp put'
      rw [after_settled,after_settled]
      exact matched.apart account among account' among' entry another missing missing' offer offer' same
    · intro i j move other found found' apart renamed
      obtain ⟨account,here,rfl⟩ := (rows i move).mp found
      obtain ⟨account',there,rfl⟩ := (rows j other).mp found'
      obtain ⟨absent,entry,offer,given⟩ := renamed_iff.mp renamed
      rw [after_settled,after_settled]
      exact matched.identity i j account account' entry here there apart absent offer given

/-! ### The account check -/

/-- A refresh that succeeded; the email is that of its tokens. -/
structure Refreshed where
  access : String
  refresh : String
  expires : Option ℚ
  email : Option String

/-- What the check of one row reads: the clock, the state of the Codex CLI and the refresh, should it come to one. -/
structure CheckInput where
  now : ℚ
  cli : List CodexCliAccountSnapshot
  refresh : Option Refreshed

structure CheckState where
  accounts : List AccountMetadataV3
  next : ℕ := 0
  /-- The rows that were given a token of the Codex CLI, and the tokens. -/
  puts : List (ℕ × String) := []

def lookupCodexCliTokensByEmail (accounts : List CodexCliAccountSnapshot) (email : Option String) : Option CodexCliAccountSnapshot :=
  (normalizeEmailKey email).bind (fun normalized =>
    (accounts.find? (fun entry => decide (normalizeEmailKey entry.email = some normalized))).filter (fun entry => decide (entry.accessToken ≠ "")))

def liveAccess (now : ℚ) (account : AccountMetadataV3) : Option String :=
  (account.accessToken.bind nonEmpty).filter (fun _ => !isExpired now account.expiresAt)

def tokenAccountId (claims : String → TokenClaims) (token : String) (account : AccountMetadataV3) : Option String :=
  ((claims token).accountId.bind nonEmpty).filter (fun id => shouldUpdateAccountIdFromToken account && decide (some id ≠ account.accountId))

def renameAccount (id : Option String) (account : AccountMetadataV3) : AccountMetadataV3 :=
  match id with
  | some id => (account.put "accountId" (.str id)).put "accountIdSource" (.str "token")
  | none => account

def putEmail (email : Option String) (account : AccountMetadataV3) : AccountMetadataV3 :=
  match email with
  | some email => account.put "email" (.str email)
  | none => account

def takeCached (claims : String → TokenClaims) (cached : CodexCliAccountSnapshot) (account : AccountMetadataV3) : AccountMetadataV3 :=
  renameAccount (tokenAccountId claims cached.accessToken account) (putEmail (sanitizeEmail (claims cached.accessToken).email)
    ((account.put "accessToken" (.str cached.accessToken)).assign "expiresAt" (cached.expiresAt.map Json.num)))

def takeRefreshed (claims : String → TokenClaims) (refreshed : Refreshed) (account : AccountMetadataV3) : AccountMetadataV3 :=
  let credential := (account.put "refreshToken" (.str refreshed.refresh)).put "accessToken" (.str refreshed.access)
  let dated := match refreshed.expires with
    | some expires => OrderedMap.put credential "expiresAt" (.num expires)
    | none => credential
  renameAccount (tokenAccountId claims refreshed.access account) (putEmail (sanitizeEmail refreshed.email) dated)

/-- The entry of the Codex CLI that the check of a row comes to. -/
def cachedFor (input : CheckInput) (account : AccountMetadataV3) : Option CodexCliAccountSnapshot :=
  if account.find "enabled" = some (.bool false) ∨ (liveAccess input.now account).isSome then none
  else (lookupCodexCliTokensByEmail input.cli account.email).filter (fun cached => !isExpired input.now cached.expiresAt)

def checkAccount (claims : String → TokenClaims) (input : CheckInput) (account : AccountMetadataV3) : AccountMetadataV3 :=
  if account.find "enabled" = some (.bool false) then account
  else
    match liveAccess input.now account with
    | some access => renameAccount (tokenAccountId claims access account) account
    | none =>
      match cachedFor input account,input.refresh with
      | some cached,_ => takeCached claims cached account
      | none,some refreshed => takeRefreshed claims refreshed account
      | none,none => account

def checkStep (claims : String → TokenClaims) (s : CheckState) (input : CheckInput) : CheckState :=
  match s.accounts[s.next]? with
  | none => { s with next := s.next + 1 }
  | some account =>
    { accounts := s.accounts.set s.next (checkAccount claims input account)
      next := s.next + 1
      puts := s.puts ++ ((cachedFor input account).map (fun cached => (s.next,cached.accessToken))).toList }

def checkedRows (accounts : List AccountMetadataV3) : List PlacedRow :=
  accounts.mapIdx (fun i account => ⟨i,account.toAccountLike,account.lastUsed,account.addedAt⟩)

/-- The step puts a token of the Codex CLI on no row of another account, and merges no row away by it. -/
structure StepUnmixed (claims : String → TokenClaims) (s : CheckState) (input : CheckInput) : Prop where
  own : ∀ account cached, s.accounts[s.next]? = some account → cachedFor input account = some cached → Own claims account.accountId cached
  apart : ∀ account cached after, s.accounts[s.next]? = some account → cachedFor input account = some cached →
    (checkStep claims s input).accounts[s.next]? = some after → ∀ put ∈ s.puts, put.2 = cached.accessToken →
    ∀ other, (checkStep claims s input).accounts[put.1]? = some other → Agree after.accountId other.accountId
  identity : ∀ account cached after, s.accounts[s.next]? = some account → cachedFor input account = some cached →
    (checkStep claims s input).accounts[s.next]? = some after → after.accountId ≠ account.accountId ∨ after.email ≠ account.email →
    ∀ (j : ℕ) other, j ≠ s.next → (checkStep claims s input).accounts[j]? = some other → ¬ Coincide after.toAccountLike other.toAccountLike
  kept : ∀ account cached, s.accounts[s.next]? = some account → cachedFor input account = some cached →
    KeepsRows (checkedRows s.accounts) (checkedRows (checkStep claims s input).accounts)

/-- The identity that a token of the Codex CLI leaves a row. -/
def claimed (claims : String → TokenClaims) (cached : CodexCliAccountSnapshot) (account : AccountMetadataV3) : AccountLike :=
  ⟨(tokenAccountId claims cached.accessToken account).or account.accountId,
    (sanitizeEmail (claims cached.accessToken).email).or account.email,account.refreshToken⟩

/-- The first entry with the email of the row belongs to the row. -/
structure StepMatched (claims : String → TokenClaims) (s : CheckState) (input : CheckInput) : Prop where
  own : ∀ account cached, s.accounts[s.next]? = some account → cachedFor input account = some cached → Own claims account.accountId cached
  /-- A row that was given the same token before has the account id that the token leaves this one. -/
  apart : ∀ account cached, s.accounts[s.next]? = some account → cachedFor input account = some cached →
    ∀ put ∈ s.puts, put.1 ≠ s.next → put.2 = cached.accessToken → ∀ other, s.accounts[put.1]? = some other →
      Agree (claimed claims cached account).accountId other.accountId
  /-- Where the token changes the identity, no other row has the one it leaves. -/
  identity : ∀ account cached, s.accounts[s.next]? = some account → cachedFor input account = some cached →
    (claimed claims cached account).accountId ≠ account.accountId ∨ (claimed claims cached account).email ≠ account.email →
    ∀ (j : ℕ) other, j ≠ s.next → s.accounts[j]? = some other → ¬ Coincide (claimed claims cached account) other.toAccountLike
  /-- With that identity, deduplication keeps the rows that it keeps with the row's own. -/
  kept : ∀ account cached, s.accounts[s.next]? = some account → cachedFor input account = some cached →
    KeepsRows (checkedRows s.accounts) ((checkedRows s.accounts).set s.next ⟨s.next,claimed claims cached account,account.lastUsed,account.addedAt⟩)

theorem toAccountLike_takeCached (cached : CodexCliAccountSnapshot) (account : AccountMetadataV3) :
    toAccountLike (takeCached claims cached account) = claimed claims cached account := by
  unfold takeCached claimed toAccountLike
  generalize tokenAccountId claims cached.accessToken account = id
  generalize sanitizeEmail (claims cached.accessToken).email = email
  cases id <;> cases email <;>
    simp [renameAccount,putEmail,accountId,email,refreshToken,Record.text,Json.asText]

theorem dates_takeCached (cached : CodexCliAccountSnapshot) (account : AccountMetadataV3) :
    (takeCached claims cached account).lastUsed = account.lastUsed ∧ (takeCached claims cached account).addedAt = account.addedAt := by
  unfold takeCached
  generalize tokenAccountId claims cached.accessToken account = id
  generalize sanitizeEmail (claims cached.accessToken).email = email
  cases id <;> cases email <;> simp [renameAccount,putEmail,lastUsed,addedAt,Record.number]

theorem checkAccount_cached {input : CheckInput} {account : AccountMetadataV3} {cached : CodexCliAccountSnapshot}
    (came : cachedFor input account = some cached) : checkAccount claims input account = takeCached claims cached account := by
  have open_ := came
  unfold cachedFor at open_
  split at open_
  · cases open_
  · next free =>
    rw [not_or] at free
    have none : liveAccess input.now account = Option.none := by simpa using free.2
    rw [checkAccount,if_neg free.1,none]
    dsimp only
    rw [came]

theorem checkStep_others (s : CheckState) (input : CheckInput) {j : ℕ} (other : j ≠ s.next) :
    (checkStep claims s input).accounts[j]? = s.accounts[j]? := by
  unfold checkStep
  split
  · rfl
  · exact List.getElem?_set_ne (Ne.symm other)

theorem checkStep_row {s : CheckState} {input : CheckInput} {account : AccountMetadataV3} {cached : CodexCliAccountSnapshot}
    (found : s.accounts[s.next]? = some account) (came : cachedFor input account = some cached) :
    (checkStep claims s input).accounts[s.next]? = some (takeCached claims cached account) := by
  have inside : s.next < s.accounts.length := (List.getElem?_eq_some_iff.mp found).1
  rw [checkStep,found]
  dsimp only
  rw [List.getElem?_set_self inside,checkAccount_cached claims came]

theorem step_unmixed_iff (s : CheckState) (input : CheckInput) : StepUnmixed claims s input ↔ StepMatched claims s input := by
  have idOf : ∀ cached account, accountId (takeCached claims cached account) = (claimed claims cached account).accountId :=
    fun cached account => congrArg AccountLike.accountId (toAccountLike_takeCached claims cached account)
  have emailOf : ∀ cached account, email (takeCached claims cached account) = (claimed claims cached account).email :=
    fun cached account => congrArg AccountLike.email (toAccountLike_takeCached claims cached account)
  have reflexive : ∀ id, Agree id id := by
    intro id
    rw [Agree,conflicts_eq_false]
    intro x y here there
    exact Option.some.inj (here.symm.trans there)
  have rows : ∀ account cached, s.accounts[s.next]? = some account → cachedFor input account = some cached →
      checkedRows (checkStep claims s input).accounts =
        (checkedRows s.accounts).set s.next ⟨s.next,claimed claims cached account,account.lastUsed,account.addedAt⟩ := by
    intro account cached found came
    rw [checkStep,found]
    dsimp only
    rw [checkAccount_cached claims came,checkedRows,mapIdx_set,toAccountLike_takeCached,(dates_takeCached claims cached account).1,
      (dates_takeCached claims cached account).2]
    rfl
  constructor
  · intro unmixed
    refine ⟨unmixed.own,?_,?_,fun account cached found came => rows account cached found came ▸ unmixed.kept account cached found came⟩
    · intro account cached found came put member apart same other there
      rw [← checkStep_others claims s input apart] at there
      have agree := unmixed.apart account cached _ found came (checkStep_row claims found came) put member same other there
      rw [idOf] at agree
      exact agree
    · intro account cached found came changed j other apart there
      rw [← idOf,← emailOf] at changed
      rw [← checkStep_others claims s input apart] at there
      have distinct := unmixed.identity account cached _ found came (checkStep_row claims found came) changed j other apart there
      rw [toAccountLike_takeCached] at distinct
      exact distinct
  · intro matched
    refine ⟨matched.own,?_,?_,fun account cached found came => rows account cached found came ▸ matched.kept account cached found came⟩
    · intro account cached after found came here put member same other there
      rw [checkStep_row claims found came,Option.some.injEq] at here
      subst here
      by_cases own : put.1 = s.next
      · rw [own,checkStep_row claims found came,Option.some.injEq] at there
        subst there
        exact reflexive _
      · rw [checkStep_others claims s input own] at there
        rw [idOf]
        exact matched.apart account cached found came put member own same other there
    · intro account cached after found came here changed j other apart there
      rw [checkStep_row claims found came,Option.some.injEq] at here
      subst here
      rw [idOf,emailOf] at changed
      rw [checkStep_others claims s input apart] at there
      rw [toAccountLike_takeCached]
      exact matched.identity account cached found came changed j other apart there

/-- The pass over a loaded pool and the account check keep the accounts apart just when the entries belong to the rows they are looked up for. -/
theorem hydration_unmixed_iff :
    (∀ (accounts : List CodexCliAccountSnapshot) (now : ℚ) (pool : List ManagedAccount),
      Unmixed claims (hydrateFromCodexCli accounts now pool) ↔ Matched claims accounts now pool) ∧
    (∀ (accounts : List AccountMetadataV3) (inputs : List CheckInput),
      Runs.Legal (checkStep claims) (StepUnmixed claims) { accounts := accounts } inputs ↔
        Runs.Legal (checkStep claims) (StepMatched claims) { accounts := accounts } inputs) := by
  refine ⟨hydrate_unmixed_iff claims,?_⟩
  intro accounts inputs
  have same : StepUnmixed claims = StepMatched claims := funext (fun s => funext (fun input => propext (step_unmixed_iff claims s input)))
  rw [same]

end

section
attribute [local instance] asciiHost

def claimsFirst (_ : String) : TokenClaims := ⟨some "acc-1",some "team@example.com"⟩

def firstEntry : CodexCliAccountSnapshot := { email := some "team@example.com",accountId := some "acc-1",accessToken := "token-1" }

def neighbours : List ManagedAccount :=
  [{ ref := 0,index := 0,accountId := some "acc-1",email := some "team@example.com",refreshToken := "r1" },
    { ref := 1,index := 1,accountId := some "acc-2",email := some "team@example.com",refreshToken := "r2" }]

theorem neighbour_gets_token :
    ¬ ∀ (claims : String → TokenClaims) (accounts : List CodexCliAccountSnapshot) (now : ℚ) (pool : List ManagedAccount),
      Unmixed claims (hydrateFromCodexCli accounts now pool) := by
  intro claim
  have unmixed := claim claimsFirst [firstEntry] 0 neighbours
  have own := unmixed.own (hydrationMove (codexCliCache [firstEntry]) 0 neighbours[1]) (by simp [hydrateFromCodexCli,neighbours]) firstEntry
    (by decide)
  exact absurd own.row (by unfold Agree; decide)

end
end CodexMultiAuth.CliHydration
