import Mathlib.Algebra.Order.Ring.Unbundled.Rat
import Mathlib.Data.List.DropRight
import Mathlib.Data.List.Infix
import CodexMultiAuth.PublicTypes

/-!
How an account is recognized. Lowercasing and hashing belong to the host; what
is proved below holds of any host unless a hypothesis says otherwise.
-/
namespace CodexMultiAuth

/-- The host's text and hash functions. Lowercasing leaves no text empty that was
    not, so a key is present exactly when it is a true value. -/
class Host where
  toLowerCase : String → String
  sha256 : String → String
  toLowerCase_ne : ∀ s, s ≠ "" → toLowerCase s ≠ ""

/-- The white space and line terminators that `trim` strips. -/
def isWhiteSpace (c : Char) : Bool :=
  (9 ≤ c.toNat && c.toNat ≤ 13) || (0x2000 ≤ c.toNat && c.toNat ≤ 0x200A) ||
    [0x20,0xA0,0x1680,0x2028,0x2029,0x202F,0x205F,0x3000,0xFEFF].contains c.toNat

def trim (s : String) : String :=
  String.ofList ((s.toList.dropWhile isWhiteSpace).reverse.dropWhile isWhiteSpace).reverse

def nonEmpty (s : String) : Option String := if s = "" then none else some s

/-- Lowercasing twice is lowercasing once, and brings no white space to the ends. -/
class LawfulHost [Host] : Prop where
  toLowerCase_idem : ∀ s, Host.toLowerCase (Host.toLowerCase s) = Host.toLowerCase s
  trim_toLowerCase : ∀ s, trim (Host.toLowerCase (trim s)) = Host.toLowerCase (trim s)

theorem trim_trim (s : String) : trim (trim s) = trim s := by
  have front : ∀ l : List Char, (l.dropWhile isWhiteSpace).reverse.dropWhile isWhiteSpace = [] ∨
      (((l.dropWhile isWhiteSpace).reverse.dropWhile isWhiteSpace).reverse).dropWhile isWhiteSpace =
        ((l.dropWhile isWhiteSpace).reverse.dropWhile isWhiteSpace).reverse := by
    intro l
    generalize left : l.dropWhile isWhiteSpace = m
    have stripped : m.dropWhile isWhiteSpace = m := by rw [← left]; exact List.dropWhile_idempotent _ _
    generalize right : m.reverse.dropWhile isWhiteSpace = r
    cases r using List.reverseRecOn with
    | nil => exact .inl rfl
    | append_singleton r c =>
      right
      -- What is left at the front was at the front before.
      have suffix : (r ++ [c]) <:+ m.reverse := right ▸ List.dropWhile_suffix _
      obtain ⟨t,whole⟩ := suffix
      have first : m = c :: (r.reverse ++ t.reverse) := by
        have := congrArg List.reverse whole
        simpa using this.symm
      rw [first,List.dropWhile_cons] at stripped
      split at stripped
      · have := congrArg List.length stripped
        have shorter := (List.dropWhile_suffix isWhiteSpace (l := r.reverse ++ t.reverse)).length_le
        simp only [List.length_cons] at this
        omega
      · rename_i solid
        rw [List.reverse_append,List.reverse_singleton,List.singleton_append,List.dropWhile_cons,if_neg solid]
  unfold trim
  rw [String.toList_ofList]
  rcases front s.toList with nothing | same
  · rw [nothing]; rfl
  · rw [same,List.reverse_reverse,List.dropWhile_idempotent]

/-- A host that lowercases ASCII letters and hashes nothing. -/
@[reducible] def asciiHost : Host where
  toLowerCase s := String.ofList (s.toList.map Char.toLower)
  sha256 s := s
  toLowerCase_ne s some := by simpa [← String.toList_eq_nil_iff] using some

private theorem toLower_cases (c : Char) : c.toLower = c ∨ (65 ≤ c.toNat ∧ c.toNat ≤ 90 ∧ c.toLower.toNat = c.toNat + 32) := by
  delta Char.toLower
  split
  · rename_i upper
    have least : 65 ≤ c.toNat := UInt32.le_iff_toNat_le.mp upper.1
    have most : c.toNat ≤ 90 := UInt32.le_iff_toNat_le.mp upper.2
    refine .inr ⟨least,most,?_⟩
    have shifted : (c.val + ('a'.val - 'A'.val)).toNat = (c.toNat + 32) % 4294967296 := UInt32.toNat_add c.val ('a'.val - 'A'.val)
    exact shifted.trans (by omega)
  · exact .inl rfl

private theorem toLower_idem (c : Char) : c.toLower.toLower = c.toLower := by
  rcases toLower_cases c.toLower with same | ⟨least,most,-⟩
  · exact same
  · rcases toLower_cases c with same | ⟨least',most',shifted⟩
    · rw [same,same]
    · omega

private theorem isWhiteSpace_toLower (c : Char) : isWhiteSpace c.toLower = isWhiteSpace c := by
  rcases toLower_cases c with same | ⟨least,most,shifted⟩
  · rw [same]
  · unfold isWhiteSpace
    rw [shifted,Bool.eq_iff_iff]
    simp
    omega

theorem asciiHost_lawful : @LawfulHost asciiHost := by
  have lower : ∀ s, @Host.toLowerCase asciiHost s = String.ofList (s.toList.map Char.toLower) := fun _ => rfl
  have alike : isWhiteSpace ∘ Char.toLower = isWhiteSpace := funext isWhiteSpace_toLower
  refine @LawfulHost.mk asciiHost (fun s => ?_) (fun s => ?_)
  · simp [lower,Function.comp_def,toLower_idem]
  · have moved : trim (@Host.toLowerCase asciiHost (trim s)) = @Host.toLowerCase asciiHost (trim (trim s)) := by
      simp only [lower,trim,String.toList_ofList,List.dropWhile_map,← List.map_reverse,alike]
    rw [moved,trim_trim]

variable [Host]

structure AccountLike where
  accountId : Option String := none
  email : Option String := none
  refreshToken : Option String := none

structure AccountIdentityRef where
  accountId : Option String
  emailKey : Option String
  refreshToken : Option String
  deriving DecidableEq

def normalizeAccountIdKey (accountId : Option String) : Option String :=
  accountId.bind (fun s => nonEmpty (trim s))

def normalizeEmailKey (email : Option String) : Option String :=
  (email.bind (fun s => nonEmpty (trim s))).map Host.toLowerCase

def normalizeRefreshTokenKey (refreshToken : Option String) : Option String :=
  refreshToken.bind (fun s => nonEmpty (trim s))

def toAccountIdentityRef (account : AccountLike) : AccountIdentityRef where
  accountId := normalizeAccountIdKey account.accountId
  emailKey := normalizeEmailKey account.email
  refreshToken := normalizeRefreshTokenKey account.refreshToken

def getIdentityKeyFromRef (ref : AccountIdentityRef) (allowRefreshFallback : Bool) : Option String :=
  match ref.accountId, ref.emailKey with
  | some id, some email => some ("account:" ++ id ++ "::email:" ++ email)
  | some id, none => some ("account:" ++ id)
  | none, some email => some ("email:" ++ email)
  | none, none =>
    if allowRefreshFallback then ref.refreshToken.map (fun token => "refresh:" ++ Host.sha256 token) else none

def AccountMetadataV3.toAccountLike (row : AccountMetadataV3) : AccountLike :=
  ⟨row.accountId,row.email,row.refreshToken⟩

def getAccountIdentityKey (row : AccountMetadataV3) : Option String :=
  getIdentityKeyFromRef (toAccountIdentityRef row.toAccountLike) true

end CodexMultiAuth
