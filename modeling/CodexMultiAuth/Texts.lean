import CodexMultiAuth.Identity

/-!
Texts as JavaScript cuts and orders them, by their UTF-16 units. A cut through a pair
of units leaves the pair out.
-/
namespace CodexMultiAuth

open List

def codeUnits (c : Char) : List ℕ :=
  if 0x10000 ≤ c.toNat then [0xD800 + (c.toNat - 0x10000) / 0x400,0xDC00 + (c.toNat - 0x10000) % 0x400] else [c.toNat]

def textUnits (text : String) : List ℕ := text.toList.flatMap codeUnits

def sliceUnits : ℕ → List Char → List Char
  | _,[] => []
  | n,c :: rest => if (codeUnits c).length ≤ n then c :: sliceUnits (n - (codeUnits c).length) rest else []

def slice (n : ℕ) (text : String) : String := String.ofList (sliceUnits n text.toList)

theorem sliceUnits_initial (n : ℕ) (text : List Char) : sliceUnits n text <+: text := by
  induction text generalizing n with
  | nil => exact prefix_rfl
  | cons c rest ih =>
    rw [sliceUnits]
    split
    · exact (prefix_cons_inj c).mpr (ih _)
    · exact nil_prefix

theorem sliceUnits_front {n : ℕ} {part text : List Char} (short : part <+: sliceUnits n text) : sliceUnits n part = part := by
  induction text generalizing n part with
  | nil =>
    rw [show part = [] from prefix_nil.mp short]
    rfl
  | cons c rest ih =>
    rw [sliceUnits] at short
    split at short
    · next fits =>
      cases part with
      | nil => rfl
      | cons d part =>
        obtain ⟨same,later⟩ := cons_prefix_cons.mp short
        subst same
        rw [sliceUnits,if_pos fits,ih later]
    · rw [show part = [] from prefix_nil.mp short]
      rfl

/-- A text that begins with no white space. -/
def Led (text : List Char) : Prop := text.dropWhile isWhiteSpace = text

theorem Led.front {part text : List Char} (led : Led text) (front : part <+: text) : Led part := by
  cases part with
  | nil => rfl
  | cons c part =>
    obtain ⟨rest,rfl⟩ := front
    unfold Led at led ⊢
    rw [cons_append,dropWhile_cons] at led
    rw [dropWhile_cons]
    split at led
    · have shorter := (dropWhile_suffix isWhiteSpace (l := part ++ rest)).length_le
      rw [led] at shorter
      exact absurd shorter (by simp)
    · next solid => rw [if_neg solid]

theorem trim_toList (text : String) : (trim text).toList = ((text.toList.dropWhile isWhiteSpace).reverse.dropWhile isWhiteSpace).reverse := by
  rw [trim,String.toList_ofList]

theorem led_dropWhile (text : List Char) : Led (text.dropWhile isWhiteSpace) := dropWhile_idempotent isWhiteSpace text

theorem trim_initial (text : String) : (trim text).toList <+: text.toList.dropWhile isWhiteSpace := by
  rw [trim_toList]
  conv_rhs => rw [← reverse_reverse (text.toList.dropWhile isWhiteSpace)]
  exact reverse_prefix.mpr (dropWhile_suffix isWhiteSpace)

theorem trim_led (text : String) : Led (trim text).toList := (led_dropWhile text.toList).front (trim_initial text)

variable {text : String}

theorem trim_ne_empty (led : Led text.toList) (some : text ≠ "") : trim text ≠ "" := by
  intro empty
  refine some (String.toList_eq_nil_iff.mp ?_)
  have nothing : (text.toList.reverse.dropWhile isWhiteSpace).reverse = [] := by
    have none := congrArg String.toList empty
    rwa [trim_toList,show text.toList.dropWhile isWhiteSpace = text.toList from led] at none
  have blank := dropWhile_eq_nil_iff.mp (reverse_eq_nil_iff.mp nothing)
  rw [← led,dropWhile_eq_nil_iff]
  exact fun c member => blank c (mem_reverse.mpr member)

theorem slice_toList (n : ℕ) (text : String) : (slice n text).toList = sliceUnits n text.toList := String.toList_ofList

theorem slice_led (led : Led text.toList) (n : ℕ) : Led (slice n text).toList := by
  rw [slice_toList]
  exact led.front (sliceUnits_initial n text.toList)

theorem slice_ne_empty {n : ℕ} (room : 2 ≤ n) (some : text ≠ "") : slice n text ≠ "" := by
  intro empty
  have none := congrArg String.toList empty
  rw [slice_toList] at none
  cases chars : text.toList with
  | nil => exact some (String.toList_eq_nil_iff.mp chars)
  | cons c rest =>
    have fits : (codeUnits c).length ≤ n := by
      unfold codeUnits
      split
      · exact room
      · exact (Nat.le_succ 1).trans room
    rw [chars,sliceUnits,if_pos fits] at none
    cases none

theorem slice_trim_slice (n : ℕ) (led : Led text.toList) : slice n (trim (slice n text)) = trim (slice n text) := by
  have front : (trim (slice n text)).toList <+: sliceUnits n text.toList := by
    have prefix_ := trim_initial (slice n text)
    rwa [show (slice n text).toList.dropWhile isWhiteSpace = (slice n text).toList from slice_led led n,slice_toList] at prefix_
  rw [slice,sliceUnits_front front,String.ofList_toList]

end CodexMultiAuth
