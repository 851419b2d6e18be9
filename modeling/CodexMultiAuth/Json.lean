import Mathlib.Data.Rat.Lemmas
import CodexMultiAuth.OrderedMap

/-!
The JSON documents that accounts are stored as. A property whose value is
`undefined` is an absent key: serialization drops it, and no code here tells the
two apart. Two values are equal when their serialized texts are, which keeps
the order of an object's keys.
-/
namespace CodexMultiAuth

inductive Json where
  | null
  | bool (value : Bool)
  | num (value : ℚ)
  | str (value : String)
  | arr (items : List Json)
  | obj (fields : List (String × Json))

abbrev Record := OrderedMap String Json

namespace Json

mutual
def beq : Json → Json → Bool
  | .null, .null => true
  | .bool a, .bool b => a == b
  | .num a, .num b => decide (a = b)
  | .str a, .str b => decide (a = b)
  | .arr a, .arr b => beqItems a b
  | .obj a, .obj b => beqFields a b
  | _, _ => false
def beqItems : List Json → List Json → Bool
  | [], [] => true
  | a :: as, b :: bs => beq a b && beqItems as bs
  | _, _ => false
def beqFields : List (String × Json) → List (String × Json) → Bool
  | [], [] => true
  | (k,a) :: as, (l,b) :: bs => decide (k = l) && beq a b && beqFields as bs
  | _, _ => false
end

mutual
private theorem beq_iff : (a b : Json) → (beq a b = true ↔ a = b)
  | .null, b => by cases b <;> simp [beq]
  | .bool x, b => by cases b <;> simp [beq]
  | .num x, b => by cases b <;> simp [beq]
  | .str x, b => by cases b <;> simp [beq]
  | .arr x, b => by cases b <;> simp [beq,beqItems_iff x]
  | .obj x, b => by cases b <;> simp [beq,beqFields_iff x]
private theorem beqItems_iff : (a b : List Json) → (beqItems a b = true ↔ a = b)
  | [], b => by cases b <;> simp [beqItems]
  | a :: as, b => by cases b <;> simp [beqItems,beq_iff a,beqItems_iff as]
private theorem beqFields_iff : (a b : List (String × Json)) → (beqFields a b = true ↔ a = b)
  | [], b => by cases b <;> simp [beqFields]
  | (k,a) :: as, b => by
    cases b with
    | nil => simp [beqFields]
    | cons entry bs => obtain ⟨l,b⟩ := entry; simp [beqFields,beq_iff a,beqFields_iff as,and_assoc]
end

instance : DecidableEq Json := fun a b => decidable_of_iff _ (beq_iff a b)

mutual
/-- How deeply objects and arrays nest. -/
def depth : Json → Nat
  | .arr items => depthItems items + 1
  | .obj fields => depthFields fields + 1
  | _ => 0
def depthItems : List Json → Nat
  | [] => 0
  | item :: items => max (depth item) (depthItems items)
def depthFields : List (String × Json) → Nat
  | [] => 0
  | (_,value) :: fields => max (depth value) (depthFields fields)
end

theorem depth_field {fields : Record} {k : String} {value : Json} (found : fields.find k = some value) :
    depth value < depth (.obj fields) := by
  have bound : depth value ≤ depthFields fields := by
    induction fields with
    | nil => simp at found
    | cons entry fields ih =>
      obtain ⟨k',value'⟩ := entry
      rw [OrderedMap.find_cons] at found
      simp only [depthFields]
      split at found
      · cases found; exact le_max_left _ _
      · exact le_trans (ih found) (le_max_right _ _)
  simp only [depth]; omega

def asText : Json → Option String
  | .str value => some value
  | _ => none

def asNumber : Json → Option ℚ
  | .num value => some value
  | _ => none

def asRecord : Json → Option Record
  | .obj fields => some fields
  | _ => none

def asItems : Json → Option (List Json)
  | .arr items => some items
  | _ => none

end Json

namespace Record

def text (row : Record) (k : String) : Option String := (row.find k).bind Json.asText

def number (row : Record) (k : String) : Option ℚ := (row.find k).bind Json.asNumber

def record (row : Record) (k : String) : Option Record := (row.find k).bind Json.asRecord

def records (row : Record) (k : String) : Option (List Record) :=
  ((row.find k).bind Json.asItems).map (List.filterMap Json.asRecord)

end Record

end CodexMultiAuth
