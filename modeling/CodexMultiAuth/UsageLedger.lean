import Mathlib.Algebra.Order.Ring.Nat
import Mathlib.Data.List.Induction
import CodexMultiAuth.OrderedMap

/-!
The usage ledger and its archives. A rotation renames the ledger to an archive that is named
by the clock, and a rename replaces what is there under that name: rows are lost where an
archive with rows has the name already, and nowhere else.
-/
namespace CodexMultiAuth.UsageLedger

open List

def padded (width : ℕ) (n : ℤ) : List Char := (List.replicate (width - (toString n).length) '0') ++ (toString n).toList

def civil (day : ℤ) : ℤ × ℤ × ℤ :=
  let z := day + 719468
  let era := z / 146097
  let doe := z - era * 146097
  let yoe := (doe - doe / 1460 + doe / 36524 - doe / 146096) / 365
  let doy := doe - (365 * yoe + yoe / 4 - yoe / 100)
  let mp := (5 * doy + 2) / 153
  let month := if mp < 10 then mp + 3 else mp - 9
  (yoe + era * 400 + (if month ≤ 2 then 1 else 0),month,doy - (153 * mp + 2) / 5 + 1)

def yearText (year : ℤ) : List Char :=
  if year < 0 then '-' :: padded 6 (-year) else if 9999 < year then '+' :: padded 6 year else padded 4 year

/-- The text of a time in milliseconds since 1970. -/
def toISOString (now : ℤ) : List Char :=
  let (year,month,day) := civil (now / 86400000)
  let rest := now % 86400000
  yearText year ++ '-' :: padded 2 month ++ '-' :: padded 2 day ++ 'T' :: padded 2 (rest / 3600000) ++
    ':' :: padded 2 (rest / 60000 % 60) ++ ':' :: padded 2 (rest / 1000 % 60) ++ '.' :: padded 3 (rest % 1000) ++ ['Z']

def stamp (now : ℤ) : List Char := ((toISOString now).filter fun c => !(['-',':'].contains c)).erase '.'

def archivePath (now : ℤ) : String := "usage-ledger." ++ String.ofList (stamp now) ++ ".jsonl"

/-- The files by their rows. A row ends with its line feed. -/
structure Directory where
  current : Option (List String)
  archives : OrderedMap String (List String)

def size (rows : List String) : ℕ := (rows.map String.utf8ByteSize).sum

def Directory.append (directory : Directory) (row : String) : Directory := { directory with current := some (directory.current.getD [] ++ [row]) }

def rotates (directory : Directory) (ifLargerThanBytes : Option ℕ) : Option (List String) :=
  directory.current.filter fun rows => ifLargerThanBytes.all fun limit => limit < size rows

def rotateUsageLedger (directory : Directory) (now : ℤ) (ifLargerThanBytes : Option ℕ) : Directory × Option String :=
  match rotates directory ifLargerThanBytes with
  | none => (directory,none)
  | some rows => (⟨none,directory.archives.put (archivePath now) rows⟩,some (archivePath now))

inductive Step where
  | append (row : String)
  | rotate (now : ℤ) (ifLargerThanBytes : Option ℕ)
  deriving DecidableEq

def step (directory : Directory) : Step → Directory
  | .append row => directory.append row
  | .rotate now ifLargerThanBytes => (rotateUsageLedger directory now ifLargerThanBytes).1

def run (directory : Directory) (steps : List Step) : Directory := steps.foldl step directory

/-- How often a row stands in the ledger and in all archives. -/
def Directory.copies (directory : Directory) (row : String) : ℕ :=
  (directory.current.getD []).count row + (directory.archives.map fun archive => archive.2.count row).sum

def appended : List Step → List String
  | [] => []
  | .append row :: steps => row :: appended steps
  | .rotate _ _ :: steps => appended steps

def replaced (directory : Directory) : Step → List String
  | .append _ => []
  | .rotate now ifLargerThanBytes => if (rotates directory ifLargerThanBytes).isSome then (directory.archives.find (archivePath now)).getD [] else []

/-- A step that finds no rows under the name of its archive. -/
def Fresh (directory : Directory) (step : Step) : Prop := replaced directory step = []

theorem sum_put (archives : OrderedMap String (List String)) (name row : String) (rows : List String) :
    ((archives.put name rows).map fun archive => archive.2.count row).sum + ((archives.find name).getD []).count row =
      (archives.map fun archive => archive.2.count row).sum + rows.count row := by
  induction archives with
  | nil => simp [OrderedMap.put]
  | cons archive archives ih =>
    obtain ⟨other,old⟩ := archive
    rw [OrderedMap.find_cons,OrderedMap.put]
    by_cases same : other = name
    · rw [if_pos same,if_pos same]
      simp only [map_cons,sum_cons,Option.getD_some]
      omega
    · rw [if_neg same,if_neg same]
      simp only [map_cons,sum_cons]
      omega

theorem step_copies (directory : Directory) (one : Step) (row : String) :
    (step directory one).copies row + (replaced directory one).count row = directory.copies row + (appended [one]).count row := by
  cases one with
  | append new => simp [step,Directory.append,Directory.copies,replaced,appended,count_append]; omega
  | rotate now ifLargerThanBytes =>
    rw [step,rotateUsageLedger,replaced,appended,appended]
    cases large : rotates directory ifLargerThanBytes with
    | none => simp
    | some rows =>
      have whole : directory.current = some rows := (Option.filter_eq_some_iff.mp large).1
      have moved := sum_put directory.archives (archivePath now) row rows
      simp [Directory.copies,whole] at moved ⊢
      omega

/-- Nothing of what was ever appended is lost, and nothing is kept twice. -/
def Kept (directory : Directory) (steps : List Step) : Prop :=
  ∀ row, (run directory steps).copies row = directory.copies row + (appended steps).count row

theorem appended_append (before after : List Step) : appended (before ++ after) = appended before ++ appended after := by
  induction before with
  | nil => rfl
  | cons one before ih =>
    cases one with
    | append row => rw [cons_append,appended,appended,ih,cons_append]
    | rotate now ifLargerThanBytes => rw [cons_append,appended,appended,ih]

theorem copies_le (directory : Directory) (steps : List Step) (row : String) :
    (run directory steps).copies row ≤ directory.copies row + (appended steps).count row := by
  induction steps using List.reverseRecOn with
  | nil => exact le_refl _
  | append_singleton before one ih =>
    have last := step_copies (run directory before) one row
    rw [run,foldl_append,appended_append,count_append]
    rw [run] at last ih
    exact (Nat.le_of_add_right_le last.le).trans (by omega)

theorem kept_last {directory : Directory} {before : List Step} {one : Step} :
    Kept directory (before ++ [one]) ↔ Kept directory before ∧ Fresh (run directory before) one := by
  have total (row : String) : (run directory (before ++ [one])).copies row + (replaced (run directory before) one).count row =
      (run directory before).copies row + (appended [one]).count row := by
    rw [run,foldl_append]
    exact step_copies (run directory before) one row
  constructor
  · intro kept
    have both (row : String) : (run directory before).copies row = directory.copies row + (appended before).count row ∧
        (replaced (run directory before) one).count row = 0 := by
      have all_ := kept row
      have few := copies_le directory before row
      have last := total row
      rw [appended_append,count_append] at all_
      omega
    exact ⟨fun row => (both row).1,eq_nil_iff_forall_not_mem.mpr fun row member => (count_pos_iff.mpr member).ne' (both row).2⟩
  · rintro ⟨kept,fresh⟩ row
    have last := total row
    have before_ := kept row
    rw [fresh,count_nil] at last
    rw [appended_append,count_append]
    omega

/-- No row is lost exactly where no rotation finds rows under the name of its archive. -/
theorem kept_iff_fresh (directory : Directory) (steps : List Step) :
    Kept directory steps ↔ ∀ before one after, steps = before ++ one :: after → Fresh (run directory before) one := by
  induction steps using List.reverseRecOn with
  | nil => exact ⟨fun _ before one after same => absurd same.symm (by simp),fun _ row => rfl⟩
  | append_singleton earlier last ih =>
    rw [kept_last,ih]
    constructor
    · rintro ⟨all_,fresh⟩ before one after same
      rcases eq_nil_or_concat after with rfl | ⟨init,final,rfl⟩
      · obtain ⟨rfl,equal⟩ := append_inj' same rfl
        obtain rfl := (List.cons.inj equal).1
        exact fresh
      · rw [concat_eq_append,← cons_append,← append_assoc] at same
        exact all_ before one init (append_inj' same rfl).1
    · intro all_
      refine ⟨fun before one after same => all_ before one (after ++ [last]) ?_,all_ earlier last [] rfl⟩
      rw [same,append_assoc,cons_append]

/-- Two rotations in one millisecond. -/
theorem second_rotation_replaces_archive : ¬ ∀ (directory : Directory) (steps : List Step),Kept directory steps := by
  intro kept
  have one := kept ⟨none,[]⟩ [.append "a",.rotate 0 none,.append "b",.rotate 0 none] "a"
  have lost : (run ⟨none,[]⟩ [.append "a",.rotate 0 none,.append "b",.rotate 0 none]).copies "a" = 0 := by
    simp [run,step,rotateUsageLedger,rotates,Directory.append,Directory.copies,OrderedMap.put,Option.filter]
  rw [lost] at one
  exact absurd one (by decide)

end CodexMultiAuth.UsageLedger
