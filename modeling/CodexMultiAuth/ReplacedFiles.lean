import Mathlib.Tactic.Common

/-!
Files that are replaced as wholes. A file is dated by the time of its replacement,
rounded down to a multiple of a granularity. Times are in nanoseconds.

A call looks at the files more than once, and others may replace them between its
looks.
-/
namespace CodexMultiAuth.ReplacedFiles

structure Version (Bytes : Type) where
  bytes : Bytes
  mtime : ℕ
  deriving DecidableEq

structure World (Path Bytes : Type) where
  clock : ℕ
  files : Path → Option (Version Bytes)

inductive Change (Path Bytes : Type) where
  | wait (duration : ℕ)
  | replace (path : Path) (bytes : Bytes)

def roundDown (granularity time : ℕ) : ℕ := time / granularity * granularity

variable {Path Bytes : Type} [DecidableEq Path] {granularity : ℕ}

namespace World

variable (granularity) in
def change (w : World Path Bytes) : Change Path Bytes → World Path Bytes
  | .wait duration => { w with clock := w.clock + duration }
  | .replace path bytes => { w with files := Function.update w.files path (some ⟨bytes,roundDown granularity w.clock⟩) }

variable (granularity) in
def changes (w : World Path Bytes) (cs : List (Change Path Bytes)) : World Path Bytes := cs.foldl (change granularity) w

variable (granularity) in
/-- The files as a call finds them at one of its looks, where the races are the
    changes before each. -/
def during (w : World Path Bytes) (races : List (List (Change Path Bytes))) (look : ℕ) : World Path Bytes :=
  w.changes granularity (races.take (look + 1)).flatten

def bytes (w : World Path Bytes) (path : Path) : Option Bytes := (w.files path).map Version.bytes

variable (w : World Path Bytes)

theorem changes_append (cs more : List (Change Path Bytes)) :
    w.changes granularity (cs ++ more) = (w.changes granularity cs).changes granularity more := List.foldl_append

@[simp] theorem changes_nil : w.changes granularity [] = w := rfl

@[simp] theorem during_nil (look : ℕ) : w.during granularity [] look = w := by simp [during]

theorem replaced_files (path other : Path) (bytes : Bytes) :
    (w.change granularity (.replace other bytes)).files path =
      if path = other then some ⟨bytes,roundDown granularity w.clock⟩ else w.files path := by
  by_cases same : path = other
  · rw [if_pos same,same]
    exact Function.update_self _ _ _
  · rw [if_neg same]
    exact Function.update_of_ne same _ _

theorem during_later (races : List (List (Change Path Bytes))) {look later : ℕ} (after : look ≤ later) :
    ∃ cs, w.during granularity races later = (w.during granularity races look).changes granularity cs := by
  obtain ⟨more,rfl⟩ := Nat.exists_eq_add_of_le after
  refine ⟨((races.drop (look + 1)).take more).flatten,?_⟩
  rw [during,during,← changes_append,← List.flatten_append,show look + more + 1 = look + 1 + more by omega,List.take_add]

variable {w : World Path Bytes}

theorem present_changes {path : Path} (present : (w.files path).isSome) (cs : List (Change Path Bytes)) :
    ((w.changes granularity cs).files path).isSome := by
  induction cs generalizing w with
  | nil => exact present
  | cons c rest ih =>
    apply ih
    cases c with
    | wait duration => exact present
    | replace other bytes =>
      by_cases same : path = other
      · rw [replaced_files,if_pos same]
        rfl
      · rw [replaced_files,if_neg same]
        exact present

theorem present_during {path : Path} {races : List (List (Change Path Bytes))} {look later : ℕ} (after : look ≤ later)
    (present : ((w.during granularity races look).files path).isSome) : ((w.during granularity races later).files path).isSome := by
  obtain ⟨cs,same⟩ : ∃ cs, w.during granularity races later = (w.during granularity races look).changes granularity cs := during_later w races after
  rw [same]
  exact present_changes present cs

theorem contents_changes {P : Bytes → Prop} (holds : ∀ path version, w.files path = some version → P version.bytes)
    {cs : List (Change Path Bytes)} (kept : ∀ path bytes, Change.replace path bytes ∈ cs → P bytes) :
    ∀ path version, (w.changes granularity cs).files path = some version → P version.bytes := by
  induction cs generalizing w with
  | nil => exact holds
  | cons c rest ih =>
    apply ih (w := w.change granularity c)
    · intro path version found
      cases c with
      | wait duration => exact holds path version found
      | replace other bytes =>
        by_cases same : path = other
        · rw [replaced_files,if_pos same] at found
          cases found
          exact kept other bytes (by simp)
        · rw [replaced_files,if_neg same] at found
          exact holds path version found
    · intro path bytes member
      exact kept path bytes (List.mem_cons_of_mem _ member)

end World

end CodexMultiAuth.ReplacedFiles
