import GhidraBridge.Lib.Table

/-! A directory of plain files, where a name leads to a file by its number. A file that is
open is written by its number, and lives on when its name is removed. -/
namespace Lib

/-- The numbers from `next` on are still to be given. -/
structure Files (N : Type u) (A : Type v) where
  names : Table N Nat := ∅
  contents : Table Nat (List A) := ∅
  next : Nat := 0

namespace Files
variable {N : Type u} {A : Type v} [DecidableEq N]

/-- What a reader of the name finds. -/
def read (files : Files N A) (name : N) : Option (List A) :=
  (files.names.lookup name).bind files.contents.lookup

/-- Opens a file for writing: one of that name is emptied, else there is a new one. -/
def create (files : Files N A) (name : N) : Nat × Files N A :=
  match files.names.lookup name with
  | some file => (file, { files with contents := files.contents.set file [] })
  | none =>
    (files.next,
      { names := files.names.set name files.next
        contents := files.contents.set files.next []
        next := files.next + 1 })

/-- Writes from the start of an open file, over what it holds there. -/
def write (files : Files N A) (file : Nat) (bytes : List A) : Files N A :=
  let old := (files.contents.lookup file).getD []
  { files with contents := files.contents.set file (bytes ++ old.drop bytes.length) }

def remove (files : Files N A) (name : N) : Files N A := { files with names := files.names.erase name }

/-- Names lead to files of their own. -/
structure Wf (files : Files N A) : Prop where
  apart : ∀ {name other file}, files.names.lookup name = some file → files.names.lookup other = some file → name = other
  given : ∀ {name file}, files.names.lookup name = some file → file < files.next

/-- The name leads to the file, which holds the bytes. -/
def Holds (files : Files N A) (name : N) (file : Nat) (bytes : List A) : Prop :=
  files.names.lookup name = some file ∧ files.contents.lookup file = some bytes

variable {files : Files N A} {name other : N} {file : Nat} {bytes : List A}

theorem Holds.read (holds : files.Holds name file bytes) : files.read name = some bytes := by
  rw [Files.read, holds.1]
  exact holds.2

theorem wf_empty : ({} : Files N A).Wf where
  apart := by rintro name other file ⟨⟩
  given := by rintro name file ⟨⟩

theorem wf_create (wf : files.Wf) (name : N) : (files.create name).2.Wf := by
  cases known : files.names.lookup name with
  | some file =>
    rw [create, known]
    exact ⟨wf.apart, wf.given⟩
  | none =>
    rw [create, known]
    refine ⟨fun {first second file} one two => ?_, fun {probe file} here => ?_⟩
    · rw [Table.lookup_set] at one two
      split at one <;> split at two
      · simp_all
      · cases one
        exact absurd (wf.given two) (Nat.lt_irrefl _)
      · cases two
        exact absurd (wf.given one) (Nat.lt_irrefl _)
      · exact wf.apart one two
    · rw [Table.lookup_set] at here
      split at here
      · cases here
        exact Nat.lt_succ_self _
      · exact Nat.lt_succ_of_lt (wf.given here)

theorem wf_write (wf : files.Wf) (file : Nat) (bytes : List A) : (files.write file bytes).Wf := ⟨wf.apart, wf.given⟩

theorem wf_remove (wf : files.Wf) (name : N) : (files.remove name).Wf where
  apart one two := wf.apart (Table.of_lookup_erase one).2 (Table.of_lookup_erase two).2
  given here := wf.given (Table.of_lookup_erase here).2

/-- A file that was just opened is empty. -/
theorem holds_create (files : Files N A) (name : N) :
    (files.create name).2.Holds name (files.create name).1 [] := by
  cases known : files.names.lookup name with
  | some file =>
    rw [create, known]
    exact ⟨known, by rw [Table.lookup_set, if_pos rfl]⟩
  | none =>
    rw [create, known]
    exact ⟨by rw [Table.lookup_set, if_pos rfl], by rw [Table.lookup_set, if_pos rfl]⟩

/-- Opening one name leaves the files of the others alone. -/
theorem Holds.create (wf : files.Wf) (holds : files.Holds name file bytes) (apart : name ≠ other) :
    (files.create other).2.Holds name file bytes := by
  obtain ⟨leads, held⟩ := holds
  cases known : files.names.lookup other with
  | some opened =>
    have different : file ≠ opened := by
      rintro rfl
      exact apart (wf.apart leads known)
    rw [Files.create, known]
    exact ⟨leads, by rw [Table.lookup_set, if_neg different, held]⟩
  | none =>
    have different : file ≠ files.next := Nat.ne_of_lt (wf.given leads)
    rw [Files.create, known]
    exact ⟨by rw [Table.lookup_set, if_neg apart, leads], by rw [Table.lookup_set, if_neg different, held]⟩

/-- A file that was just opened holds what is written. -/
theorem Holds.write (holds : files.Holds name file []) (bytes : List A) :
    (files.write file bytes).Holds name file bytes := by
  refine ⟨holds.1, ?_⟩
  rw [Files.write, holds.2, Table.lookup_set, if_pos rfl]
  simp

/-- Writing to the file of one name leaves the files of the others alone. -/
theorem Holds.write_other {opened : Nat} {old : List A} (wf : files.Wf) (holds : files.Holds name file bytes)
    (leads : files.Holds other opened old) (apart : name ≠ other) (written : List A) :
    (files.write opened written).Holds name file bytes := by
  have different : file ≠ opened := by
    rintro rfl
    exact apart (wf.apart holds.1 leads.1)
  exact ⟨holds.1, by rw [Files.write, Table.lookup_set, if_neg different, holds.2]⟩

theorem Holds.remove (holds : files.Holds name file bytes) (apart : name ≠ other) :
    (files.remove other).Holds name file bytes :=
  ⟨by rw [Files.remove, Table.lookup_erase_eq, if_neg apart, holds.1], holds.2⟩

end Files
end Lib
