import GhidraBridge.DataTypeNames

/-! Type names that are more than a base: pointers, arrays and templates. The server looks
for the whole name, has it parsed, and in the last resort looks for the base alone, so a
pointer to a stored type that does not parse comes out as the type itself. -/
namespace GhidraBridge.CompoundTypes
open Lib Lib.Scan ProgramApplier

/-- A base with template arguments, suffixes or both behind it. The base is any text that
has something to it besides blanks and delimiters: `char const` and `struct Foo` are bases. -/
structure CompoundName where
  base : List Char
  named : ∃ c ∈ base, 32 < c.toNat ∧ isDelimiter c = false
  arguments : Option (List Char)
  suffixes : List (Gap × Suffix)
  compound : arguments ≠ none ∨ suffixes ≠ []

def angled : Option (List Char) → List Char
  | none => []
  | some arguments => '<' :: arguments ++ ['>']

namespace CompoundName
variable (lib : TypeLibrary) (name : CompoundName)

/-- What stands behind the base. -/
def tail : List Char := angled name.arguments ++ spacedText name.suffixes

def text : List Char := name.base ++ name.tail

/-- The base as the server looks for it. -/
def normalized : List Char := normalizePrimitives lib (name.base.dropWhile fun c => c.toNat ≤ 32)

def baseName : String := String.ofList (name.normalized lib)

/-- What is in front of the first delimiter. -/
def headName : String := String.ofList ((name.normalized lib).takeWhile fun c => !isDelimiter c)

def wholeName : String := String.ofList (name.normalized lib ++ name.tail)

theorem tail_ne_nil : name.tail ≠ [] := by
  unfold tail
  rcases name.compound with templated | suffixed
  · obtain ⟨arguments, given⟩ := Option.ne_none_iff_exists'.mp templated
    simp [given, angled]
  · obtain ⟨first, rest, shape⟩ := List.exists_cons_of_ne_nil suffixed
    have written : first.2.text ≠ [] := by cases first.2 <;> simp [Suffix.text, bracketed]
    simp [shape, spacedText, written]

theorem behind_tail : Behind name.tail := by
  unfold tail
  cases name.arguments with
  | none => exact behind_spacedText name.suffixes
  | some arguments => exact .inr ⟨'<', _, rfl, rfl⟩

/-- A compound name ends in a star or a bracket. -/
theorem tail_ends (front : List Char) : ∃ last ∈ (front ++ name.tail).getLast?, 32 < last.toNat := by
  rcases List.eq_nil_or_concat name.suffixes with none | ⟨before, last, shape⟩
  · obtain ⟨arguments, given⟩ := Option.ne_none_iff_exists'.mp (name.compound.resolve_right (not_not_intro none))
    refine ⟨'>', ?_, by decide⟩
    have whole : front ++ name.tail = front ++ '<' :: arguments ++ ['>'] := by
      simp [tail, none, given, angled, spacedText]
    rw [whole, List.getLast?_concat]
    rfl
  · obtain ⟨final, ends, solid⟩ := suffix_ends last.2
    refine ⟨final, ?_, solid⟩
    simp only [tail, shape, spacedText, List.concat_eq_append, List.flatMap_append, List.flatMap_cons,
      List.flatMap_nil, List.append_nil, ← List.append_assoc]
    rw [List.getLast?_append, ends]
    rfl

/-- The blanks in front of the base are not all of it. -/
theorem dropWhile_named : ∃ c ∈ name.base.dropWhile fun c => c.toNat ≤ 32, isDelimiter c = false := by
  obtain ⟨c, there, solid, plain⟩ := name.named
  rw [← List.takeWhile_append_dropWhile (p := fun c => decide (c.toNat ≤ 32)) (l := name.base)] at there
  refine ⟨c, (List.mem_append.mp there).resolve_left fun blank => ?_, plain⟩
  have low := List.mem_takeWhile_imp blank
  rw [decide_eq_true_eq] at low
  omega

/-- `trim` takes the blanks in front of the base and nothing else. -/
theorem trim_text :
    ProgramApplier.trim name.text = (name.base.dropWhile fun c => c.toNat ≤ 32) ++ name.tail := by
  obtain ⟨c, kept, -⟩ := name.dropWhile_named
  have front : name.text.dropWhile (fun c => decide (c.toNat ≤ 32)) =
      (name.base.dropWhile fun c => decide (c.toNat ≤ 32)) ++ name.tail := by
    rw [text, List.dropWhile_append, if_neg (by simpa using List.ne_nil_of_mem kept)]
  obtain ⟨last, ends, solidEnd⟩ := name.tail_ends (name.base.dropWhile fun c => decide (c.toNat ≤ 32))
  have back : ((name.base.dropWhile fun c => decide (c.toNat ≤ 32)) ++ name.tail).reverse.dropWhile
        (fun c => decide (c.toNat ≤ 32)) =
      ((name.base.dropWhile fun c => decide (c.toNat ≤ 32)) ++ name.tail).reverse := by
    rw [← List.head?_reverse] at ends
    cases backwards : ((name.base.dropWhile fun c => decide (c.toNat ≤ 32)) ++ name.tail).reverse with
    | nil => rfl
    | cons x rest =>
      rw [backwards] at ends
      cases ends
      rw [List.dropWhile_cons_of_neg (by simpa using solidEnd)]
  rw [ProgramApplier.trim, front, back, List.reverse_reverse]

/-- Something of the base is no delimiter, whatever the server makes of it. -/
theorem normalized_named : ∃ c ∈ name.normalized lib, isDelimiter c = false := by
  have table : ∀ entry ∈ stdintToGhidra, ∃ c ∈ entry.2.toList, isDelimiter c = false := by
    simp [stdintToGhidra, isDelimiter]
  obtain ⟨c, kept, plain⟩ := name.dropWhile_named
  unfold normalized normalizePrimitives
  dsimp only
  split
  · rename_i mapped found
    obtain ⟨before, after, shape, _⟩ := List.lookup_eq_some_iff.mp found
    obtain ⟨c, there, plain⟩ := table _ (shape ▸ List.mem_append_right before List.mem_cons_self)
    exact ⟨c, List.mem_append_left _ there, plain⟩
  · exact ⟨c, kept, plain⟩

theorem splitHead_whole :
    ProgramApplier.splitHead (name.normalized lib ++ name.tail) =
      some ((name.normalized lib).takeWhile fun c => !isDelimiter c) := by
  obtain ⟨c, there, plain⟩ := name.normalized_named lib
  have mixed : ¬(name.normalized lib ++ name.tail ≠ [] ∧
      (name.normalized lib ++ name.tail).all isDelimiter = true) := by
    rintro ⟨-, all⟩
    have delimiter := List.all_eq_true.mp all c (List.mem_append_left _ there)
    rw [plain] at delimiter
    cases delimiter
  have stops : name.tail = [] ∨ ∃ first rest, name.tail = first :: rest ∧ (!isDelimiter first) = false := by
    rcases name.behind_tail with empty | ⟨first, rest, shape, opening⟩
    · exact .inl empty
    · exact .inr ⟨first, rest, shape, by simp [opening]⟩
  rw [ProgramApplier.splitHead, if_neg mixed, (takeWhile_append_stop _ stops).1]

/-- What is in front of the tail is not the whole name. -/
theorem ne_whole {front : List Char} (part : front <+: name.normalized lib) :
    front ≠ name.normalized lib ++ name.tail := by
  intro same
  have longer := part.length_le
  have some' := List.length_pos_of_ne_nil name.tail_ne_nil
  rw [same, List.length_append] at longer
  omega

end CompoundName

/-- What the development takes from Ghidra here: delimiters are no letters or digits, and
what the parser finds for a compound name is not the type of its base or of the front of the
base. It need not find anything. -/
structure ParsesCompounds (lib : TypeLibrary) : Prop where
  delimiter : ∀ c, isDelimiter c = true → lib.isLetterOrDigit c = false
  whole : ∀ (manager : DataTypeManager) (name : CompoundName) (category : String),
    lib.parse manager (name.wholeName lib) ≠ some (.stored category (name.baseName lib)) ∧
      lib.parse manager (name.wholeName lib) ≠ some (.stored category (name.headName lib))

/-- The name resolves to nothing, to the type stored under the whole name or to what the
parser finds for it, and not to the type of the base or of the front of the base. -/
def KeepsCompound (lib : TypeLibrary) (manager : DataTypeManager) (name : CompoundName) : Prop :=
  ∃ result, resolveDataType lib manager (String.ofList name.text) = some result ∧
    (result = none ∨ result = some (.stored rootCategory (name.wholeName lib)) ∨
      result = lib.parse manager (name.wholeName lib)) ∧
    ∀ category, result ≠ some (.stored category (name.baseName lib)) ∧
      result ≠ some (.stored category (name.headName lib))

section
variable {lib : TypeLibrary} {manager : DataTypeManager} {name : CompoundName}

/-- The three lookups in turn. -/
theorem resolveDataType_compound (law : ParsesCompounds lib) (manager : DataTypeManager) (name : CompoundName) :
    resolveDataType lib manager (String.ofList name.text) =
      some (((storedRef manager (name.wholeName lib)).or (lib.parse manager (name.wholeName lib))).or
        (storedRef manager (name.headName lib))) := by
  have nonempty : String.ofList name.text ≠ "" := by
    intro empty
    have none : name.text = [] := by simpa using congrArg String.toList empty
    exact name.tail_ne_nil (List.append_eq_nil_iff.mp none).2
  have trimmed : normalizePrimitives lib (ProgramApplier.trim name.text) = name.normalized lib ++ name.tail := by
    rw [name.trim_text, normalizePrimitives_behind law.delimiter _ name.behind_tail]
    rfl
  have longer := name.ne_whole lib (List.takeWhile_prefix fun c => !isDelimiter c)
  rw [resolveDataType, if_neg nonempty, String.toList_ofList, trimmed, CompoundName.wholeName, CompoundName.headName]
  dsimp only
  cases storedRef manager (String.ofList (name.normalized lib ++ name.tail)) with
  | some found => rfl
  | none =>
    cases lib.parse manager (String.ofList (name.normalized lib ++ name.tail)) with
    | some parsed => rfl
    | none => simp only [name.splitHead_whole lib, Option.map_some, if_neg longer, Option.none_or]

private theorem wholeName_ne {front : List Char} (part : front <+: name.normalized lib) :
    name.wholeName lib ≠ String.ofList front := by
  intro same
  have texts := congrArg String.toList same
  simp only [CompoundName.wholeName, String.toList_ofList] at texts
  exact name.ne_whole lib part texts.symm

private theorem storedRef_cases (manager : DataTypeManager) (text : String) :
    (manager.getDataType text = none ∧ storedRef manager text = none) ∨
      ((manager.getDataType text).isSome = true ∧ storedRef manager text = some (.stored rootCategory text)) := by
  rw [storedRef]
  cases manager.getDataType text with
  | none => exact .inl ⟨rfl, rfl⟩
  | some found => exact .inr ⟨rfl, rfl⟩

/-- A compound name does not degrade exactly when the whole name is stored or parses, or
there is no type of the front of the base to degrade to; else it comes out as that type. -/
theorem compound_kept_iff (law : ParsesCompounds lib) :
    (KeepsCompound lib manager name ↔
      (manager.getDataType (name.wholeName lib)).isSome = true ∨
        (lib.parse manager (name.wholeName lib)).isSome = true ∨ manager.getDataType (name.headName lib) = none) ∧
      (¬KeepsCompound lib manager name →
        resolveDataType lib manager (String.ofList name.text) =
          some (some (.stored rootCategory (name.headName lib)))) := by
  rw [KeepsCompound, resolveDataType_compound law]
  rcases storedRef_cases manager (name.wholeName lib) with ⟨missing, noWhole⟩ | ⟨stored, whole⟩
  · rw [noWhole, Option.none_or, missing]
    cases parsed : lib.parse manager (name.wholeName lib) with
    | some type =>
      have kept : ∃ result, some (some type) = some result ∧
          (result = none ∨ result = some (.stored rootCategory (name.wholeName lib)) ∨ result = some type) ∧
          ∀ category, result ≠ some (.stored category (name.baseName lib)) ∧
            result ≠ some (.stored category (name.headName lib)) :=
        ⟨_, rfl, .inr (.inr rfl), fun category => parsed ▸ law.whole manager name category⟩
      rw [Option.some_or]
      exact ⟨⟨fun _ => .inr (.inl rfl), fun _ => kept⟩, fun degraded => absurd kept degraded⟩
    | none =>
      rw [Option.none_or]
      rcases storedRef_cases manager (name.headName lib) with ⟨absent, noHead⟩ | ⟨present, head⟩
      · rw [noHead, absent]
        have kept : ∃ result, some (none : Option DataTypeRef) = some result ∧
            (result = none ∨ result = some (.stored rootCategory (name.wholeName lib)) ∨ result = none) ∧
            ∀ category, result ≠ some (.stored category (name.baseName lib)) ∧
              result ≠ some (.stored category (name.headName lib)) :=
          ⟨none, rfl, .inl rfl, fun category => ⟨by rintro ⟨⟩, by rintro ⟨⟩⟩⟩
        exact ⟨⟨fun _ => .inr (.inr rfl), fun _ => kept⟩, fun degraded => absurd kept degraded⟩
      · rw [head]
        refine ⟨⟨?_, ?_⟩, fun _ => rfl⟩
        · rintro ⟨result, same, -, degraded⟩
          exact absurd (Option.some.inj same).symm (degraded rootCategory).2
        · rintro (none | none | absent)
          · cases none
          · cases none
          · rw [absent] at present
            cases present
  · rw [whole, Option.some_or]
    have kept : ∃ result, some (some (DataTypeRef.stored rootCategory (name.wholeName lib))) = some result ∧
        (result = none ∨ result = some (.stored rootCategory (name.wholeName lib)) ∨
          result = lib.parse manager (name.wholeName lib)) ∧
        ∀ category, result ≠ some (.stored category (name.baseName lib)) ∧
          result ≠ some (.stored category (name.headName lib)) := by
      refine ⟨_, rfl, .inr (.inl rfl), fun category => ⟨fun same => ?_, fun same => ?_⟩⟩
      · injection same with same
        injection same with _ names
        exact wholeName_ne List.prefix_rfl names
      · injection same with same
        injection same with _ names
        exact wholeName_ne (List.takeWhile_prefix _) names
    exact ⟨⟨fun _ => .inl stored, fun _ => kept⟩, fun degraded => absurd kept degraded⟩

end

/-! ## A template -/

/-- A parser that finds no compound type. -/
def failingParser : TypeLibrary := { TypeAnnotations.plainLibrary with parse := fun _ _ => none }

theorem failingParser_parses : ParsesCompounds failingParser where
  delimiter := namedLibrary_parses.delimiter
  whole _ _ _ := ⟨by rintro ⟨⟩, by rintro ⟨⟩⟩

/-- `vec<int>`. -/
def vectorOfInt : CompoundName :=
  ⟨"vec".toList, ⟨'v', by simp, by decide, by decide⟩, some "int".toList, [], .inl (Option.some_ne_none _)⟩

/-- A program with a structure `vec`. -/
def vectorProgram : DataTypeManager := Table.set ∅ (rootCategory, "vec") ⟨1, "", .composite false {}⟩

theorem vector_unresolved_without_base :
    ParsesCompounds failingParser ∧ KeepsCompound failingParser ∅ vectorOfInt :=
  ⟨failingParser_parses, (compound_kept_iff failingParser_parses).1.mpr (.inr (.inr rfl))⟩

/-- The template comes out as the structure that has its name. -/
theorem vector_degrades_to_base :
    resolveDataType failingParser vectorProgram "vec<int>" = some (some (.stored "/" "vec")) ∧
      vectorOfInt.text = "vec<int>".toList ∧ vectorOfInt.base = "vec".toList ∧
      ¬KeepsCompound failingParser vectorProgram vectorOfInt := by
  have degraded : resolveDataType failingParser vectorProgram "vec<int>" = some (some (.stored "/" "vec")) := by
    decide +kernel
  refine ⟨degraded, rfl, rfl, ?_⟩
  rintro ⟨result, ran, -, kept⟩
  have same : some (some (DataTypeRef.stored "/" "vec")) = some result := by
    rw [← degraded, ← ran]
    rfl
  refine (kept "/").2 ?_
  rw [← Option.some.inj same]
  rfl

end GhidraBridge.CompoundTypes
