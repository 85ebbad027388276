import GhidraBridge.TypeAnnotations
import GhidraBridge.TypeSpelling

/-! The type names a check-in sends, as the server reads them: a base name with
stars and array counts behind it. `DataTypeParser` is Ghidra's own; what is
asked of it is that it knows the built-in types and the types of the program by
their names, whatever blanks stand between a base and its suffixes. -/
namespace GhidraBridge
open Lib Lib.Scan ProgramApplier

/-! ## Names with suffixes -/

/-- The words of C a type name may start with. -/
inductive Qualifier where
  | struct | union | enum | const
  deriving DecidableEq

def Qualifier.word : Qualifier → List Char
  | .struct => "struct".toList
  | .union => "union".toList
  | .enum => "enum".toList
  | .const => "const".toList

/-- A name without the characters a suffix is made of. Identifiers are such names,
and so are qualified ones. -/
structure BaseName where
  text : List Char
  nonempty : text ≠ []
  plain : ∀ c ∈ text, 32 < c.toNat ∧ c ≠ '*' ∧ c ≠ '[' ∧ c ≠ ']' ∧ c ≠ '<'
  noWord : ∀ qualifier : Qualifier, text ≠ qualifier.word

inductive Suffix where
  | star
  | bracket (count : Nat)
  deriving DecidableEq

def Suffix.text : Suffix → List Char
  | .star => ['*']
  | .bracket count => bracketed (decimalChars count)

def spacedText (suffixes : List (Gap × Suffix)) : List Char :=
  suffixes.flatMap fun spaced => spaced.1.text ++ spaced.2.text

def compactText (shape : List Suffix) : List Char := shape.flatMap Suffix.text

/-- A base name and its suffixes, each behind any blanks. -/
structure SuffixedName where
  base : BaseName
  suffixes : List (Gap × Suffix)

def SuffixedName.text (name : SuffixedName) : List Char := name.base.text ++ spacedText name.suffixes

/-- The suffixes alone. -/
def SuffixedName.shape (name : SuffixedName) : List Suffix := name.suffixes.map Prod.snd

/-! ## The parser -/

/-- A name is a built-in type, or the program has a type of that name in some
category. -/
def Known (builtIn : List Char → Prop) (manager : DataTypeManager) (name : List Char) : Prop :=
  builtIn name ∨ ∃ category, (manager.lookup (category, String.ofList name)).isSome

/-- What the development takes from Ghidra about names: `Character.isLetterOrDigit`
on the characters that matter, and a parser that finds a type by the name of its
base, among the built-in types and the types of that name in the program. -/
structure ParsesNames (lib : TypeLibrary) (builtIn : List Char → Prop)
    (refer : DataTypeManager → List Char → List Suffix → DataTypeRef) : Prop where
  letter : ∀ c : Char, c.isAlphanum = true → lib.isLetterOrDigit c = true
  delimiter : ∀ c, isDelimiter c = true → lib.isLetterOrDigit c = false
  known : ∀ (manager : DataTypeManager) (name : SuffixedName), Known builtIn manager name.base.text →
    lib.parse manager (String.ofList name.text) = some (refer manager name.base.text name.shape)
  unknown : ∀ (manager : DataTypeManager) (name : SuffixedName), ¬Known builtIn manager name.base.text →
    lib.parse manager (String.ofList name.text) = none
  byName : ∀ (first second : DataTypeManager) (name : List Char) (shape : List Suffix),
    (∀ category, (first.lookup (category, String.ofList name)).isSome =
      (second.lookup (category, String.ofList name)).isSome) →
    refer first name shape = refer second name shape

/-! ## Normalized bases -/

section Normalized
variable {lib : TypeLibrary} {builtIn : List Char → Prop}
  {refer : DataTypeManager → List Char → List Suffix → DataTypeRef}

/-- What a suffix with its blanks starts with. -/
def opensSuffix (c : Char) : Bool := isBlank c || c = '*' || c = '['

theorem delimiter_of_opensSuffix {c : Char} (opening : opensSuffix c = true) : isDelimiter c = true := by
  simp only [opensSuffix, isBlank, Bool.or_eq_true, decide_eq_true_eq] at opening
  rcases opening with ((rfl | rfl) | rfl) | rfl <;> rfl

theorem solid_of_code {c : Char} (code : 32 < c.toNat) : isBlank c = false := by
  simp only [isBlank, Bool.or_eq_false_iff, decide_eq_false_iff_not]
  constructor <;> (rintro rfl; exact absurd code (by decide))

theorem BaseName.opensNone (base : BaseName) : ∀ c ∈ base.text, opensSuffix c = false := by
  intro c member
  obtain ⟨code, star, opening, _⟩ := base.plain c member
  simp [opensSuffix, solid_of_code code, star, opening]

theorem spacedText_head (suffixes : List (Gap × Suffix)) :
    spacedText suffixes = [] ∨ ∃ first rest, spacedText suffixes = first :: rest ∧ opensSuffix first = true := by
  cases suffixes with
  | nil => exact .inl rfl
  | cons spaced later =>
    right
    obtain ⟨⟨blanks, blank⟩, suffix⟩ := spaced
    cases blanks with
    | nil => cases suffix <;> exact ⟨_, _, rfl, rfl⟩
    | cons c cs =>
      refine ⟨c, _, rfl, ?_⟩
      simp [opensSuffix, blank c List.mem_cons_self]

theorem takeWhile_append_stop {p : Char → Bool} (text : List Char) {behind : List Char}
    (stops : behind = [] ∨ ∃ first rest, behind = first :: rest ∧ p first = false) :
    (text ++ behind).takeWhile p = text.takeWhile p ∧ (text ++ behind).dropWhile p = text.dropWhile p ++ behind := by
  induction text with
  | nil =>
    rcases stops with rfl | ⟨first, rest, rfl, stop⟩
    · simp
    · simp [stop]
  | cons c cs ih =>
    by_cases here : p c = true
    · simp [here, ih]
    · simp [here]

/-- What may stand behind a base: nothing, or what starts with a delimiter. -/
def Behind (tail : List Char) : Prop := tail = [] ∨ ∃ first rest, tail = first :: rest ∧ isDelimiter first = true

theorem behind_spacedText (suffixes : List (Gap × Suffix)) : Behind (spacedText suffixes) := by
  rcases spacedText_head suffixes with empty | ⟨first, rest, shape, opening⟩
  · exact .inl empty
  · exact .inr ⟨first, rest, shape, delimiter_of_opensSuffix opening⟩

/-- The mapping of a leading stdint name leaves what stands behind it alone. -/
theorem normalizePrimitives_behind (delimiter : ∀ c, isDelimiter c = true → lib.isLetterOrDigit c = false)
    (text : List Char) {tail : List Char} (behind : Behind tail) :
    normalizePrimitives lib (text ++ tail) = normalizePrimitives lib text ++ tail := by
  have stops : tail = [] ∨ ∃ first rest, tail = first :: rest ∧
      (lib.isLetterOrDigit first || decide (first = '_')) = false := by
    rcases behind with empty | ⟨first, rest, shape, opening⟩
    · exact .inl empty
    · refine .inr ⟨first, rest, shape, ?_⟩
      have underscore : first ≠ '_' := by
        rintro rfl
        exact absurd opening (by decide)
      simp [delimiter first opening, underscore]
  obtain ⟨front, back⟩ := takeWhile_append_stop text stops
  simp only [normalizePrimitives, front, back]
  cases stdintToGhidra.lookup
      (String.ofList (text.takeWhile fun c => lib.isLetterOrDigit c || decide (c = '_'))) with
  | none => rfl
  | some mapped => simp

/-- A base is mapped to a base. -/
theorem normalized_plain (lib : TypeLibrary) (base : BaseName) :
    normalizePrimitives lib base.text ≠ [] ∧
    (∀ c ∈ normalizePrimitives lib base.text, 32 < c.toNat ∧ c ≠ '*' ∧ c ≠ '[' ∧ c ≠ ']' ∧ c ≠ '<') ∧
    ∀ qualifier : Qualifier, normalizePrimitives lib base.text ≠ qualifier.word := by
  have table : ∀ entry ∈ stdintToGhidra, entry.2.toList ≠ [] ∧
      (∀ c ∈ entry.2.toList, 32 < c.toNat ∧ c ≠ '*' ∧ c ≠ '[' ∧ c ≠ ']' ∧ c ≠ '<') ∧
      ∀ qualifier ∈ [Qualifier.struct, .union, .enum, .const], ¬entry.2.toList <+: qualifier.word := by
    decide
  rw [normalizePrimitives]
  cases found : stdintToGhidra.lookup
      (String.ofList (base.text.takeWhile fun c => lib.isLetterOrDigit c || decide (c = '_'))) with
  | none => exact ⟨base.nonempty, base.plain, base.noWord⟩
  | some mapped =>
    obtain ⟨before, after, shape, _⟩ := List.lookup_eq_some_iff.mp found
    have listed : (String.ofList (base.text.takeWhile fun c => lib.isLetterOrDigit c || decide (c = '_')),
        mapped) ∈ stdintToGhidra := by
      rw [shape]
      simp
    obtain ⟨nonempty, plain, noWord⟩ := table _ listed
    refine ⟨by simp [nonempty], ?_, ?_⟩
    · intro c member
      rcases List.mem_append.mp member with front | back
      · exact plain c front
      · exact base.plain c ((List.dropWhile_sublist _).mem back)
    · intro qualifier same
      refine noWord qualifier (by cases qualifier <;> simp) ?_
      rw [← same]
      exact List.prefix_append _ _

def BaseName.normalized (lib : TypeLibrary) (base : BaseName) : BaseName where
  text := normalizePrimitives lib base.text
  nonempty := (normalized_plain lib base).1
  plain := (normalized_plain lib base).2.1
  noWord := (normalized_plain lib base).2.2

/-- The name as the server looks for it. -/
def SuffixedName.normalized (lib : TypeLibrary) (name : SuffixedName) : SuffixedName :=
  { name with base := name.base.normalized lib }

end Normalized

/-! ## Resolution -/

section Resolution
variable {lib : TypeLibrary} {builtIn : List Char → Prop}
  {refer : DataTypeManager → List Char → List Suffix → DataTypeRef}

theorem suffix_ends (suffix : Suffix) : ∃ last, suffix.text.getLast? = some last ∧ 32 < last.toNat := by
  cases suffix with
  | star => exact ⟨'*', rfl, by decide⟩
  | bracket count =>
    have ends := bracketed_getLast [] (decimalChars count)
    exact ⟨']', ends, by decide⟩

/-- A name neither starts nor ends with what `trim` removes. -/
theorem SuffixedName.solid (name : SuffixedName) :
    (∃ first ∈ name.text.head?, 32 < first.toNat) ∧ ∃ last ∈ name.text.getLast?, 32 < last.toNat := by
  obtain ⟨base, suffixes⟩ := name
  obtain ⟨first, rest, shape⟩ := List.exists_cons_of_ne_nil base.nonempty
  refine ⟨⟨first, by simp [SuffixedName.text, shape], (base.plain first (by simp [shape])).1⟩, ?_⟩
  rcases List.eq_nil_or_concat suffixes with rfl | ⟨front, last, rfl⟩
  · have member := List.getLast_mem base.nonempty
    exact ⟨_, by simp [SuffixedName.text, spacedText, List.getLast?_eq_some_getLast base.nonempty],
      (base.plain _ member).1⟩
  · obtain ⟨final, ends, solid⟩ := suffix_ends last.2
    refine ⟨final, ?_, solid⟩
    simp only [SuffixedName.text, spacedText, List.concat_eq_append, List.flatMap_append, List.flatMap_cons,
      List.flatMap_nil, List.append_nil, ← List.append_assoc]
    rw [List.getLast?_append, ends]
    rfl

theorem trim_solid {text : List Char} (starts : ∃ first ∈ text.head?, 32 < first.toNat)
    (ends : ∃ last ∈ text.getLast?, 32 < last.toNat) : ProgramApplier.trim text = text := by
  obtain ⟨first, head, solid⟩ := starts
  obtain ⟨last, final, solidEnd⟩ := ends
  have front : text.dropWhile (fun c => decide (c.toNat ≤ 32)) = text := by
    cases text with
    | nil => rfl
    | cons c cs =>
      simp only [List.head?_cons, Option.mem_def, Option.some.injEq] at head
      subst head
      rw [List.dropWhile_cons_of_neg (by simpa using solid)]
  have back : text.reverse.dropWhile (fun c => decide (c.toNat ≤ 32)) = text.reverse := by
    have reversed : text.reverse.head? = some last := by simpa using final
    cases backwards : text.reverse with
    | nil => rfl
    | cons c cs =>
      rw [backwards] at reversed
      cases reversed
      rw [List.dropWhile_cons_of_neg (by simpa using solidEnd)]
  rw [ProgramApplier.trim, front, back, List.reverse_reverse]

theorem SuffixedName.text_ne_nil (name : SuffixedName) : name.text ≠ [] := by
  simp [SuffixedName.text, name.base.nonempty]

/-- A base has no delimiter; what is left of a name without what stands behind its base is
the base. -/
theorem BaseName.splitHead (base : BaseName) {tail : List Char} (behind : Behind tail) :
    ProgramApplier.splitHead (base.text ++ tail) = some base.text := by
  have solid : ∀ c ∈ base.text, (!isDelimiter c) = true := by
    intro c member
    obtain ⟨code, star, opening, closing, angle⟩ := base.plain c member
    have blank (space : Char) (low : space.toNat ≤ 32) : c ≠ space := by
      rintro rfl
      omega
    simp only [isDelimiter, blank ' ' (by decide), blank '\t' (by decide), blank '\n' (by decide),
      blank '\x0b' (by decide), blank '\x0c' (by decide), blank '\r' (by decide), star, opening, angle,
      decide_false, Bool.or_self, Bool.not_false]
  obtain ⟨first, rest, shape⟩ := List.exists_cons_of_ne_nil base.nonempty
  have mixed : ¬(base.text ++ tail ≠ [] ∧ (base.text ++ tail).all isDelimiter = true) := by
    rintro ⟨_, all⟩
    have here := solid first (by simp [shape])
    simp only [shape, List.cons_append, List.all_cons, Bool.and_eq_true] at all
    simp [all.1] at here
  have stops : tail = [] ∨ ∃ first rest, tail = first :: rest ∧ (!isDelimiter first) = false := by
    rcases behind with empty | ⟨first, rest, shape, opening⟩
    · exact .inl empty
    · exact .inr ⟨first, rest, shape, by simp [opening]⟩
  rw [ProgramApplier.splitHead, if_neg mixed, (takeWhile_append_stop _ stops).1,
    List.takeWhile_eq_self_iff.mpr solid]

theorem SuffixedName.splitHead (name : SuffixedName) : ProgramApplier.splitHead name.text = some name.base.text :=
  name.base.splitHead (behind_spacedText name.suffixes)

open Classical in
/-- A name resolves to the type of the root category that is spelled so, or else to
what the parser finds by the base; nothing is left for the last resort. -/
theorem resolveDataType_suffixed (law : ParsesNames lib builtIn refer) (manager : DataTypeManager)
    (name : SuffixedName) :
    resolveDataType lib manager (String.ofList name.text) =
      some ((storedRef manager (String.ofList (name.normalized lib).text)).or
        (if Known builtIn manager (name.normalized lib).base.text then
          some (refer manager (name.normalized lib).base.text name.shape)
        else none)) := by
  have nonempty : String.ofList name.text ≠ "" := by
    intro empty
    exact name.text_ne_nil (by simpa using congrArg String.toList empty)
  obtain ⟨starts, ends⟩ := name.solid
  have trimmed : normalizePrimitives lib (ProgramApplier.trim name.text) = (name.normalized lib).text := by
    rw [trim_solid starts ends, SuffixedName.text, normalizePrimitives_behind law.delimiter _ (behind_spacedText _)]
    rfl
  rw [resolveDataType, if_neg nonempty, String.toList_ofList, trimmed]
  cases direct : storedRef manager (String.ofList (name.normalized lib).text) with
  | some found => simp only [direct, Option.some_or]
  | none =>
    by_cases known : Known builtIn manager (name.normalized lib).base.text
    · simp only [direct, law.known manager (name.normalized lib) known, if_pos known, Option.none_or]
      rfl
    · have missing : storedRef manager (String.ofList (name.normalized lib).base.text) = none := by
        rw [storedRef, Option.map_eq_none_iff]
        by_contra found
        exact known (.inr ⟨rootCategory, Option.isSome_iff_ne_none.mpr found⟩)
      simp only [direct, law.unknown manager (name.normalized lib) known, if_neg known, Option.none_or,
        SuffixedName.splitHead, Option.map_some, missing, ite_self]

end Resolution

/-! ## A parser of names -/

/-- An identifier as a name without suffixes. -/
def identifier (text : String) (nonempty : text.toList ≠ [] := by decide)
    (plain : ∀ c ∈ text.toList, 32 < c.toNat ∧ c ≠ '*' ∧ c ≠ '[' ∧ c ≠ ']' ∧ c ≠ '<' := by decide)
    (noWord : ∀ qualifier : Qualifier, text.toList ≠ qualifier.word := by intro qualifier; cases qualifier <;> decide) :
    SuffixedName where
  base := ⟨text.toList, nonempty, plain, noWord⟩
  suffixes := []

def builtInNames : List String :=
  ["void", "bool", "float", "double", "sbyte", "byte", "short", "ushort", "int", "uint", "longlong", "ulonglong",
    "char", "uchar", "word", "dword", "qword", "long", "ulong"]

def isPlain (c : Char) : Bool := decide (32 < c.toNat ∧ c ≠ '*' ∧ c ≠ '[' ∧ c ≠ ']' ∧ c ≠ '<')

/-- Finds a type by its base and refers to it by its name without blanks. -/
def parseNamed (manager : DataTypeManager) (text : List Char) : Option DataTypeRef :=
  let base := text.takeWhile isPlain
  let behind := (text.dropWhile isPlain).filter fun c => !isBlank c
  let known := String.ofList base ∈ builtInNames ∨ ∃ key ∈ manager.keys, key.2 = String.ofList base
  if known ∧ (behind = [] ∨ behind.head? = some '*' ∨ behind.head? = some '[') then
    some (.parsed (String.ofList (base ++ behind)))
  else none

def namedLibrary : TypeLibrary :=
  { TypeAnnotations.plainLibrary with parse := fun manager text => parseNamed manager text.toList }

def namedBuiltIn (name : List Char) : Prop := String.ofList name ∈ builtInNames

def namedRefer (_ : DataTypeManager) (name : List Char) (shape : List Suffix) : DataTypeRef :=
  .parsed (String.ofList (name ++ compactText shape))

theorem spacedText_filter (suffixes : List (Gap × Suffix)) :
    (spacedText suffixes).filter (fun c => !isBlank c) = compactText (suffixes.map Prod.snd) := by
  have blanks (gap : Gap) : gap.text.filter (fun c => !isBlank c) = [] := by
    rw [List.filter_eq_nil_iff]
    intro c member
    simp [gap.blank c member]
  have solid (suffix : Suffix) : suffix.text.filter (fun c => !isBlank c) = suffix.text := by
    rw [List.filter_eq_self]
    intro c member
    cases suffix with
    | star =>
      rw [List.mem_singleton.mp member]
      rfl
    | bracket count =>
      simp only [Suffix.text, bracketed, List.mem_cons, List.mem_append, List.not_mem_nil, or_false] at member
      rcases member with rfl | digit | rfl
      · rfl
      · have number := decimal_isDigit count c digit
        by_contra blank
        simp only [isBlank, Bool.not_eq_true, Bool.not_eq_false', Bool.or_eq_true, decide_eq_true_eq] at blank
        rcases blank with rfl | rfl <;> exact absurd number (by decide)
      · rfl
  induction suffixes with
  | nil => rfl
  | cons spaced rest ih =>
    rw [spacedText] at ih
    simp only [spacedText, List.flatMap_cons, List.filter_append, blanks, solid, List.nil_append, ih, List.map_cons,
      compactText]

theorem known_iff_keys (manager : DataTypeManager) (name : List Char) :
    Known namedBuiltIn manager name ↔
      (String.ofList name ∈ builtInNames ∨ ∃ key ∈ manager.keys, key.2 = String.ofList name) := by
  refine or_congr Iff.rfl ?_
  constructor
  · rintro ⟨category, found⟩
    exact ⟨(category, String.ofList name), AList.lookup_isSome.mp found, rfl⟩
  · rintro ⟨⟨category, held⟩, member, rfl⟩
    exact ⟨category, AList.lookup_isSome.mpr member⟩

theorem namedLibrary_parses : ParsesNames namedLibrary namedBuiltIn namedRefer := by
  have cut (name : SuffixedName) :
      name.text.takeWhile isPlain = name.base.text ∧
        (name.text.dropWhile isPlain).filter (fun c => !isBlank c) = compactText name.shape := by
    have stops : spacedText name.suffixes = [] ∨ ∃ first rest, spacedText name.suffixes = first :: rest ∧
        isPlain first = false := by
      rcases spacedText_head name.suffixes with empty | ⟨first, rest, shape, opening⟩
      · exact .inl empty
      · refine .inr ⟨first, rest, shape, ?_⟩
        simp only [opensSuffix, isBlank, Bool.or_eq_true, decide_eq_true_eq] at opening
        rcases opening with ((rfl | rfl) | rfl) | rfl <;> rfl
    have plain : ∀ c ∈ name.base.text, isPlain c = true := fun c member => decide_eq_true (name.base.plain c member)
    obtain ⟨front, back⟩ := takeWhile_append_stop name.base.text stops
    rw [SuffixedName.text, front, back, List.takeWhile_eq_self_iff.mpr plain, List.dropWhile_eq_nil_iff.mpr plain,
      List.nil_append, spacedText_filter]
    exact ⟨rfl, rfl⟩
  have opens (shape : List Suffix) : compactText shape = [] ∨ (compactText shape).head? = some '*' ∨
      (compactText shape).head? = some '[' := by
    cases shape with
    | nil => exact .inl rfl
    | cons suffix rest =>
      cases suffix with
      | star => exact .inr (.inl rfl)
      | bracket count => exact .inr (.inr rfl)
  have parses (manager : DataTypeManager) (name : SuffixedName) :
      namedLibrary.parse manager (String.ofList name.text) = parseNamed manager name.text := by
    rw [namedLibrary]
    simp
  refine ⟨fun c letter => letter, ?_, ?_, ?_, ?_⟩
  · intro c delimiter
    simp only [isDelimiter, Bool.or_eq_true, decide_eq_true_eq] at delimiter
    rcases delimiter with (((((((rfl | rfl) | rfl) | rfl) | rfl) | rfl) | rfl) | rfl) | rfl <;> rfl
  · intro manager name known
    obtain ⟨front, back⟩ := cut name
    rw [parses, parseNamed]
    simp only [front, back]
    rw [if_pos ⟨(known_iff_keys manager name.base.text).mp known, opens name.shape⟩]
    rfl
  · intro manager name unknown
    obtain ⟨front, back⟩ := cut name
    rw [parses, parseNamed]
    simp only [front, back]
    rw [if_neg fun both => unknown ((known_iff_keys manager name.base.text).mpr both.1)]
  · intro first second name shape _
    rfl

end GhidraBridge
