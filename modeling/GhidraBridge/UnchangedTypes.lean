import GhidraBridge.DataTypeNames
import GhidraBridge.TypeNormalForm

/-! When two type names that compare equal at check-in stand for one type on the
server. The comparison strips the keywords Binary Ninja prints and folds two
tables of aliases; the server knows the first of these tables only, and its
parser refuses a keyword. -/
namespace GhidraBridge
open Lib Lib.Scan ProgramApplier

/-! ## Names behind qualifiers -/

structure WrittenName where
  qualifiers : List Qualifier
  name : SuffixedName

def qualifierText (qualifiers : List Qualifier) : List Char :=
  qualifiers.flatMap fun qualifier => qualifier.word ++ [' ']

def WrittenName.text (written : WrittenName) : List Char := qualifierText written.qualifiers ++ written.name.text

/-! ## The canonical form -/

/-- The qualifiers are keywords, and nothing else is stripped of the base. -/
theorem stripKeywords_qualified (base : BaseName) (qualifiers : List Qualifier) :
    stripKeywords (qualifierText qualifiers ++ base.text) = base.text := by
  have spaced : ∀ kw ∈ elaborated, ' ' ∈ kw := by decide
  have listed : Strip.Run elaborated (qualifiers.map fun qualifier => qualifier.word ++ [' ']) := by
    intro word member
    obtain ⟨qualifier, -, rfl⟩ := List.mem_map.mp member
    cases qualifier <;> decide
  have bare : Strip.Bare elaborated base.text := fun kw keyword front =>
    absurd (base.plain ' ' (front.subset (spaced kw keyword))).1 (by decide)
  rw [qualifierText, List.flatMap_def]
  exact TypeNormalForm.stripKeywords_eq listed bare

theorem qualifierText_head (qualifiers : List Qualifier) (base : BaseName) :
    ∃ first ∈ (qualifierText qualifiers ++ base.text).head?, 32 < first.toNat ∧ first ≠ '*' ∧ first ≠ '[' := by
  cases qualifiers with
  | nil =>
    obtain ⟨first, rest, shape⟩ := List.exists_cons_of_ne_nil base.nonempty
    obtain ⟨code, star, opening, _⟩ := base.plain first (by simp [shape])
    exact ⟨first, by simp [qualifierText, shape], code, star, opening⟩
  | cons qualifier rest => cases qualifier <;> exact ⟨_, rfl, by decide⟩

theorem canonicalChars_qualified (qualifiers : List Qualifier) (base : BaseName) :
    canonicalChars (qualifierText qualifiers ++ base.text) = foldAlias base.text := by
  obtain ⟨first, starts, solid, _⟩ := qualifierText_head qualifiers base
  have member := List.getLast_mem base.nonempty
  have ends : (qualifierText qualifiers ++ base.text).getLast? = some (base.text.getLast base.nonempty) := by
    rw [List.getLast?_append, List.getLast?_eq_some_getLast base.nonempty]
    rfl
  obtain ⟨code, star, _, closing, _⟩ := base.plain _ member
  have trimmed : Scan.trim (qualifierText qualifiers ++ base.text) = qualifierText qualifiers ++ base.text :=
    trim_of_solid starts ends (solid_of_code solid) (solid_of_code code)
  have whole : suffixed? (qualifierText qualifiers ++ base.text) = none := by
    rw [suffixed?, ends, if_neg (by simpa using star), if_neg (by simpa using closing)]
  have nonempty : qualifierText qualifiers ++ base.text ≠ [] := by simp [base.nonempty]
  rw [canonicalChars_eq, trimmed, if_neg nonempty, whole, stripKeywords_qualified]

theorem canonicalChars_suffix (text : List Char) (gap : Gap) (suffix : Suffix) :
    canonicalChars (text ++ (gap.text ++ suffix.text)) = canonicalChars text ++ suffix.text := by
  rw [← List.append_assoc]
  cases suffix with
  | star => rw [Suffix.text, canonicalChars_star, canonicalChars_gap]
  | bracket count =>
    rw [Suffix.text, bracketed, canonicalChars_bracket _ (decimal_plain count), canonicalChars_gap]

/-- The comparison sees the folded base and the suffixes. -/
theorem WrittenName.canonical (written : WrittenName) :
    canonicalChars written.text = foldAlias written.name.base.text ++ compactText written.name.shape := by
  obtain ⟨qualifiers, base, suffixes⟩ := written
  simp only [WrittenName.text, SuffixedName.text, SuffixedName.shape]
  induction suffixes using List.reverseRecOn with
  | nil => simp [spacedText, compactText, canonicalChars_qualified]
  | append_singleton front last ih =>
    have text : spacedText (front ++ [last]) = spacedText front ++ (last.1.text ++ last.2.text) := by
      simp [spacedText]
    have shape : compactText ((front ++ [last]).map Prod.snd) = compactText (front.map Prod.snd) ++ last.2.text := by
      simp [compactText]
    rw [text, shape, ← List.append_assoc, ← List.append_assoc, List.append_assoc (qualifierText qualifiers),
      canonicalChars_suffix, ih, List.append_assoc]

theorem compactText_injective : Function.Injective compactText := by
  intro first second same
  induction first generalizing second with
  | nil =>
    cases second with
    | nil => rfl
    | cons suffix rest => cases suffix <;> simp [compactText, Suffix.text, bracketed] at same
  | cons suffix rest ih =>
    cases second with
    | nil => cases suffix <;> simp [compactText, Suffix.text, bracketed] at same
    | cons other remaining =>
      have cut (shape : List Suffix) (suffix : Suffix) :
          compactText (suffix :: shape) = suffix.text ++ compactText shape := by
        simp [compactText]
      rw [cut, cut] at same
      cases suffix with
      | star =>
        cases other with
        | star => rw [ih (List.append_cancel_left same)]
        | bracket count => simp [Suffix.text, bracketed] at same
      | bracket count =>
        cases other with
        | star => simp [Suffix.text, bracketed] at same
        | bracket number =>
          have absent (count : Nat) : ']' ∉ decimalChars count := fun inside =>
            (print_plain .decimal count _ inside).2.1 rfl
          simp only [Suffix.text, bracketed, List.cons_append, List.append_assoc, List.nil_append,
            List.cons.injEq, true_and] at same
          have left := splitFirst_append (compactText rest) (absent count)
          rw [same, splitFirst_append _ (absent number)] at left
          simp only [Option.some.injEq, Prod.mk.injEq] at left
          rw [decimal_injective left.1, ih left.2.symm]

/-- The folded base holds nothing a suffix starts with. -/
theorem foldAlias_plain (base : BaseName) : ∀ c ∈ foldAlias base.text, (decide (c ≠ '*' ∧ c ≠ '[')) = true := by
  have table : ∀ entry ∈ aliases, ∀ c ∈ entry.2.toList, (decide (c ≠ '*' ∧ c ≠ '[')) = true := by
    decide
  intro c member
  rw [foldAlias] at member
  cases found : aliases.lookup (String.ofList base.text) with
  | none =>
    rw [found] at member
    obtain ⟨_, star, opening, _⟩ := base.plain c member
    simp [star, opening]
  | some folded =>
    rw [found] at member
    obtain ⟨before, after, shape, _⟩ := List.lookup_eq_some_iff.mp found
    exact table (String.ofList base.text, folded) (by rw [shape]; simp) c member

theorem compactText_head (shape : List Suffix) :
    compactText shape = [] ∨
      ∃ first rest, compactText shape = first :: rest ∧ (decide (first ≠ '*' ∧ first ≠ '[')) = false := by
  cases shape with
  | nil => exact .inl rfl
  | cons suffix rest => cases suffix <;> exact .inr ⟨_, _, rfl, rfl⟩

/-- Two names compare equal exactly when their folded bases and their suffixes do. -/
theorem canonical_eq_iff (first second : WrittenName) :
    canonicalTypeName (String.ofList first.text) = canonicalTypeName (String.ofList second.text) ↔
      foldAlias first.name.base.text = foldAlias second.name.base.text ∧ first.name.shape = second.name.shape := by
  rw [canonicalTypeName, canonicalTypeName, String.ofList_inj, String.toList_ofList, String.toList_ofList,
    first.canonical, second.canonical]
  constructor
  · intro same
    have front (written : WrittenName) := takeWhile_append_stop (foldAlias written.name.base.text)
      (compactText_head written.name.shape)
    have bases : foldAlias first.name.base.text = foldAlias second.name.base.text := by
      have left := (front first).1
      rw [same, (front second).1, List.takeWhile_eq_self_iff.mpr (foldAlias_plain _),
        List.takeWhile_eq_self_iff.mpr (foldAlias_plain _)] at left
      exact left.symm
    rw [bases] at same
    exact ⟨bases, compactText_injective (List.append_cancel_left same)⟩
  · rintro ⟨bases, shapes⟩
    rw [bases, shapes]

/-! ## On the server -/

/-- A program whose root category has no type named like a suffixed or qualified
name. -/
structure PlainProgram where
  manager : DataTypeManager
  plain : ∀ name, (manager.getDataType name).isSome → ∀ c ∈ name.toList, opensSuffix c = false
  noWord : ∀ qualifier : Qualifier, manager.getDataType (String.ofList qualifier.word) = none

/-- The parser refuses a name behind a keyword of C. -/
def RefusesQualifiers (lib : TypeLibrary) : Prop :=
  ∀ (manager : DataTypeManager) (written : WrittenName), written.qualifiers ≠ [] →
    lib.parse manager (String.ofList written.text) = none

/-- The built-in integer types both alias tables lead to. -/
def storageNames : List String :=
  ["sbyte", "byte", "short", "ushort", "int", "uint", "longlong", "ulonglong",
    "char", "uchar", "word", "dword", "qword", "long", "ulong"]

/-- Ghidra has them all, each as a type of its own. -/
structure HasStorageTypes (builtIn : List Char → Prop)
    (refer : DataTypeManager → List Char → List Suffix → DataTypeRef) : Prop where
  known : ∀ name ∈ storageNames, builtIn name.toList
  apart : ∀ first ∈ storageNames, ∀ second ∈ storageNames, first ≠ second → ∀ shape,
    refer ∅ first.toList shape ≠ refer ∅ second.toList shape

section Server
variable {lib : TypeLibrary} {builtIn : List Char → Prop}
  {refer : DataTypeManager → List Char → List Suffix → DataTypeRef}

theorem storedRef_suffixed (program : PlainProgram) {text : List Char} {c : Char} (member : c ∈ text)
    (opening : opensSuffix c = true) : storedRef program.manager (String.ofList text) = none := by
  rw [storedRef, Option.map_eq_none_iff]
  by_contra found
  have plain := program.plain (String.ofList text) (Option.isSome_iff_ne_none.mpr found) c (by simpa using member)
  simp [opening] at plain

/-- A qualified name resolves to nothing. -/
theorem resolve_qualified (law : ParsesNames lib builtIn refer) (refuses : RefusesQualifiers lib)
    (program : PlainProgram) {written : WrittenName} (qualified : written.qualifiers ≠ []) :
    resolveDataType lib program.manager (String.ofList written.text) = some none := by
  obtain ⟨first, rest, shape⟩ := List.exists_cons_of_ne_nil qualified
  have text : written.text = first.word ++ ' ' :: (qualifierText rest ++ written.name.text) := by
    simp [WrittenName.text, shape, qualifierText]
  have nonempty : String.ofList written.text ≠ "" := by
    intro empty
    have none := congrArg String.toList empty
    simp [text] at none
  have trimmed : ProgramApplier.trim written.text = written.text := by
    refine trim_solid ?_ ?_
    · obtain ⟨c, head, solid, _⟩ := qualifierText_head written.qualifiers written.name.base
      refine ⟨c, ?_, solid⟩
      rw [WrittenName.text, SuffixedName.text, ← List.append_assoc, List.head?_append, Option.mem_def.mp head]
      rfl
    · obtain ⟨c, last, solid⟩ := written.name.solid.2
      refine ⟨c, ?_, solid⟩
      rw [WrittenName.text, List.getLast?_append, Option.mem_def.mp last]
      rfl
  -- the leading word is no stdint name, so the text is looked for as it is
  have kept : normalizePrimitives lib written.text = written.text := by
    have letters : ∀ qualifier ∈ [Qualifier.struct, .union, .enum, .const], ∀ c ∈ qualifier.word,
        c.isAlphanum = true := by
      decide
    have word : ∀ c ∈ first.word, (lib.isLetterOrDigit c || decide (c = '_')) = true := by
      intro c member
      rw [law.letter c (letters first (by cases first <;> simp) c member)]
      rfl
    have stop : (lib.isLetterOrDigit ' ' || decide (' ' = '_')) = false := by
      rw [law.delimiter ' ' rfl]
      rfl
    have unmapped : stdintToGhidra.lookup (String.ofList first.word) = none := by
      cases first <;> decide
    have leading := (takeWhile_append_stop first.word
      (p := fun c => lib.isLetterOrDigit c || decide (c = '_'))
      (.inr ⟨' ', qualifierText rest ++ written.name.text, rfl, stop⟩)).1
    rw [normalizePrimitives, text, leading, List.takeWhile_eq_self_iff.mpr word, unmapped]
  have direct : storedRef program.manager (String.ofList written.text) = none :=
    storedRef_suffixed program (by simp [text] : ' ' ∈ written.text) rfl
  have head : splitHead written.text = some first.word := by
    have solid : ∀ c ∈ first.word, (!isDelimiter c) = true := by
      cases first <;> decide
    have mixed : ¬(written.text ≠ [] ∧ written.text.all isDelimiter = true) := by
      rintro ⟨_, all⟩
      obtain ⟨c, member⟩ := List.exists_mem_of_ne_nil first.word (by cases first <;> decide)
      have delimits := List.all_eq_true.mp all c (by rw [text]; exact List.mem_append_left _ member)
      simpa [delimits] using solid c member
    have leading := (takeWhile_append_stop first.word (p := fun c => !isDelimiter c)
      (.inr ⟨' ', qualifierText rest ++ written.name.text, rfl, rfl⟩)).1
    rw [splitHead, if_neg mixed, text, leading, List.takeWhile_eq_self_iff.mpr solid]
  have missing : storedRef program.manager (String.ofList first.word) = none := by
    rw [storedRef, program.noWord first]
    rfl
  rw [resolveDataType, if_neg nonempty, String.toList_ofList, trimmed, kept]
  simp only [direct, refuses program.manager written qualified, head, Option.map_some, missing, ite_self]

/-- Names of one normalized base and one shape resolve alike. -/
theorem resolve_same_base (law : ParsesNames lib builtIn refer) (program : PlainProgram) {first second : SuffixedName}
    (bases : normalizePrimitives lib first.base.text = normalizePrimitives lib second.base.text)
    (shapes : first.shape = second.shape) :
    resolveDataType lib program.manager (String.ofList first.text) =
      resolveDataType lib program.manager (String.ofList second.text) := by
  have direct (name : SuffixedName) (suffixed : name.suffixes ≠ []) :
      storedRef program.manager (String.ofList (name.normalized lib).text) = none := by
    rcases spacedText_head name.suffixes with empty | ⟨c, rest, shape, opening⟩
    · obtain ⟨spaced, later, listed⟩ := List.exists_cons_of_ne_nil suffixed
      obtain ⟨last, ends, _⟩ := suffix_ends spaced.2
      have blank : spaced.2.text = [] := by
        simp only [spacedText, listed, List.flatMap_cons, List.append_eq_nil_iff] at empty
        exact empty.1.2
      simp [blank] at ends
    · refine storedRef_suffixed program (c := c) ?_ opening
      simp [SuffixedName.text, SuffixedName.normalized, shape]
  have stored : storedRef program.manager (String.ofList (first.normalized lib).text) =
      storedRef program.manager (String.ofList (second.normalized lib).text) := by
    by_cases bare : first.suffixes = []
    · have other : second.suffixes = [] := by
        simpa [SuffixedName.shape, bare] using shapes.symm
      simp only [SuffixedName.text, SuffixedName.normalized, BaseName.normalized, bases, bare, other]
    · have other : second.suffixes ≠ [] := by
        intro none
        simp [SuffixedName.shape, none, bare] at shapes
      rw [direct first bare, direct second other]
  have texts : (first.normalized lib).base.text = (second.normalized lib).base.text := bases
  rw [resolveDataType_suffixed law, resolveDataType_suffixed law, stored, shapes, texts]

/-- The program that has one structure, of a given name. -/
def programWith (base : BaseName) : PlainProgram where
  manager := (∅ : DataTypeManager).set (rootCategory, String.ofList base.text) ⟨1, "", .composite false {}⟩
  plain name found := by
    have same : name = String.ofList base.text := by
      by_contra other
      rw [DataTypeManager.getDataType, Table.lookup_set, if_neg (by simpa using other)] at found
      simp at found
    subst same
    intro c member
    rw [String.toList_ofList] at member
    exact base.opensNone c member
  noWord qualifier := by
    have other : String.ofList qualifier.word ≠ String.ofList base.text := by
      rw [ne_eq, String.ofList_inj]
      exact (base.noWord qualifier).symm
    rw [DataTypeManager.getDataType, Table.lookup_set, if_neg (by simpa using other)]
    rfl

def emptyProgram : PlainProgram where
  manager := ∅
  plain name found := by simp [DataTypeManager.getDataType] at found
  noWord qualifier := rfl

/-- In some program a name without qualifiers does resolve. -/
theorem resolve_unqualified (law : ParsesNames lib builtIn refer) (name : SuffixedName) :
    ∃ program : PlainProgram, resolveDataType lib program.manager (String.ofList name.text) ≠ some none := by
  refine ⟨programWith (name.base.normalized lib), ?_⟩
  have known : Known builtIn (programWith (name.base.normalized lib)).manager (name.normalized lib).base.text := by
    refine .inr ⟨rootCategory, ?_⟩
    change (((∅ : DataTypeManager).set (rootCategory, String.ofList (name.base.normalized lib).text) _).lookup
      (rootCategory, String.ofList (name.base.normalized lib).text)).isSome
    rw [Table.lookup_set, if_pos rfl]
    rfl
  rw [resolveDataType_suffixed law, if_pos known]
  cases storedRef (programWith (name.base.normalized lib)).manager (String.ofList (name.normalized lib).text) <;> simp

/-- A name of letters, digits and underscores is mapped as a whole. -/
theorem normalizePrimitives_word (law : ParsesNames lib builtIn refer) {text : List Char}
    (word : ∀ c ∈ text, c.isAlphanum = true ∨ c = '_') :
    normalizePrimitives lib text = ((stdintToGhidra.lookup (String.ofList text)).map String.toList).getD text := by
  have all : ∀ c ∈ text, (lib.isLetterOrDigit c || decide (c = '_')) = true := by
    intro c member
    rcases word c member with letter | rfl
    · rw [law.letter c letter]
      rfl
    · simp
  have front := List.takeWhile_eq_self_iff.mpr all
  have back := List.dropWhile_eq_nil_iff.mpr all
  rw [normalizePrimitives, front, back]
  cases stdintToGhidra.lookup (String.ofList text) with
  | none => rfl
  | some mapped => simp

/-- Bases that fold to one alias are mapped to one name, or to two of the storage
types. -/
theorem folded_bases (law : ParsesNames lib builtIn refer) {first second : List Char}
    (folded : foldAlias first = foldAlias second) :
    normalizePrimitives lib first = normalizePrimitives lib second ∨
      ∃ one ∈ storageNames, ∃ two ∈ storageNames, one ≠ two ∧
        normalizePrimitives lib first = one.toList ∧ normalizePrimitives lib second = two.toList := by
  have words : ∀ entry ∈ aliases, (∀ c ∈ entry.1.toList, c.isAlphanum = true ∨ c = '_') ∧
      ∀ c ∈ entry.2.toList, c.isAlphanum = true ∨ c = '_' := by
    decide
  have table : ∀ entry ∈ aliases,
      (stdintToGhidra.lookup entry.1).getD entry.1 ∈ storageNames ∧
        (stdintToGhidra.lookup entry.2).getD entry.2 ∈ storageNames := by
    decide
  have mapped {word : String} (plain : ∀ c ∈ word.toList, c.isAlphanum = true ∨ c = '_') :
      normalizePrimitives lib word.toList = ((stdintToGhidra.lookup word).getD word).toList := by
    rw [normalizePrimitives_word law plain, String.ofList_toList]
    cases stdintToGhidra.lookup word <;> rfl
  have stored {key value : String} (listed : (key, value) ∈ aliases) :
      (∃ one ∈ storageNames, normalizePrimitives lib key.toList = one.toList) ∧
        ∃ two ∈ storageNames, normalizePrimitives lib value.toList = two.toList :=
    ⟨⟨_, (table _ listed).1, mapped (words _ listed).1⟩, ⟨_, (table _ listed).2, mapped (words _ listed).2⟩⟩
  have keyed {text : List Char} {value : String} (found : aliases.lookup (String.ofList text) = some value) :
      (String.ofList text, value) ∈ aliases := by
    obtain ⟨before, after, shape, _⟩ := List.lookup_eq_some_iff.mp found
    rw [shape]
    simp
  have settle {one two : String} (here : one ∈ storageNames) (there : two ∈ storageNames)
      (left : normalizePrimitives lib first = one.toList) (right : normalizePrimitives lib second = two.toList) :
      normalizePrimitives lib first = normalizePrimitives lib second ∨
        ∃ one ∈ storageNames, ∃ two ∈ storageNames, one ≠ two ∧
          normalizePrimitives lib first = one.toList ∧ normalizePrimitives lib second = two.toList := by
    by_cases same : one = two
    · exact .inl (by rw [left, right, same])
    · exact .inr ⟨one, here, two, there, same, left, right⟩
  rw [foldAlias, foldAlias] at folded
  cases one : aliases.lookup (String.ofList first) with
  | none =>
    cases two : aliases.lookup (String.ofList second) with
    | none =>
      rw [one, two] at folded
      exact .inl (by rw [show first = second from folded])
    | some value =>
      rw [one, two] at folded
      obtain ⟨⟨name, listed, left⟩, ⟨other, also, right⟩⟩ := stored (keyed two)
      rw [String.toList_ofList] at left
      exact settle also listed (by rw [show first = value.toList from folded, right]) left
  | some value =>
    obtain ⟨⟨name, listed, left⟩, ⟨other, also, right⟩⟩ := stored (keyed one)
    rw [String.toList_ofList] at left
    cases two : aliases.lookup (String.ofList second) with
    | none =>
      rw [one, two] at folded
      exact settle listed also left (by rw [show second = value.toList from folded.symm, right])
    | some folds =>
      obtain ⟨⟨final, last, inside⟩, _⟩ := stored (keyed two)
      rw [String.toList_ofList] at inside
      exact settle listed last left inside

/-- Two names that compare equal resolve to one type in every program exactly when
both stand behind a qualifier, and are refused, or neither does and the server's
own table maps their bases to one name. -/
theorem unchanged_is_identical_iff (law : ParsesNames lib builtIn refer) (refuses : RefusesQualifiers lib)
    (storage : HasStorageTypes builtIn refer) (first second : WrittenName)
    (unchanged : canonicalTypeName (String.ofList first.text) = canonicalTypeName (String.ofList second.text)) :
    (∀ program : PlainProgram, resolveDataType lib program.manager (String.ofList first.text) =
        resolveDataType lib program.manager (String.ofList second.text)) ↔
      (first.qualifiers ≠ [] ∧ second.qualifiers ≠ []) ∨
        (first.qualifiers = [] ∧ second.qualifiers = [] ∧
          normalizePrimitives lib first.name.base.text = normalizePrimitives lib second.name.base.text) := by
  obtain ⟨folded, shapes⟩ := (canonical_eq_iff first second).mp unchanged
  have bare {written : WrittenName} (none : written.qualifiers = []) : written.text = written.name.text := by
    simp [WrittenName.text, none, qualifierText]
  have split {one two : WrittenName} (qualified : one.qualifiers ≠ []) (none : two.qualifiers = [])
      (same : ∀ program : PlainProgram, resolveDataType lib program.manager (String.ofList one.text) =
        resolveDataType lib program.manager (String.ofList two.text)) : False := by
    obtain ⟨program, resolves⟩ := resolve_unqualified law two.name
    rw [← bare none, ← same program, resolve_qualified law refuses program qualified] at resolves
    exact resolves rfl
  constructor
  · intro same
    by_cases one : first.qualifiers = []
    · by_cases two : second.qualifiers = []
      · refine .inr ⟨one, two, ?_⟩
        rcases folded_bases law folded with equal | ⟨left, here, right, there, apart, mapsLeft, mapsRight⟩
        · exact equal
        · have empty := same emptyProgram
          have resolves {written : WrittenName} {name : String} (listed : name ∈ storageNames)
              (maps : normalizePrimitives lib written.name.base.text = name.toList) :
              resolveDataType lib emptyProgram.manager (String.ofList written.name.text) =
                some (some (refer ∅ name.toList written.name.shape)) := by
            have known : Known builtIn emptyProgram.manager (written.name.normalized lib).base.text := by
              rw [SuffixedName.normalized, BaseName.normalized]
              dsimp only
              rw [maps]
              exact .inl (storage.known name listed)
            have direct : storedRef emptyProgram.manager (String.ofList (written.name.normalized lib).text) =
                none := rfl
            rw [resolveDataType_suffixed law, direct, if_pos known]
            simp [SuffixedName.normalized, BaseName.normalized, maps, emptyProgram]
          rw [bare one, bare two, resolves here mapsLeft, resolves there mapsRight, shapes] at empty
          exact absurd (Option.some.inj (Option.some.inj empty)) (storage.apart left here right there apart _)
      · exact (split two one fun program => (same program).symm).elim
    · by_cases two : second.qualifiers = []
      · exact (split one two same).elim
      · exact .inl ⟨one, two⟩
  · rintro (⟨one, two⟩ | ⟨one, two, bases⟩) program
    · rw [resolve_qualified law refuses program one, resolve_qualified law refuses program two]
    · rw [bare one, bare two]
      exact resolve_same_base law program bases shapes

end Server

theorem namedLibrary_refuses : RefusesQualifiers namedLibrary := by
  intro manager written qualified
  obtain ⟨first, rest, shape⟩ := List.exists_cons_of_ne_nil qualified
  have text : written.text = first.word ++ ' ' :: (qualifierText rest ++ written.name.text) := by
    simp [WrittenName.text, shape, qualifierText]
  obtain ⟨next, leads, solid, star, opening⟩ := qualifierText_head rest written.name.base
  obtain ⟨behind, follows⟩ : ∃ behind, qualifierText rest ++ written.name.text = next :: behind := by
    have head : (qualifierText rest ++ written.name.text).head? = some next := by
      rw [SuffixedName.text, ← List.append_assoc, List.head?_append, Option.mem_def.mp leads]
      rfl
    exact List.head?_eq_some_iff.mp head
  have plain : ∀ c ∈ first.word, isPlain c = true := by
    cases first <;> decide
  have back := (takeWhile_append_stop first.word (p := isPlain) (.inr ⟨' ', next :: behind, rfl, rfl⟩)).2
  rw [List.dropWhile_eq_nil_iff.mpr plain, List.nil_append] at back
  have filtered : (' ' :: next :: behind).filter (fun c => !isBlank c) =
      next :: behind.filter fun c => !isBlank c := by
    rw [List.filter_cons_of_neg (by decide), List.filter_cons_of_pos (by simp [solid_of_code solid])]
  have parses : namedLibrary.parse manager (String.ofList written.text) = parseNamed manager written.text := by
    rw [namedLibrary]
    simp
  rw [parses, parseNamed, text, follows]
  simp only [back, filtered]
  rw [if_neg]
  rintro ⟨_, empty | starred | opened⟩
  · cases empty
  · exact star (Option.some.inj starred)
  · exact opening (Option.some.inj opened)

theorem namedLibrary_storage : HasStorageTypes namedBuiltIn namedRefer := by
  have listed : ∀ name ∈ storageNames, name ∈ builtInNames := by decide
  constructor
  · intro name member
    rw [namedBuiltIn, String.ofList_toList]
    exact listed name member
  · intro first _ second _ apart shape same
    simp only [namedRefer, DataTypeRef.parsed.injEq, String.ofList_inj, List.append_cancel_right_eq,
      String.toList_inj] at same
    exact apart same

theorem int32_is_identical :
    canonicalTypeName "int32_t" = canonicalTypeName "int" ∧
    ∀ program : PlainProgram, resolveDataType namedLibrary program.manager "int32_t" =
      resolveDataType namedLibrary program.manager "int" := by
  have same : canonicalTypeName "int32_t" = canonicalTypeName "int" := by decide +kernel
  exact ⟨same, (unchanged_is_identical_iff namedLibrary_parses namedLibrary_refuses namedLibrary_storage
    ⟨[], identifier "int32_t"⟩ ⟨[], identifier "int"⟩ same).mpr (.inr ⟨rfl, rfl, by decide⟩)⟩

/-- `char` and `sbyte` compare equal and are two types of Ghidra; so does `struct Foo`
with `Foo`, which the server refuses and resolves. -/
theorem unchanged_is_not_identical :
    (canonicalTypeName "char" = canonicalTypeName "sbyte" ∧
      resolveDataType namedLibrary ∅ "char" ≠ resolveDataType namedLibrary ∅ "sbyte") ∧
    canonicalTypeName "struct Foo" = canonicalTypeName "Foo" ∧
      resolveDataType namedLibrary (programWith (identifier "Foo").base).manager "struct Foo" ≠
        resolveDataType namedLibrary (programWith (identifier "Foo").base).manager "Foo" := by
  decide +kernel

end GhidraBridge
