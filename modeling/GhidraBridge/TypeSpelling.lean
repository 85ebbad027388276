import GhidraBridge.Lib.Hex
import GhidraBridge.TypeReadback

/-! The names the exporter writes for primitives, pointers and arrays, and how
Binary Ninja spells the types they are resolved into. The exporter puts the
outermost dimension of a nested array last and the resolver reads it so; Binary
Ninja prints it first, as C does. The comparison at check-in keeps brackets as
they are spelled, so a name meets its own type only where the order of its
dimensions does not show. -/
namespace GhidraBridge
open Lib Lib.Scan

/-! ## Names -/

/-- What may stand before a suffix. -/
structure Gap where
  text : List Char
  blank : ∀ c ∈ text, isBlank c = true

/-- The number of elements of an array. The exporter's are positive Java `int`s;
`stoull` reads any number below 2^64. -/
structure ArrayCount where
  value : Nat
  positive : 0 < value
  bounded : value < 2 ^ 64

/-- A name as `buildTypeNameMap` composes it from the primitives of the table. -/
inductive TypeName where
  | primitive (entry : PrimEntry) (listed : entry ∈ prims)
  | pointer (target : TypeName) (gap : Gap)
  | array (element : TypeName) (gap : Gap) (count : ArrayCount)

/-- A count between its brackets. -/
def bracketed (count : List Char) : List Char := '[' :: (count ++ [']'])

def decimalChars (count : Nat) : List Char := (toString count).toList

def TypeName.text : TypeName → List Char
  | .primitive entry _ => entry.name.toList
  | .pointer target gap => target.text ++ gap.text ++ ['*']
  | .array element gap count => element.text ++ gap.text ++ bracketed (decimalChars count.value)

/-! ## Binary Ninja's spelling -/

/-- How Binary Ninja prints the count of an array. -/
inductive CountStyle where
  | decimal | hex
  deriving DecidableEq

def CountStyle.print : CountStyle → Nat → List Char
  | .decimal, count => decimalChars count
  | .hex, count => '0' :: 'x' :: Hex.digits count

def brackets (style : CountStyle) (dims : List Nat) : List Char :=
  dims.flatMap fun count => bracketed (style.print count)

/-- The spelling of a type inside arrays of the given dimensions, outermost first:
an array's own dimension follows those around it, and all of them stand behind
what is not an array. -/
def BNType.spell (style : CountStyle) (keyword : String → Option Keyword) : BNType → List Nat → List Char
  | .array element count, dims => element.spell style keyword (dims ++ [count])
  | .pointer _ target, dims => target.spell style keyword [] ++ ['*'] ++ brackets style dims
  | type, dims => (type.getString keyword).toList ++ brackets style dims

def BinaryView.render (view : BinaryView) (style : CountStyle) (type : BNType) : String :=
  String.ofList (type.spell style view.host.keyword [])

/-- The runs of dimensions between the stars of a name, each outermost first. -/
def TypeName.runs : TypeName → List Nat → List (List Nat)
  | .primitive _ _, dims => [dims]
  | .pointer target _, dims => dims :: target.runs []
  | .array element _ count, dims => element.runs (dims ++ [count.value])

/-! ## What a name is resolved into -/

/-- The type of a name: a table name the view has a type for is that type. -/
def TypeName.built (view : BinaryView) : TypeName → BNType
  | .primitive entry _ => (view.getTypeByName entry.name).getD entry.type
  | .pointer target _ => .pointer view.addressSize (target.built view)
  | .array element _ count => .array (element.built view) count.value

theorem rtrim_append_gap (text : List Char) (gap : Gap) : rtrim (text ++ gap.text) = rtrim text :=
  rtrim_append_blanks text gap.blank

theorem rtrim_of_solid {text : List Char} {last : Char} (ends : text.getLast? = some last)
    (solid : isBlank last = false) : rtrim text = text := by
  obtain ⟨front, rfl⟩ : ∃ front, text = front ++ [last] :=
    ⟨text.dropLast, (List.dropLast_append_getLast? last ends).symm⟩
  rw [rtrim, List.rdropWhile_concat_neg _ _ _ (by simp [solid])]

theorem bracketed_getLast (text count : List Char) : (text ++ bracketed count).getLast? = some ']' := by
  rw [bracketed, ← List.cons_append, ← List.append_assoc, List.getLast?_append]
  rfl

/-- A name ends in a character that is no blank. -/
theorem TypeName.text_ends (name : TypeName) : ∃ last, name.text.getLast? = some last ∧ isBlank last = false := by
  cases name with
  | primitive entry listed =>
    have table : ∀ entry ∈ prims, entry.name.toList.getLast?.any (fun last => !isBlank last) = true := by
      decide
    obtain ⟨last, ends, solid⟩ := (Option.any_eq_true _ _).mp (table entry listed)
    exact ⟨last, ends, by simpa using solid⟩
  | pointer target gap => exact ⟨'*', by simp [TypeName.text], rfl⟩
  | array element gap count => exact ⟨']', bracketed_getLast _ _, rfl⟩

theorem TypeName.text_ne_nil (name : TypeName) : name.text ≠ [] := by
  obtain ⟨last, ends, _⟩ := name.text_ends
  intro empty
  simp [empty] at ends

theorem TypeName.rtrim_text (name : TypeName) : rtrim name.text = name.text := by
  obtain ⟨last, ends, solid⟩ := name.text_ends
  exact rtrim_of_solid ends solid

theorem decimal_eq (count : Nat) : decimalChars count = Nat.toDigits 10 count := by
  rw [decimalChars, Nat.toString_eq_ofList_toDigits, String.toList_ofList]

theorem decimal_isDigit (count : Nat) : ∀ c ∈ decimalChars count, c.isDigit = true := by
  intro c member
  rw [decimal_eq] at member
  exact Nat.isDigit_of_mem_toDigits (by omega) (by omega) member

/-- A decimal count is read back by `stoull`. -/
theorem stoull_decimal (bounded : count < 2 ^ 64) : stoull (decimalChars count) = some count := by
  obtain ⟨first, rest, shape⟩ : ∃ first rest, decimalChars count = first :: rest := by
    rw [decimal_eq]
    exact List.exists_cons_of_ne_nil Nat.toDigits_ne_nil
  have digits := decimal_isDigit count
  have leading : first.isDigit = true := digits first (by simp [shape])
  have solid : isSpace first = false := by
    by_contra blank
    simp only [isSpace, Bool.not_eq_false, Bool.or_eq_true, decide_eq_true_eq] at blank
    simp only [Char.isDigit, Bool.and_eq_true, decide_eq_true_eq] at leading
    rcases blank with ((((rfl | rfl) | rfl) | code) | code) | rfl
    · exact absurd leading.1 (by decide)
    · exact absurd leading.1 (by decide)
    · exact absurd leading.1 (by decide)
    · have low : (48 : Nat) ≤ first.toNat := leading.1
      omega
    · have low : (48 : Nat) ≤ first.toNat := leading.1
      omega
    · exact absurd leading.1 (by decide)
  have body : (decimalChars count).dropWhile isSpace = decimalChars count := by
    rw [shape, List.dropWhile_cons_of_neg (by simp [solid])]
  have plus : first ≠ '+' := by
    rintro rfl
    exact absurd leading (by decide)
  have minus : first ≠ '-' := by
    rintro rfl
    exact absurd leading (by decide)
  have unsigned : ¬((decimalChars count).head? = some '-' ∨ (decimalChars count).head? = some '+') := by
    simp [shape, plus, minus]
  have run : (decimalChars count).takeWhile Char.isDigit = decimalChars count := List.takeWhile_eq_self_iff.mpr digits
  have value : Nat.ofDigitChars 10 (decimalChars count) 0 = count := by
    rw [decimal_eq]
    exact Nat.ofDigitChars_ten_toDigits
  have nonempty : decimalChars count ≠ [] := by simp [shape]
  have nonnegative : ¬(decimalChars count).head? = some '-' := fun head => unsigned (Or.inl head)
  rw [stoull]
  simp only [body, if_neg unsigned, run, value, if_neg nonempty, if_neg nonnegative]
  rw [if_neg (by omega)]

theorem decimal_plain (count : Nat) : '[' ∉ decimalChars count := bracket_not_mem_decimal count

/-- No name of the table stands for another of its entries. -/
theorem primitive_of_listed : ∀ entry ∈ prims, primitive? entry.name = some entry.type := by decide

/-- Every name of the grammar resolves, and to what it says. -/
theorem TypeName.resolves (view : BinaryView) (name : TypeName) (hintSize : Int32) :
    resolveChars view name.text hintSize = some (name.built view) := by
  induction name generalizing hintSize with
  | primitive entry listed =>
    have table : ∀ entry ∈ prims, entry.name.toList.getLast? ≠ some '*' ∧
        entry.name.toList.getLast? ≠ some ']' := by
      decide
    obtain ⟨star, closed⟩ := table entry listed
    have found := primitive_of_listed entry listed
    have whole : pointee? entry.name.toList = none := by
      have trimmed : rtrim entry.name.toList = entry.name.toList := TypeName.rtrim_text (.primitive entry listed)
      rw [pointee?, trimmed, if_neg star]
    have scalar : element? entry.name.toList = none := by
      rw [element?, if_neg closed]
    have nonempty : entry.name.toList ≠ [] := TypeName.text_ne_nil (.primitive entry listed)
    rw [TypeName.text, resolveChars_eq, if_neg nonempty, whole, scalar, TypeName.built]
    simp only [Option.bind_none, Option.none_or, String.ofList_toList, found, Option.some_or]
    cases view.getTypeByName entry.name <;> rfl
  | pointer target gap ih =>
    have cut : pointee? (TypeName.pointer target gap).text = some target.text := by
      have trimmed := TypeName.rtrim_text (.pointer target gap)
      rw [pointee?, trimmed, TypeName.text]
      simp [rtrim_append_gap, target.rtrim_text]
    rw [resolveChars_eq, if_neg (TypeName.text_ne_nil _), cut]
    simp only [if_neg target.text_ne_nil, ih 0, Option.getD_some, TypeName.built]
  | array element gap count ih =>
    have ends := bracketed_getLast (element.text ++ gap.text) (decimalChars count.value)
    have whole : pointee? (TypeName.array element gap count).text = none := by
      have trimmed := TypeName.rtrim_text (.array element gap count)
      rw [pointee?, trimmed, TypeName.text, ends, if_neg (by decide)]
    have cut : element? (TypeName.array element gap count).text = some (element.text, decimalChars count.value) := by
      have absent : '[' ∉ decimalChars count.value ++ [']'] := by simp [decimal_plain]
      rw [element?, TypeName.text, if_pos ends, bracketed, splitLast_append _ absent]
      simp [rtrim_append_gap, element.rtrim_text]
    rw [resolveChars_eq, if_neg (TypeName.text_ne_nil _), whole, cut]
    simp only [Option.bind_some, stoull_decimal count.bounded, Option.getD_some, count.positive,
      element.text_ne_nil, ne_eq, not_false_eq_true, and_self, if_true, ih 0, Option.map_some,
      Option.some_or, TypeName.built]

/-! ## Comparing the two spellings -/

theorem canonicalChars_gap (text : List Char) (gap : Gap) :
    canonicalChars (text ++ gap.text) = canonicalChars text := by
  rw [← canonicalChars_rtrim, rtrim_append_gap, canonicalChars_rtrim]

/-- A printed count holds none of the characters a suffix is cut at. -/
theorem print_plain (style : CountStyle) (count : Nat) :
    ∀ c ∈ style.print count, c ≠ '[' ∧ c ≠ ']' ∧ c ≠ '*' := by
  intro c member
  cases style with
  | decimal =>
    have digit := decimal_isDigit count c member
    refine ⟨?_, ?_, ?_⟩ <;> (rintro rfl; exact absurd digit (by decide))
  | hex =>
    rcases List.mem_cons.mp member with rfl | member
    · decide
    · rcases List.mem_cons.mp member with rfl | member
      · decide
      · have digit := Hex.digit_of_readFrom (Hex.readFrom_digits count) c member
        refine ⟨?_, ?_, ?_⟩ <;> (rintro rfl; exact absurd digit (by decide))

/-- Brackets stay as they are spelled behind the canonical form of what they follow. -/
theorem canonicalChars_brackets (style : CountStyle) (text : List Char) (dims : List Nat) :
    canonicalChars (text ++ brackets style dims) = canonicalChars text ++ brackets style dims := by
  induction dims using List.reverseRecOn with
  | nil => simp [brackets]
  | append_singleton front last ih =>
    have plain : '[' ∉ style.print last := fun member => (print_plain style last _ member).1 rfl
    have shape : brackets style (front ++ [last]) = brackets style front ++ bracketed (style.print last) := by
      simp [brackets]
    rw [shape, ← List.append_assoc, bracketed, canonicalChars_bracket _ plain, ih, List.append_assoc]

/-- Lists of bracketed counts are equal only count by count. -/
theorem brackets_eq_iff (first second : List (List Char)) (plain : ∀ count ∈ first, ']' ∉ count)
    (other : ∀ count ∈ second, ']' ∉ count) :
    first.flatMap bracketed = second.flatMap bracketed ↔ first = second := by
  constructor
  · intro same
    induction first generalizing second with
    | nil =>
      cases second with
      | nil => rfl
      | cons count rest => simp [bracketed] at same
    | cons count rest ih =>
      cases second with
      | nil => simp [bracketed] at same
      | cons number remaining =>
        have cut (count : List Char) (rest : List (List Char)) :
            (count :: rest).flatMap bracketed = '[' :: (count ++ ']' :: rest.flatMap bracketed) := by
          simp [bracketed]
        rw [cut, cut, List.cons.injEq] at same
        have left := splitFirst_append (rest.flatMap bracketed) (plain count List.mem_cons_self)
        rw [same.2, splitFirst_append _ (other number List.mem_cons_self)] at left
        simp only [Option.some.injEq, Prod.mk.injEq] at left
        obtain ⟨rfl, later⟩ := left
        have tails := ih remaining (fun inner member => plain inner (List.mem_cons_of_mem _ member))
          (fun inner member => other inner (List.mem_cons_of_mem _ member)) later.symm
        rw [tails]
  · rintro rfl
    rfl

/-- The dimensions read the same outermost first, as Binary Ninja prints them,
and outermost last in decimal, as the exporter does. -/
def CountStyle.Fits (style : CountStyle) (dims : List Nat) : Prop :=
  dims.map style.print = (dims.map decimalChars).reverse

theorem brackets_fit_iff (style : CountStyle) (dims : List Nat) :
    brackets style dims = brackets .decimal dims.reverse ↔ style.Fits dims := by
  have plain (style : CountStyle) (dims : List Nat) : ∀ count ∈ dims.map style.print, ']' ∉ count := by
    intro count member
    obtain ⟨value, _, rfl⟩ := List.mem_map.mp member
    exact fun inside => (print_plain style value _ inside).2.1 rfl
  have listed (style : CountStyle) (dims : List Nat) :
      brackets style dims = (dims.map style.print).flatMap bracketed := by
    rw [brackets, List.flatMap_map]
  rw [listed, listed, brackets_eq_iff _ _ (plain _ _) (plain _ _), CountStyle.Fits, List.map_reverse]
  rfl

theorem star_not_mem_brackets (style : CountStyle) (dims : List Nat) : '*' ∉ brackets style dims := by
  intro member
  obtain ⟨count, _, inside⟩ := List.mem_flatMap.mp member
  simp only [bracketed, List.mem_cons, List.mem_append, List.not_mem_nil, or_false] at inside
  rcases inside with start | inner | finish
  · exact absurd start (by decide)
  · exact (print_plain style count _ inner).2.2 rfl
  · exact absurd finish (by decide)

/-- The last star of two names cuts them at the same place. -/
theorem starred_eq_iff {first second left right : List Char} (plain : '*' ∉ left) (other : '*' ∉ right) :
    first ++ ['*'] ++ left = second ++ ['*'] ++ right ↔ first = second ∧ left = right := by
  constructor
  · intro same
    have one := splitLast_append first plain
    have two := splitLast_append second other
    simp only [List.append_assoc, List.singleton_append] at same
    rw [same, two] at one
    simpa [eq_comm] using one
  · rintro ⟨rfl, rfl⟩
    rfl

/-- A primitive of the table is spelled as an alias of its name, and a type of
the view that bears the name is that name behind its keyword. -/
theorem built_primitive (view : BinaryView) (listed : entry ∈ prims) (style : CountStyle) (dims : List Nat) :
    canonicalChars (((TypeName.primitive entry listed).built view).spell style view.host.keyword dims) =
      canonicalChars entry.name.toList ++ brackets style dims := by
  have behind : ∀ entry ∈ prims, ∀ keyword ∈ [Keyword.struct, .union, .enum],
      canonicalChars (keyword.text.toList ++ entry.name.toList) = canonicalChars entry.name.toList := by
    decide +kernel
  have found := primitive_of_listed entry listed
  rw [TypeName.built, BinaryView.getTypeByName]
  cases view.types.lookup entry.name with
  | some registered =>
    simp only [Option.map_some, Option.getD_some, BNType.spell, BNType.getString, canonicalChars_brackets]
    cases view.host.keyword entry.name with
    | none => simp
    | some keyword => simp [behind entry listed keyword (by cases keyword <;> simp)]
  | none =>
    have same := primitive_reads_back view.host.keyword found
    have leaf : entry.type.spell style view.host.keyword dims =
        (entry.type.getString view.host.keyword).toList ++ brackets style dims := by
      unfold PrimEntry.type
      repeat' split
      all_goals rfl
    simp only [Option.map_none, Option.getD_none, leaf, canonicalChars_brackets, same]

/-- The spelling of a name's type inside arrays meets the name with the same arrays
behind it exactly when every run of dimensions fits. -/
theorem TypeName.spelled_iff (view : BinaryView) (style : CountStyle) (name : TypeName) (dims : List Nat) :
    canonicalChars ((name.built view).spell style view.host.keyword dims) =
        canonicalChars (name.text ++ brackets .decimal dims.reverse) ↔
      ∀ run ∈ name.runs dims, style.Fits run := by
  induction name generalizing dims with
  | primitive entry listed =>
    rw [built_primitive, TypeName.text, canonicalChars_brackets, List.append_cancel_left_eq,
      brackets_fit_iff]
    simp [TypeName.runs]
  | pointer target gap ih =>
    have here := ih []
    simp only [brackets, List.reverse_nil, List.flatMap_nil, List.append_nil] at here
    rw [TypeName.built, BNType.spell, TypeName.text, canonicalChars_brackets, canonicalChars_brackets,
      canonicalChars_star, canonicalChars_star, canonicalChars_gap,
      starred_eq_iff (star_not_mem_brackets _ _) (star_not_mem_brackets _ _), here, brackets_fit_iff]
    simp only [TypeName.runs, List.forall_mem_cons]
    exact and_comm
  | array element gap count ih =>
    have here := ih (dims ++ [count.value])
    have moved : canonicalChars ((TypeName.array element gap count).text ++ brackets .decimal dims.reverse) =
        canonicalChars (element.text ++ brackets .decimal (dims ++ [count.value]).reverse) := by
      have joined : brackets .decimal (dims ++ [count.value]).reverse =
          bracketed (decimalChars count.value) ++ brackets .decimal dims.reverse := by
        simp [brackets, CountStyle.print]
      rw [joined, TypeName.text, canonicalChars_brackets, ← List.append_assoc, canonicalChars_brackets,
        bracketed, canonicalChars_bracket _ (decimal_plain _), canonicalChars_bracket _ (decimal_plain _),
        canonicalChars_gap]
    rw [TypeName.built, BNType.spell, moved, here, TypeName.runs]

theorem decimal_injective : Function.Injective decimalChars := by
  intro first second same
  rw [decimal_eq, decimal_eq] at same
  calc
    first = Nat.ofDigitChars 10 (Nat.toDigits 10 first) 0 := Nat.ofDigitChars_ten_toDigits.symm
    _ = Nat.ofDigitChars 10 (Nat.toDigits 10 second) 0 := by rw [same]
    _ = second := Nat.ofDigitChars_ten_toDigits

theorem fits_decimal (dims : List Nat) : CountStyle.decimal.Fits dims ↔ dims.reverse = dims := by
  rw [CountStyle.Fits, ← List.map_reverse]
  exact ⟨fun same => (decimal_injective.list_map same).symm, fun same => by rw [same]; rfl⟩

/-- A hexadecimal count is never spelled as a decimal one. -/
theorem fits_hex (dims : List Nat) : CountStyle.hex.Fits dims ↔ dims = [] := by
  constructor
  · intro fits
    by_contra nonempty
    obtain ⟨first, rest, rfl⟩ := List.exists_cons_of_ne_nil nonempty
    have member : CountStyle.hex.print first ∈ (((first :: rest).map decimalChars).reverse) := by
      rw [← fits]
      simp
    obtain ⟨count, _, same⟩ := List.mem_map.mp (List.mem_reverse.mp member)
    have digit := decimal_isDigit count 'x' (by simp [same, CountStyle.print])
    exact absurd digit (by decide)
  · rintro rfl
    rfl

/-- Import and diff agree on a name exactly when every run of its dimensions reads
the same in both directions, where Binary Ninja prints counts in decimal, and
exactly when it has no array at all where it prints them in hexadecimal. -/
theorem import_and_diff_agree_iff (view : BinaryView) (name : TypeName) (hintSize : Int32) :
    ∃ type, resolveTypeName view (String.ofList name.text) hintSize = some type ∧
      (canonicalTypeName (view.render .decimal type) = canonicalTypeName (String.ofList name.text) ↔
        ∀ run ∈ name.runs [], run.reverse = run) ∧
      (canonicalTypeName (view.render .hex type) = canonicalTypeName (String.ofList name.text) ↔
        ∀ run ∈ name.runs [], run = []) := by
  have compared (style : CountStyle) :
      canonicalTypeName (view.render style (name.built view)) = canonicalTypeName (String.ofList name.text) ↔
        ∀ run ∈ name.runs [], style.Fits run := by
    rw [← name.spelled_iff view style [], canonicalTypeName, canonicalTypeName, String.ofList_inj]
    simp [BinaryView.render, brackets]
  refine ⟨name.built view, ?_, ?_, ?_⟩
  · rw [resolveTypeName, String.toList_ofList, name.resolves]
  · simp only [compared, fits_decimal]
  · simp only [compared, fits_hex]

/-- `int[2][3]` comes back as `int32_t[3][2]`, and `int[5]` as `int32_t[0x5]`. -/
theorem array_names_disagree :
    (∃ type, resolveTypeName {} "int[2][3]" = some type ∧
      canonicalTypeName ((({} : BinaryView)).render .decimal type) ≠ canonicalTypeName "int[2][3]") ∧
    ∃ type, resolveTypeName {} "int[5]" = some type ∧
      canonicalTypeName ((({} : BinaryView)).render .hex type) ≠ canonicalTypeName "int[5]" := by
  refine ⟨⟨.array (.array (.integer 4 true) 2) 3, ?_, ?_⟩, ⟨.array (.integer 4 true) 5, ?_, ?_⟩⟩
  all_goals decide +kernel

end GhidraBridge
