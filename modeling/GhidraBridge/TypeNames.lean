import GhidraBridge.Lib.Scan
import GhidraBridge.BinaryView
import Mathlib.Data.Nat.Digits.Defs

/-! Type names as text. `resolveTypeName` reads a Ghidra name into a Binary
Ninja type while a database is imported (`SyncEngine.cpp`); `canonicalTypeName`
folds the spellings of both tools together when a check-in compares them
(`GhidraConnection.cpp`). Both work on the characters of the name. -/
namespace GhidraBridge
open Lib.Scan

/-- `isspace` in the C locale. -/
def isSpace (c : Char) : Bool :=
  c = ' ' || c = '\t' || c = '\n' || c.toNat = 11 || c.toNat = 12 || c = '\r'

/-- `std::stoull`: blanks, a sign, a run of decimal digits and anything behind
it; `none` where it throws. A minus sign negates modulo 2^64. -/
def stoull (text : List Char) : Option Nat :=
  let body := text.dropWhile isSpace
  let negative := body.head? = some '-'
  let signed := negative ∨ body.head? = some '+'
  let run := (if signed then body.tail else body).takeWhile Char.isDigit
  let value := Nat.ofDigitChars 10 run 0
  if run = [] then none
  else if 2 ^ 64 ≤ value then none
  else if negative then some ((2 ^ 64 - value) % 2 ^ 64)
  else some value

/-- A row of `resolveTypeName`'s table of Ghidra primitives. -/
structure PrimEntry where
  name : String
  width : Nat
  isSigned : Bool
  isFloat : Bool
  deriving DecidableEq

def prims : List PrimEntry := [
  ⟨"void", 0, false, false⟩,
  ⟨"bool", 1, false, false⟩,
  ⟨"char", 1, true, false⟩,
  ⟨"uchar", 1, false, false⟩,
  ⟨"byte", 1, false, false⟩,
  ⟨"sbyte", 1, true, false⟩,
  ⟨"short", 2, true, false⟩,
  ⟨"ushort", 2, false, false⟩,
  ⟨"word", 2, false, false⟩,
  ⟨"int", 4, true, false⟩,
  ⟨"uint", 4, false, false⟩,
  ⟨"dword", 4, false, false⟩,
  ⟨"long", 4, true, false⟩,
  ⟨"ulong", 4, false, false⟩,
  ⟨"longlong", 8, true, false⟩,
  ⟨"ulonglong", 8, false, false⟩,
  ⟨"qword", 8, false, false⟩,
  ⟨"int8_t", 1, true, false⟩,
  ⟨"uint8_t", 1, false, false⟩,
  ⟨"int16_t", 2, true, false⟩,
  ⟨"uint16_t", 2, false, false⟩,
  ⟨"int32_t", 4, true, false⟩,
  ⟨"uint32_t", 4, false, false⟩,
  ⟨"int64_t", 8, true, false⟩,
  ⟨"uint64_t", 8, false, false⟩,
  ⟨"float", 4, false, true⟩,
  ⟨"double", 8, false, true⟩,
  ⟨"long double", 10, false, true⟩,
  ⟨"float16", 2, false, true⟩]

def PrimEntry.type (prim : PrimEntry) : BNType :=
  if prim.width = 0 then .void
  else if prim.isFloat then .float prim.width
  else if prim.name = "bool" then .bool
  else .integer prim.width prim.isSigned

def primitive? (name : String) : Option BNType :=
  (prims.find? fun prim => prim.name = name).map PrimEntry.type

/-- The generic integer a size hint stands for. -/
def hinted (hintSize : Int32) : Option BNType :=
  if 0 < hintSize ∧ hintSize ≤ 16 then some (.integer hintSize.toNatClampNeg false) else none

/-- The name without its last character when that is a `*` behind trailing
blanks: the pointee's name, itself right-trimmed. -/
def pointee? (name : List Char) : Option (List Char) :=
  if (rtrim name).getLast? = some '*' then some (rtrim (rtrim name).dropLast) else none

/-- Element name and count text of `Element[count]`. -/
def element? (name : List Char) : Option (List Char × List Char) :=
  if name.getLast? = some ']' then
    (splitLast '[' name).map fun parts => (rtrim parts.1, parts.2.dropLast)
  else none

theorem pointee_shorter (found : pointee? name = some base) : base.length < name.length := by
  unfold pointee? at found
  split at found
  · rename_i star
    cases found
    have nonempty : 0 < (rtrim name).length := by
      rw [List.length_pos_iff]
      intro empty
      simp [empty] at star
    have inner := length_rtrim_le (rtrim name).dropLast
    have outer := length_rtrim_le name
    rw [List.length_dropLast] at inner
    omega
  · cases found

theorem element_shorter (found : element? name = some (elem, count)) : elem.length < name.length := by
  unfold element? at found
  split at found
  · simp only [Option.map_eq_some_iff, Prod.mk.injEq, Prod.exists] at found
    obtain ⟨before, after, cut, rfl, -⟩ := found
    obtain ⟨rfl, -⟩ := splitLast_eq_some.mp cut
    have shorter := length_rtrim_le before
    simp only [List.length_append, List.length_cons]
    omega
  · cases found

/-- `resolveTypeName` on the characters of the name. A pointer or an array is
resolved through its base; any other name is a type of the view, a primitive,
or an integer of the hinted size. -/
def resolveChars (view : BinaryView) (name : List Char) (hintSize : Int32) : Option BNType :=
  if name = [] then none
  else
    match _pointer : pointee? name with
    | some base =>
      let inner := if base = [] then some .void else resolveChars view base 0
      some (.pointer view.addressSize (inner.getD .void))
    | none =>
      let asArray :=
        match _array : element? name with
        | some (elem, countStr) =>
          let count := (stoull countStr).getD 0
          if 0 < count ∧ elem ≠ [] then
            (resolveChars view elem 0).map fun inner => BNType.array inner count
          else none
        | none => none
      asArray.or <|
        (view.getTypeByName (String.ofList name)).or <|
          (primitive? (String.ofList name)).or (hinted hintSize)
termination_by name.length
decreasing_by
  · exact pointee_shorter _pointer
  · exact element_shorter _array

def resolveTypeName (view : BinaryView) (typeName : String) (hintSize : Int32 := 0) : Option BNType :=
  resolveChars view typeName.toList hintSize

/-- The keywords the comparison strips, each with its trailing blank. -/
def elaborated : List (List Char) :=
  ["struct ".toList, "union ".toList, "enum ".toList, "class ".toList, "const ".toList,
    "volatile ".toList]

/-- One round of the stripping loop: each keyword in turn, once. -/
def stripRound (text : List Char) : List Char :=
  elaborated.foldl (fun s kw => if kw.isPrefixOf s then s.drop kw.length else s) text

/-- Rounds until one of them strips nothing. -/
def stripKeywords (text : List Char) : List Char :=
  if (stripRound text).length < text.length then stripKeywords (stripRound text) else text
termination_by text.length

/-- Binary Ninja's fixed-width names and Ghidra's storage aliases, onto one
name per width and signedness. -/
def aliases : List (String × String) := [
  ("int8_t", "sbyte"), ("uint8_t", "byte"),
  ("int16_t", "short"), ("uint16_t", "ushort"),
  ("int32_t", "int"), ("uint32_t", "uint"),
  ("int64_t", "longlong"), ("uint64_t", "ulonglong"),
  ("size_t", "ulonglong"), ("ssize_t", "longlong"),
  ("intptr_t", "longlong"), ("uintptr_t", "ulonglong"),
  ("char", "sbyte"), ("uchar", "byte"),
  ("word", "ushort"), ("dword", "uint"), ("qword", "ulonglong"),
  ("long", "int"), ("ulong", "uint")]

def foldAlias (text : List Char) : List Char :=
  ((aliases.lookup (String.ofList text)).map String.toList).getD text

/-- A name cut before its last `*`, or before the last `[` when it ends in `]`. -/
def suffixed? (s : List Char) : Option (List Char × List Char) :=
  if s.getLast? = some '*' then some (s.dropLast, ['*'])
  else if s.getLast? = some ']' then (splitLast '[' s).map fun parts => (parts.1, '[' :: parts.2)
  else none

theorem suffixed_append (found : suffixed? s = some (base, suffix)) : s = base ++ suffix ∧ suffix ≠ [] := by
  unfold suffixed? at found
  split at found
  · rename_i star
    cases found
    refine ⟨?_, List.cons_ne_nil _ _⟩
    exact (List.dropLast_append_getLast? '*' star).symm
  · split at found
    · simp only [Option.map_eq_some_iff, Prod.mk.injEq, Prod.exists] at found
      obtain ⟨before, after, cut, rfl, rfl⟩ := found
      exact ⟨(splitLast_eq_some.mp cut).1, List.cons_ne_nil _ _⟩
    · cases found

theorem suffixed_shorter (found : suffixed? (trim raw) = some (base, suffix)) : base.length < raw.length := by
  obtain ⟨same, nonempty⟩ := suffixed_append found
  have total := congrArg List.length same
  have shorter := length_trim_le raw
  have positive := List.length_pos_iff.mpr nonempty
  rw [List.length_append] at total
  omega

/-- `canonicalTypeName` on the characters of the name: outer blanks go, a
pointer or array keeps its suffix behind the canonical base, and the innermost
name loses its keywords and is folded through the aliases. -/
def canonicalChars (raw : List Char) : List Char :=
  if trim raw = [] then []
  else
    match _cut : suffixed? (trim raw) with
    | some (base, suffix) => canonicalChars base ++ suffix
    | none => foldAlias (stripKeywords (trim raw))
termination_by raw.length
decreasing_by exact suffixed_shorter _cut

def canonicalTypeName (raw : String) : String := String.ofList (canonicalChars raw.toList)

/-- Leading underscores of a calling convention's name carry no meaning. -/
def canonicalCCName (raw : String) : String := String.ofList (raw.toList.dropWhile (· = '_'))

end GhidraBridge
