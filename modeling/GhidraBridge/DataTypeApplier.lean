import GhidraBridge.ProgramApplier
import GhidraBridge.CheckinJson

/-! The data types of a program and the array of a check-in that changes them
(`applyDataTypes` of `ProgramApplier.java`). The change of a type is a new type built
from the entry alone, which replaces the one of its name in the root category. What
Ghidra's own classes do while a type is built is given by a library; nothing stands
for an exception. Ghidra's own changes to the types that refer to a replaced or
removed one are no part of it. -/
namespace GhidraBridge
open Lib

/-- A data type as a member or a typedef refers to it. -/
inductive DataTypeRef where
  | stored (category name : String)
  | parsed (text : String)
  | undefined (size : Int32)
  deriving DecidableEq

structure Component where
  fieldName : Option String
  offset : Int32
  length : Int32
  dataType : DataTypeRef
  comment : Option String
  deriving DecidableEq

/-- The components of a structure or union. -/
structure Layout where
  length : Int32 := 0
  components : List Component := []
  deriving DecidableEq

structure EnumEntry where
  name : String
  value : Int64
  comment : Option String
  deriving DecidableEq

inductive TypeContent where
  | composite (isUnion : Bool) (layout : Layout)
  | enumeration (length : Int32) (entries : List EnumEntry)
  | typedef (target : DataTypeRef)
  deriving DecidableEq

structure DataTypeRecord where
  id : Int64
  description : String := ""
  content : TypeContent
  deriving DecidableEq

/-- The types of a program, by category and name. -/
abbrev DataTypeManager := Table (String × String) DataTypeRecord

/-- The root category. -/
def rootCategory : String := "/"

/-- Ghidra's part in the building of a type. -/
structure TypeLibrary where
  isLetterOrDigit : Char → Bool
  /-- `DataTypeParser`. -/
  parse : DataTypeManager → String → Option DataTypeRef
  getLength : DataTypeManager → DataTypeRef → Int32
  insertAtOffset : Layout → Int32 → DataTypeRef → Int32 → Option String → Option String → Option Layout
  add : Layout → DataTypeRef → Int32 → Option String → Option String → Option Layout
  addToUnion : Layout → DataTypeRef → Int32 → Option String → Option String → Option Layout
  growStructure : Layout → Int32 → Layout
  /-- `getLength` of a structure. -/
  structureLength : Layout → Int32
  /-- `add` of an enum of some length. -/
  addEntry : Int32 → List EnumEntry → String → Int64 → Option String → Option (List EnumEntry)
  newId : DataTypeManager → Int64

namespace DataTypeManager

def getDataType (manager : DataTypeManager) (name : String) : Option DataTypeRecord :=
  manager.lookup (rootCategory, name)

/-- `addDataType` with the replace handler: a type of the name keeps its id and
nothing else. -/
def addDataType (lib : TypeLibrary) (manager : DataTypeManager) (name : String) (content : TypeContent) :
    DataTypeManager × Int64 :=
  let id := ((manager.getDataType name).map DataTypeRecord.id).getD (lib.newId manager)
  (manager.set (rootCategory, name) { id, content }, id)

end DataTypeManager

namespace ProgramApplier
variable (lib : TypeLibrary) (manager : DataTypeManager)

/-! ## Type names -/

def stdintToGhidra : List (String × String) := [
  ("int8_t", "sbyte"), ("uint8_t", "byte"), ("int16_t", "short"), ("uint16_t", "ushort"),
  ("int32_t", "int"), ("uint32_t", "uint"), ("int64_t", "longlong"), ("uint64_t", "ulonglong"),
  ("size_t", "ulonglong"), ("ssize_t", "longlong"), ("intptr_t", "longlong"), ("uintptr_t", "ulonglong")]

/-- `trim`. -/
def trim (text : List Char) : List Char :=
  ((text.dropWhile fun c => c.toNat ≤ 32).reverse.dropWhile fun c => c.toNat ≤ 32).reverse

def normalizePrimitives (type : List Char) : List Char :=
  let isName := fun c => lib.isLetterOrDigit c || c = '_'
  match stdintToGhidra.lookup (String.ofList (type.takeWhile isName)) with
  | some mapped => mapped.toList ++ type.dropWhile isName
  | none => type

/-- What separates the base of a type name from its suffixes. -/
def isDelimiter (c : Char) : Bool :=
  c = ' ' || c = '\t' || c = '\n' || c = '\x0b' || c = '\x0c' || c = '\r' || c = '*' || c = '[' || c = '<'

/-- The first part of a split text; a text of delimiters only has no part. -/
def splitHead (text : List Char) : Option (List Char) :=
  if text ≠ [] ∧ text.all isDelimiter = true then none else some (text.takeWhile fun c => !isDelimiter c)

def storedRef (name : String) : Option DataTypeRef :=
  (manager.getDataType name).map fun _ => .stored rootCategory name

def resolveDataType (name : String) : Option (Option DataTypeRef) :=
  if name = "" then some none
  else
    let trimmed := normalizePrimitives lib (trim name.toList)
    match storedRef manager (String.ofList trimmed) with
    | some found => some (some found)
    | none =>
      match lib.parse manager (String.ofList trimmed) with
      | some parsed => some (some parsed)
      | none =>
        (splitHead trimmed).map fun stripped =>
          if stripped = trimmed then none else storedRef manager (String.ofList stripped)

/-! ## Building a type -/

def intOr (c : Json) (key : String) (dflt : Int32) : Option Int32 :=
  match c.get? key with
  | some member => member.getAsInt
  | none => some dflt

/-- An array that may be missing. -/
def arrayOr (c : Json) (key : String) : Option (List Json) :=
  match c.get? key with
  | none => some []
  | some (.arr items) => some items
  | some _ => none

/-- The type of a member, or undefined bytes for one that does not resolve. -/
def memberDataType (typeName : String) (size : Int32) : Option DataTypeRef :=
  (resolveDataType lib manager typeName).map fun found =>
    found.getD (.undefined (if 0 < size then size else 1))

/-- One member of a structure. A member that cannot be placed is skipped. -/
def placeMember (s : Layout) (mel : Json) : Option Layout :=
  if mel.isObject = false then none
  else do
    let name ← mel.getStr "name" ""
    let typeName ← mel.getStr "type_name" ""
    let comment ← mel.getStr "comment" ""
    let size ← intOr mel "size" 0
    let offset ← intOr mel "offset" (-1)
    let dataType ← memberDataType lib manager typeName size
    let length := if 0 < size then size else lib.getLength manager dataType
    let placed := if 0 ≤ offset then
        lib.insertAtOffset s offset dataType length (nullIfEmpty name) (nullIfEmpty comment)
      else lib.add s dataType length (nullIfEmpty name) (nullIfEmpty comment)
    return placed.getD s

/-- One member of a union. -/
def addUnionMember (u : Layout) (mel : Json) : Option Layout :=
  if mel.isObject = false then none
  else do
    let name ← mel.getStr "name" ""
    let typeName ← mel.getStr "type_name" ""
    let comment ← mel.getStr "comment" ""
    let size ← intOr mel "size" 0
    let dataType ← memberDataType lib manager typeName size
    let length := if 0 < size then size else lib.getLength manager dataType
    return (lib.addToUnion u dataType length (nullIfEmpty name) (nullIfEmpty comment)).getD u

/-- One value of an enum. -/
def addValue (length : Int32) (entries : List EnumEntry) (vel : Json) : Option (List EnumEntry) :=
  if vel.isObject = false then none
  else do
    let name ← vel.getStr "name" ""
    let value ← match vel.get? "value" with
      | some member => member.getAsLong
      | none => some 0
    let comment ← vel.getStr "comment" ""
    if name = "" then return entries
    return (lib.addEntry length entries name value (nullIfEmpty comment)).getD entries

/-- The length of a new enum, which has one to eight bytes. -/
def enumLength (size : Int32) : Option Int32 :=
  let length := if 0 < size then size else 4
  if length ≤ 8 then some length else none

/-- The new type of an entry; there is none of an unknown kind, nor of a typedef whose
target does not resolve. -/
def rebuild (kind : String) (c : Json) : Option TypeContent :=
  if kind = "struct" then do
    let size ← intOr c "size" 0
    let members ← arrayOr c "members"
    let s ← members.foldlM (placeMember lib manager) {}
    let length := lib.structureLength s
    return .composite false (if length < size then lib.growStructure s (size - length) else s)
  else if kind = "union" then do
    let members ← arrayOr c "members"
    let u ← members.foldlM (addUnionMember lib manager) {}
    return .composite true u
  else if kind = "enum" then do
    let size ← intOr c "size" 4
    let length ← enumLength size
    let values ← arrayOr c "values"
    let entries ← values.foldlM (addValue lib length) []
    return .enumeration length entries
  else if kind = "typedef" then do
    let under ← c.getStr "underlying_type_name" ""
    let found ← resolveDataType lib manager under
    found.map .typedef
  else none

/-- Bytes added behind the members come to the declared size. -/
theorem grown_to {lib : TypeLibrary}
    (grow : ∀ s amount, 0 < amount → lib.growStructure s amount = { s with length := s.length + amount }) {s : Layout}
    {size : Int32} (nonneg : 0 ≤ s.length) (within : s.length ≤ size) :
    (if s.length < size then lib.growStructure s (size - s.length) else s) = { s with length := size } := by
  by_cases more : s.length < size
  · have amount : 0 < size - s.length := by
      have bound := Int32.toInt_lt size
      rw [Int32.lt_iff_toInt_lt] at more
      rw [Int32.le_iff_toInt_le, Int32.toInt_zero] at nonneg
      rw [Int32.lt_iff_toInt_lt, Int32.toInt_sub, Int32.toInt_zero, Int.bmod_eq_of_le] <;> omega
    have sum : s.length + (size - s.length) = size := by rw [Int32.add_comm, Int32.sub_add_cancel]
    rw [if_pos more, grow s _ amount, sum]
  · rw [if_neg more, Int32.le_antisymm (Int32.not_lt.mp more) within]

/-! ## The two passes -/

/-- An empty type for a name the root category does not have. -/
def stubContent (kind : String) (c : Json) : Option TypeContent :=
  if kind = "struct" then
    (intOr c "size" 0).bind fun size => if size < 0 then none else some (.composite false { length := size })
  else if kind = "union" then some (.composite true {})
  else if kind = "enum" then
    (intOr c "size" 4).bind fun size => (enumLength size).map fun length => .enumeration length []
  else none

/-- One entry of the first pass. -/
def applyStub (manager : DataTypeManager) (el : Json) : Option DataTypeManager :=
  if el.isObject = false then none
  else do
    let op ← el.getStr "op" "add"
    let kind ← el.getStr "kind" ""
    let name ← el.getStr "name" ""
    if name = "" ∨ op = "delete" then return manager
    match manager.getDataType name, stubContent kind el with
    | none, some content => return (manager.addDataType lib name content).1
    | _, _ => return manager

structure TypesApplied where
  manager : DataTypeManager
  added : Table String Int64 := ∅
  count : Nat := 0

/-- One entry of the second pass. -/
def applyTypeChange (applied : TypesApplied) (el : Json) : Option TypesApplied :=
  if el.isObject = false then none
  else do
    let op ← el.getStr "op" "add"
    let kind ← el.getStr "kind" ""
    let name ← el.getStr "name" ""
    if name = "" then return applied
    if op = "delete" then
      return { applied with manager := applied.manager.erase (rootCategory, name), count := applied.count + 1 }
    match rebuild lib applied.manager kind el with
    | none => return applied
    | some content =>
      let result := applied.manager.addDataType lib name content
      return {
        manager := result.1
        added := if op = "add" then applied.added.set name result.2 else applied.added
        count := applied.count + 1 }

def applyDataTypes (changes : List Json) : Option TypesApplied := do
  let stubbed ← changes.foldlM (applyStub lib) manager
  changes.foldlM (applyTypeChange lib) { manager := stubbed }

end ProgramApplier
end GhidraBridge
