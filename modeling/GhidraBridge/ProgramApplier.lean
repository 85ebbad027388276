import GhidraBridge.DatabaseExporter

/-! The server's end of a check-in (`ProgramApplier.java`): the cleanup of the
Symbols table it starts with, and the arrays of a request applied to a program.
A value of a request that is not what the bridge asks for makes it throw, which
rolls the whole check-in back; where the source swallows the exception, the
entry is skipped. -/
namespace GhidraBridge
open Lib

namespace Json

/-- `getAsString` of a primitive; anything else throws. Numbers with a fraction
never stand where a text is asked for. -/
def getAsString : Json → Option String
  | .str text => some text
  | .bool value => some (toString value)
  | .int value => some (toString value)
  | _ => none

/-- A run of decimal digits. -/
def parseDecimal (text : List Char) : Option Nat :=
  if text = [] then none
  else text.foldlM (fun value c => if c.isDigit then some (10 * value + (c.toNat - '0'.toNat)) else none) 0

/-- `parseLong`; nothing where it throws. -/
def parseLong (text : String) : Option Int64 :=
  match text.toList with
  | '-' :: digits => (parseDecimal digits).bind fun n => if n ≤ 2 ^ 63 then some (Int64.ofInt (-n)) else none
  | '+' :: digits | digits => (parseDecimal digits).bind fun n => if n < 2 ^ 63 then some (Int64.ofNat n) else none

/-- `getAsLong`: any number, or a text that spells one. -/
def getAsLong : Json → Option Int64
  | .int value => some (Int64.ofInt value)
  | .float truncated => some truncated
  | .str text => parseLong text
  | _ => none

/-- `getAsInt`, the low half of the long. -/
def getAsInt (json : Json) : Option Int32 := json.getAsLong.map Int64.toInt32

theorem getAsLong_toInt (value : Int64) : (Json.int value.toInt).getAsLong = some value :=
  congrArg some (Int64.ofInt_toInt value)

theorem getAsInt_toInt (value : Int32) : (Json.int value.toInt).getAsInt = some value := by
  rw [getAsInt, getAsLong, Option.map_some, Int64.ofInt_int32ToInt, Int32.toInt32_toInt64]

/-- `getStr`. -/
def getStr (obj : Json) (key dflt : String) : Option String :=
  match obj.get? key with
  | some member => member.getAsString
  | none => some dflt

end Json

/-- The default address space of a program, by the offsets it has. -/
structure AddressSpace where
  contains : UInt64 → Bool := fun _ => true

namespace AddressSpace

/-- An offset the space has. -/
abbrev Address (space : AddressSpace) := { offset : UInt64 // space.contains offset = true }

/-- An address of the space that has every offset. -/
def flat (offset : UInt64) : Address {} := ⟨offset, rfl⟩

/-- `getAddress`; nothing where it throws. -/
def getAddress (space : AddressSpace) (offset : UInt64) : Option space.Address :=
  if inside : space.contains offset = true then some ⟨offset, inside⟩ else none

theorem getAddress_eq_some {space : AddressSpace} {offset : UInt64} {addr : space.Address} :
    space.getAddress offset = some addr ↔ addr.val = offset := by
  unfold getAddress
  split
  · rename_i inside
    rw [Option.some.injEq, Subtype.ext_iff, eq_comm]
  · rename_i outside
    refine ⟨fun found => (nomatch found), ?_⟩
    rintro rfl
    exact absurd addr.property outside

theorem ne_of_getAddress_eq_none {space : AddressSpace} {offset : UInt64}
    (missing : space.getAddress offset = none) (addr : space.Address) : addr.val ≠ offset := by
  rintro rfl
  rw [getAddress_eq_some.mpr rfl] at missing
  cases missing

end AddressSpace

/-- The columns of the Comments table. -/
inductive CommentType where
  | eol | pre | post | plate | repeatable
  deriving DecidableEq

/-- The member of a comment entry that holds the column. -/
def CommentType.field : CommentType → String
  | .eol => "eol"
  | .pre => "pre"
  | .post => "post"
  | .plate => "plate"
  | .repeatable => "rep"

/-- The parts of a program the modelled arrays are applied to. There is at most
one comment per address and column, and one bookmark per address, type and
category. -/
structure ProgramDB (space : AddressSpace) where
  comments : Table (space.Address × CommentType) String := ∅
  bookmarks : Table (space.Address × String × String) String := ∅

/-- A program and the number of entries applied to it. -/
structure Applied (space : AddressSpace) where
  program : ProgramDB space
  count : Nat := 0

/-- The comment a column has at an offset, if the space has the offset. -/
def ProgramDB.commentAt {space : AddressSpace} (program : ProgramDB space) (va : UInt64) (type : CommentType) :
    Option String :=
  (space.getAddress va).bind fun addr => program.comments.lookup (addr, type)

/-- The comment of the bookmark of an offset, type and category. -/
def ProgramDB.bookmarkAt {space : AddressSpace} (program : ProgramDB space) (va : UInt64)
    (type category : String) : Option String :=
  (space.getAddress va).bind fun addr => program.bookmarks.lookup (addr, type, category)

/-- An array of a request; a missing one applies nothing. -/
def requestArray (body : List (String × Json)) (key : String) : List Json :=
  match body.lookup key with
  | some (.arr items) => items
  | _ => []

namespace ProgramApplier
variable {space : AddressSpace}

/-! ## Cleanup -/

/-- What the program's address map makes of an encoded address. -/
inductive DecodedAddress where
  | memory (offset : Int64)
  | variable
  | other
  deriving DecidableEq

/-- A parameter or local whose address is no variable's; `decodeAddress` gives
nothing where it throws or returns null. -/
def isBadVariable (decodeAddress : Int64 → Option DecodedAddress) (r : SymbolRow) : Bool :=
  (r.type = 6 || r.type = 7) && decodeAddress r.address ≠ some .variable

def cleanupBadVariableSymbols (decodeAddress : Int64 → Option DecodedAddress) (symbols : Table Int64 SymbolRow) :
    Table Int64 SymbolRow :=
  let toDelete := (symbols.items.filter fun entry => isBadVariable decodeAddress entry.2).map Prod.fst
  toDelete.foldl (fun current key => current.erase key) symbols

/-! ## Comments -/

def nullIfEmpty (text : String) : Option String := if text = "" then none else some text

/-- `setComment`; no text takes the comment out. -/
def setComment (program : ProgramDB space) (addr : space.Address) (type : CommentType) (text : Option String) :
    ProgramDB space :=
  match text with
  | some text => { program with comments := program.comments.set (addr, type) text }
  | none => { program with comments := program.comments.erase (addr, type) }

/-- Set the columns an entry has, up to one whose value throws. -/
def setColumns (addr : space.Address) (c : Json) : List CommentType → ProgramDB space → ProgramDB space × Bool
  | [], program => (program, true)
  | type :: rest, program =>
    match c.get? type.field with
    | none => setColumns addr c rest program
    | some member =>
      match member.getAsString with
      | none => (program, false)
      | some text => setColumns addr c rest (setComment program addr type (nullIfEmpty text))

/-- One entry of the comments array. An entry with only a key is of an older
format and skipped. -/
def applyComment (applied : Applied space) (el : Json) : Option (Applied space) :=
  if el.isObject = false then none
  else
    match el.get? "va" with
    | none => some applied
    | some member =>
      (member.getAsString.bind parseHexLong).map fun va =>
        match space.getAddress va with
        | none => applied
        | some addr =>
          let written := setColumns addr el [.eol, .pre, .post, .plate, .repeatable] applied.program
          { program := written.1, count := applied.count + (if written.2 then 1 else 0) }

def applyComments (program : ProgramDB space) (comments : List Json) : Option (Applied space) :=
  comments.foldlM applyComment { program }

/-! ## Bookmarks -/

/-- `getBookmarks(addr, type)`, by their keys. -/
def getBookmarks (program : ProgramDB space) (addr : space.Address) (type : String) :
    List (space.Address × String × String) :=
  (program.bookmarks.items.map Prod.fst).filter fun key => key.1 = addr && key.2.1 = type

def removeBookmark (program : ProgramDB space) (key : space.Address × String × String) : ProgramDB space :=
  { program with bookmarks := program.bookmarks.erase key }

/-- `setBookmark`: replaces or makes the bookmark of that address, type and category. -/
def setBookmark (program : ProgramDB space) (addr : space.Address) (type category comment : String) :
    ProgramDB space :=
  { program with bookmarks := program.bookmarks.set (addr, type, category) comment }

/-- What a decoded entry does at its address. -/
def changeBookmark (program : ProgramDB space) (addr : space.Address) (op type category comment : String) :
    ProgramDB space :=
  if op = "delete" then (getBookmarks program addr type).foldl removeBookmark program
  else setBookmark program addr type category comment

/-- One entry of the bookmark array. A missing address counts as negative. -/
def applyBookmark (applied : Applied space) (el : Json) : Option (Applied space) :=
  if el.isObject = false then none
  else do
    let op ← el.getStr "op" "add"
    let type ← el.getStr "type" "Note"
    let category ← el.getStr "category" ""
    let comment ← el.getStr "comment" ""
    let va ← match el.get? "addr" with
      | some member => member.getAsString.bind parseHexLong
      | none => some (-1)
    if va.toInt64 < 0 then return applied
    match space.getAddress va with
    | none => return applied
    | some addr =>
      return { program := changeBookmark applied.program addr op type category comment, count := applied.count + 1 }

def applyBookmarks (program : ProgramDB space) (bookmarkChanges : List Json) : Option (Applied space) :=
  bookmarkChanges.foldlM applyBookmark { program }

end ProgramApplier
end GhidraBridge
