import Mathlib.Data.List.Sort
import GhidraBridge.Json
import GhidraBridge.Lib.Bits

/-! The server's end of an import (`DatabaseExporter.java`): the raw tables of a
program database read into the arrays of an export. Longs keep Java's sign, and
arithmetic on them wraps. A table that is missing is read as an empty one; a
null text is `none`. -/
namespace GhidraBridge
open Lib

/-! ## The tables -/

/-- A record of the Symbols table, whose key is the symbol's id. -/
structure SymbolRow where
  name : Option String
  address : Int64
  namespaceId : Int64 := 0
  type : Int8
  flags : Int8 := 0
  dataTypeId : Option Int64 := none
  varOffset : Int64 := 0

/-- A record of the Comments table, whose key is the encoded address. -/
structure CommentRow where
  eol : Option String := none
  pre : Option String := none
  post : Option String := none
  plate : Option String := none
  rep : Option String := none

structure EquateRow where
  name : Option String
  value : Int64

structure EquateRefRow where
  equateId : Int64
  address : Int64
  opIndex : Int32

structure BookmarkRow where
  address : Int64
  category : Option String := none
  comment : Option String := none

/-- A record of the Bookmark Types table with the table of its bookmarks. -/
structure BookmarkTypeRow where
  name : Option String
  bookmarks : Table Int64 BookmarkRow := ∅

/-- A record of the Data table, whose key is the encoded address. -/
structure DataRow where
  dataTypeId : Int64

/-- The tables the exporters with addresses read. The base of an address map row
is what `readBaseVA` makes of it, and `typeNames` what `buildTypeNameMap` reads
from the data type tables. -/
structure Database where
  addressMap : Table Int64 Int64 := ∅
  symbols : Table Int64 SymbolRow := ∅
  comments : Table Int64 CommentRow := ∅
  equates : Table Int64 EquateRow := ∅
  equateRefs : Table Int64 EquateRefRow := ∅
  bookmarkTypes : Table Int64 BookmarkTypeRow := ∅
  dataItems : Table Int64 DataRow := ∅
  typeNames : Table Int64 String := ∅

/-- A record of the Function Data table, whose key is the function's id. The type id
is that of the column the schema has it in. -/
structure FunctionRow where
  flags : Int8 := 0
  callingConvention : Option String := none
  returnTypeId : Option Int64 := none

/-- A record of the Component Data Types table. -/
structure ComponentRow where
  parentId : Int64
  offset : Int32
  dataTypeId : Int64
  name : Option String := none
  comment : Option String := none
  size : Int32
  ordinal : Int32

/-- A record of the Composite Data Types table. -/
structure CompositeRow where
  name : Option String
  comment : Option String := none
  isUnion : Bool := false
  size : Int32

/-- A record of the Enumeration Values table. -/
structure EnumValueRow where
  enumId : Int64
  name : Option String
  value : Int64
  comment : Option String := none

/-- A record of the Enumeration Data Types table. -/
structure EnumRow where
  name : Option String
  comment : Option String := none
  size : Int8

/-- A record of the Typedefs table. -/
structure TypedefRow where
  name : Option String
  dataTypeId : Option Int64

/-- The tables of an export. Functions have a column for their calling convention
only in the older schema. -/
structure ProgramTables extends Database where
  functions : Table Int64 FunctionRow := ∅
  v2Schema : Bool := false
  components : Table Int64 ComponentRow := ∅
  composites : Table Int64 CompositeRow := ∅
  enumValues : Table Int64 EnumValueRow := ∅
  enums : Table Int64 EnumRow := ∅
  typedefs : Table Int64 TypedefRow := ∅
  fromRefs : Int32 := 0
  toRefs : Int32 := 0

structure MemoryBlock where
  name : String
  start : Int64
  size : Int64
  isRead : Bool := true
  isWrite : Bool := false
  isExecute : Bool := false
  isInitialized : Bool := true
  isOverlay : Bool := false
  inDefaultSpace : Bool := true

/-- The memory of a program that could be opened over the database: its lowest
address, and its blocks up to one that throws. -/
structure OpenedMemory where
  minAddress : Option Int64 := none
  blocks : List MemoryBlock := []

namespace DatabaseExporter

/-! ## Addresses -/

def ramSpacePrefix : Int64 := 0x200000

/-- The upper half of an encoded address. -/
def segKey (encoded : Int64) : Int64 := encoded >>> 32

/-- The lower half of an encoded address. -/
def offset (encoded : Int64) : Int64 := encoded &&& 0xFFFFFFFF

/-- The virtual address of an encoded one, or -1 outside of RAM. -/
def decode (encoded : Int64) (addrMap : Table Int64 Int64) : Int64 :=
  if addrMap.entries.isEmpty then offset encoded
  else
    match addrMap.lookup (segKey encoded) with
    | some base => base + offset encoded
    | none =>
      if segKey encoded >>> 8 = ramSpacePrefix then
        match addrMap.lookup (segKey encoded &&& 0xFF) with
        | some base => base + offset encoded
        | none => -1
      else -1

def addrHex (addr : Int64) : String := toHex addr.toUInt64

def emptyIfNull (text : Option String) : String := text.getD ""

/-- The text of a member; a null text is a null member. -/
def textJson : Option String → Json
  | some text => .str text
  | none => .null

def longJson (value : Int64) : Json := .int value.toInt

/-! ## The exporters, record by record -/

section
variable (addrMap : Table Int64 Int64)

/-- Labels, functions (4 before Ghidra 11, 5 since) and externals. -/
def isExportedType (type : Int8) : Bool := type = 0 || type = 4 || type = 5 || type = 8

def normalizeType (type : Int8) : Int := if type = 5 then 4 else type.toUInt8.toNat

/-- The type and name a symbol needs to be exported. -/
def symbolName (rec : SymbolRow) : Option String :=
  if isExportedType rec.type then rec.name.filter (· ≠ "") else none

/-- A symbol that passes, under its name. -/
def exportSymbolAs (key : Int64) (rec : SymbolRow) (name : String) : Option Json :=
  let va := decode rec.address addrMap
  if va < 0 then none
  else
    some (.obj [("key", longJson key), ("name", .str name), ("addr", .str (addrHex va)),
      ("type", .int (normalizeType rec.type)), ("source", .int ((rec.flags.toInt >>> (6 : Nat)) % 4)),
      ("ns", longJson rec.namespaceId)])

def exportSymbol (key : Int64) (rec : SymbolRow) : Option Json :=
  (symbolName rec).bind (exportSymbolAs addrMap key rec)

/-- The columns of a comment that hold text, in the order they are written. -/
def commentColumns (rec : CommentRow) : List (String × Json) :=
  ([("eol", rec.eol), ("pre", rec.pre), ("post", rec.post), ("plate", rec.plate), ("rep", rec.rep)].filter
    fun column => emptyIfNull column.2 ≠ "").map fun column => (column.1, .str (emptyIfNull column.2))

def exportComment (key : Int64) (rec : CommentRow) : Option Json :=
  if commentColumns rec = [] then none
  else
    let va := decode key addrMap
    if va < 0 then none
    else some (.obj ([("addr", .str (addrHex va)), ("key", .str (addrHex key))] ++ commentColumns rec))

/-- A reference of an equate that exists. -/
def exportEquateRef (rec : EquateRefRow) : Option Json :=
  let va := decode rec.address addrMap
  if va < 0 then none
  else some (.obj [("addr", .str (addrHex va)), ("op_index", .int rec.opIndex.toInt)])

/-- The references of an equate, in table order. -/
def equateRefsOf (db : Database) (id : Int64) : List Json :=
  (db.equateRefs.items.filter fun entry => entry.2.equateId = id).filterMap fun entry =>
    exportEquateRef addrMap entry.2

def exportBookmark (typeName : Option String) (rec : BookmarkRow) : Option Json :=
  let va := decode rec.address addrMap
  if va < 0 then none
  else
    some (.obj [("type", textJson typeName), ("addr", .str (addrHex va)),
      ("category", .str (emptyIfNull rec.category)), ("comment", .str (emptyIfNull rec.comment))])

def exportDataItem (key : Int64) (rec : DataRow) : Option Json :=
  let va := decode key addrMap
  if va < 0 then none
  else some (.obj [("addr", .str (addrHex va)), ("type_id", longJson rec.dataTypeId)])

/-- A parameter (6) or local (7) with a name. -/
def variableName (rec : SymbolRow) : Option String :=
  if rec.type = 6 ∨ rec.type = 7 then rec.name.filter (· ≠ "") else none

def exportParameter (typeNames : Table Int64 String) (key : Int64) (rec : SymbolRow) : Option Json :=
  (variableName rec).bind fun name =>
    let funcVa := decode rec.address addrMap
    if funcVa < 0 then none
    else
      let dataTypeId := rec.dataTypeId.getD (-1)
      let typeName := if dataTypeId < 0 then "" else (typeNames.lookup dataTypeId).getD ""
      some (.obj [("key", longJson key), ("func_addr", .str (addrHex funcVa)), ("name", .str name),
        ("is_param", .bool (rec.type = 6)), ("ordinal", .int rec.varOffset.toInt32.toInt),
        ("type_name", .str typeName), ("type_id", longJson dataTypeId)])

end

/-! ## The arrays -/

section
variable (db : Database)

def exportSymbols : List Json :=
  db.symbols.items.filterMap fun entry => exportSymbol db.addressMap entry.1 entry.2

def exportComments : List Json :=
  db.comments.items.filterMap fun entry => exportComment db.addressMap entry.1 entry.2

/-- Equates with a reference. -/
def exportEquates : List Json :=
  (db.equates.items.filter fun entry => !(equateRefsOf db.addressMap db entry.1).isEmpty).map fun entry =>
    .obj [("id", longJson entry.1), ("name", textJson entry.2.name), ("value", longJson entry.2.value),
      ("refs", .arr (equateRefsOf db.addressMap db entry.1))]

def exportBookmarks : List Json :=
  db.bookmarkTypes.items.flatMap fun type =>
    type.2.bookmarks.items.filterMap fun entry => exportBookmark db.addressMap type.2.name entry.2

def exportDataItems : List Json :=
  db.dataItems.items.filterMap fun entry => exportDataItem db.addressMap entry.1 entry.2

def exportParameters : List Json :=
  db.symbols.items.filterMap fun entry => exportParameter db.addressMap db.typeNames entry.1 entry.2

end

/-! ## Functions and data types -/

section
variable (db : ProgramTables)

def conventionOf (rec : FunctionRow) : String := if db.v2Schema then emptyIfNull rec.callingConvention else ""

/-- The name of a type the database has, or an empty text. -/
def typeNameOf (id : Int64) : String := if id < 0 then "" else (db.typeNames.lookup id).getD ""

/-- A function with a flag, a calling convention or a named return type. -/
def exportFunction (key : Int64) (rec : FunctionRow) : Option Json :=
  let retTypeId := rec.returnTypeId.getD (-1)
  if rec.flags = 0 ∧ conventionOf db rec = "" ∧ typeNameOf db retTypeId = "" then none
  else
    some (.obj [("key", longJson key), ("thunk", .bool (rec.flags &&& 0x01 ≠ 0)),
      ("no_ret", .bool (rec.flags &&& 0x02 ≠ 0)), ("inline", .bool (rec.flags &&& 0x04 ≠ 0)),
      ("cc", .str (conventionOf db rec)), ("ret_type", .str (typeNameOf db retTypeId)),
      ("ret_type_id", longJson retTypeId)])

def exportFunctions : List Json :=
  db.functions.items.filterMap fun entry => exportFunction db entry.1 entry.2

def exportComponent (rec : ComponentRow) : Json :=
  .obj [("offset", .int rec.offset.toInt), ("type_id", longJson rec.dataTypeId),
    ("type_name", .str ((db.typeNames.lookup rec.dataTypeId).getD "")), ("name", .str (emptyIfNull rec.name)),
    ("comment", .str (emptyIfNull rec.comment)), ("size", .int rec.size.toInt), ("ordinal", .int rec.ordinal.toInt)]

/-- The components of a composite, by the sign of the difference of their ordinals. -/
def componentsOf (id : Int64) : List ComponentRow :=
  ((db.components.items.map Prod.snd).filter fun rec => rec.parentId = id).insertionSort fun a b =>
    a.ordinal - b.ordinal ≤ 0

def exportComposite (key : Int64) (rec : CompositeRow) : Json :=
  .obj [("id", longJson key), ("kind", .str (if rec.isUnion then "union" else "struct")),
    ("name", .str (emptyIfNull rec.name)), ("comment", .str (emptyIfNull rec.comment)),
    ("size", .int rec.size.toInt), ("members", .arr ((componentsOf db key).map (exportComponent db)))]

def exportEnumValue (rec : EnumValueRow) : Json :=
  .obj [("name", .str (emptyIfNull rec.name)), ("value", longJson rec.value),
    ("comment", .str (emptyIfNull rec.comment))]

def enumValuesOf (id : Int64) : List EnumValueRow :=
  (db.enumValues.items.map Prod.snd).filter fun rec => rec.enumId = id

/-- A byte without its sign. -/
def enumSize (rec : EnumRow) : Int32 := rec.size.toUInt8.toUInt32.toInt32

def exportEnum (key : Int64) (rec : EnumRow) : Json :=
  .obj [("id", longJson key), ("kind", .str "enum"), ("name", .str (emptyIfNull rec.name)),
    ("comment", .str (emptyIfNull rec.comment)), ("size", .int (enumSize rec).toInt),
    ("values", .arr ((enumValuesOf db key).map exportEnumValue))]

/-- The size of a composite or an enum. -/
def sizeOfType (id : Int64) : Int32 :=
  ((db.enums.lookup id).map enumSize).getD (((db.composites.lookup id).map CompositeRow.size).getD 0)

def exportTypedef (key : Int64) (rec : TypedefRow) : Json :=
  let underlyingId := rec.dataTypeId.getD (-1)
  .obj [("id", longJson key), ("kind", .str "typedef"), ("name", .str (emptyIfNull rec.name)),
    ("underlying_type_id", longJson underlyingId), ("underlying_name", .str (typeNameOf db underlyingId)),
    ("size", .int (sizeOfType db underlyingId).toInt)]

def exportDataTypes : List Json :=
  (db.composites.items.map fun entry => exportComposite db entry.1 entry.2) ++
  (db.enums.items.map fun entry => exportEnum db entry.1 entry.2) ++
  (db.typedefs.items.map fun entry => exportTypedef db entry.1 entry.2)

end

/-! ## The export -/

def exportMemoryBlock (b : MemoryBlock) : Json :=
  .obj [("name", .str b.name), ("addr", .str (addrHex b.start)), ("size", .str (addrHex b.size)),
    ("r", .bool b.isRead), ("w", .bool b.isWrite), ("x", .bool b.isExecute),
    ("initialized", .bool b.isInitialized), ("overlay", .bool (b.isOverlay || !b.inDefaultSpace))]

def exportMemoryBlocks (memory : OpenedMemory) : List Json := memory.blocks.map exportMemoryBlock

def exportCrossRefStats (db : ProgramTables) : Json :=
  .obj [("from_count", .int db.fromRefs.toInt), ("to_count", .int db.toRefs.toInt)]

/-- The base of the first row of the address map; for a program that has none, its
lowest address. -/
def imageBase (db : ProgramTables) (program : Option OpenedMemory) : Int64 :=
  let base := (db.addressMap.lookup 0).getD 0
  if base = 0 then ((program.bind OpenedMemory.minAddress).getD base) else base

/-- `export`. There is no memory where the program cannot be opened. -/
def exportDatabase (db : ProgramTables) (program : Option OpenedMemory) : List (String × Json) := [
  ("image_base", .str (addrHex (imageBase db program))),
  ("symbols", .arr (exportSymbols db.toDatabase)),
  ("comments", .arr (exportComments db.toDatabase)),
  ("func_flags", .arr (exportFunctions db)),
  ("equates", .arr (exportEquates db.toDatabase)),
  ("bookmarks", .arr (exportBookmarks db.toDatabase)),
  ("parameters", .arr (exportParameters db.toDatabase)),
  ("data_types", .arr (exportDataTypes db)),
  ("data_items", .arr (exportDataItems db.toDatabase)),
  ("memory_blocks", .arr ((program.map exportMemoryBlocks).getD [])),
  ("xref_stats", exportCrossRefStats db)]

end DatabaseExporter
end GhidraBridge
