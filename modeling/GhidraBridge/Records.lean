import GhidraBridge.Lib.Table

/-! The records that cross the bridge (`GhidraConnection.h`): what an export of
one Ghidra program database holds, and what a check-in sends back. Machine
integers keep their width; a textual tag with a fixed vocabulary is an
enumeration. -/
namespace GhidraBridge

/-- `GhidraSymbolType`: Ghidra's `SymbolType` ordinals as the exporter normalizes them. -/
inductive GhidraSymbolType where
  | label | library | «namespace» | «class» | function | parameter | localVar | globalVar | external
  deriving DecidableEq

inductive GhidraSymbolSource where
  | default | analysis | imported | user
  deriving DecidableEq

structure GhidraSymbol where
  key : Int64 := 0
  name : String := ""
  addr : UInt64 := 0
  type : GhidraSymbolType := .label
  source : GhidraSymbolSource := .default
  namespaceId : Int64 := 0
  deriving DecidableEq

/-- One row of the Comments table. `encodedKey` is the row's encoded address as
text and is only carried along. -/
structure GhidraComment where
  addr : UInt64 := 0
  eol : String := ""
  pre : String := ""
  post : String := ""
  plate : String := ""
  rep : String := ""
  encodedKey : String := ""
  deriving DecidableEq

structure GhidraFuncFlags where
  key : Int64 := 0
  thunk : Bool := false
  noReturn : Bool := false
  isInline : Bool := false
  deriving DecidableEq

structure GhidraFuncSig where
  key : Int64 := 0
  callingConvention : String := ""
  returnTypeName : String := ""
  returnTypeId : Int64 := -1
  deriving DecidableEq

structure GhidraEquateRef where
  addr : UInt64 := 0
  opIndex : Int32 := 0
  deriving DecidableEq

structure GhidraEquate where
  id : Int64 := 0
  name : String := ""
  value : Int64 := 0
  refs : List GhidraEquateRef := []
  deriving DecidableEq

structure GhidraBookmark where
  type : String := ""
  addr : UInt64 := 0
  category : String := ""
  comment : String := ""
  deriving DecidableEq

/-- A parameter (`ordinal` is its index) or a stack local (`ordinal` is its offset). -/
structure GhidraParameter where
  key : Int64 := 0
  funcAddr : UInt64 := 0
  name : String := ""
  isParam : Bool := true
  ordinal : Int32 := 0
  typeName : String := ""
  typeId : Int64 := -1
  deriving DecidableEq

structure GhidraDataTypeMember where
  offset : Int32 := 0
  typeId : Int64 := 0
  name : String := ""
  comment : String := ""
  size : Int32 := 0
  ordinal : Int32 := 0
  typeName : String := ""
  deriving DecidableEq

structure GhidraEnumValue where
  name : String := ""
  value : Int64 := 0
  comment : String := ""
  deriving DecidableEq

/-- The `kind` text of a data type. The exporter writes only the first four;
the parser would accept any text. -/
inductive TypeKind where
  | struct | union | enum | typedef
  | other (text : String)
  deriving DecidableEq

def TypeKind.text : TypeKind → String
  | .struct => "struct"
  | .union => "union"
  | .enum => "enum"
  | .typedef => "typedef"
  | .other text => text

structure GhidraDataType where
  id : Int64 := 0
  kind : TypeKind := .other ""
  name : String := ""
  comment : String := ""
  size : Int32 := 0
  underlyingTypeId : Int64 := 0
  underlyingTypeName : String := ""
  members : List GhidraDataTypeMember := []
  values : List GhidraEnumValue := []
  deriving DecidableEq

structure GhidraDataItem where
  addr : UInt64 := 0
  typeId : Int64 := 0
  deriving DecidableEq

structure GhidraMemoryBlock where
  name : String := ""
  addr : UInt64 := 0
  size : UInt64 := 0
  read : Bool := true
  write : Bool := false
  execute : Bool := false
  initialized : Bool := true
  overlay : Bool := false
  deriving DecidableEq

structure GhidraXrefStats where
  fromCount : Int32 := 0
  toCount : Int32 := 0
  deriving DecidableEq

/-- Everything extracted from one Ghidra program database. -/
structure GhidraDbExport where
  symbols : List GhidraSymbol := []
  comments : List GhidraComment := []
  funcFlags : List GhidraFuncFlags := []
  funcSigs : List GhidraFuncSig := []
  equates : List GhidraEquate := []
  bookmarks : List GhidraBookmark := []
  parameters : List GhidraParameter := []
  dataTypes : List GhidraDataType := []
  dataItems : List GhidraDataItem := []
  memoryBlocks : List GhidraMemoryBlock := []
  xrefStats : GhidraXrefStats := {}
  imageBase : UInt64 := 0
  diag : List String := []

/-- The `op` text of a change. -/
inductive ChangeOp where
  | add | update | delete
  deriving DecidableEq

def ChangeOp.text : ChangeOp → String
  | .add => "add"
  | .update => "update"
  | .delete => "delete"

/-! ## The check-in preview (`GhidraCheckinPreview`) -/

structure SymbolRename where
  key : Int64
  addr : UInt64
  originalName : String
  newName : String
  deriving DecidableEq

structure CommentChange where
  addr : UInt64
  text : String
  encodedKey : String
  deriving DecidableEq

structure EquateRename where
  id : Int64
  name : String
  deriving DecidableEq

structure BookmarkChange where
  op : ChangeOp
  type : String
  addr : UInt64
  category : String
  comment : String
  deriving DecidableEq

/-- An empty `typeName` means the type did not change. -/
structure ParamRename where
  key : Int64
  name : String
  typeName : String
  deriving DecidableEq

structure ChangedMember where
  name : String
  offset : Int32
  size : Int32
  typeName : String
  deriving DecidableEq

structure ChangedValue where
  name : String
  value : Int64
  deriving DecidableEq

structure DataTypeChange where
  op : ChangeOp
  kind : TypeKind
  name : String
  ghidraId : Int64 := 0
  size : Int32 := 0
  underlyingTypeName : String := ""
  members : List ChangedMember := []
  values : List ChangedValue := []
  deriving DecidableEq

structure DataItemChange where
  op : ChangeOp
  addr : UInt64
  typeName : String
  deriving DecidableEq

structure FuncSigChange where
  key : Int64
  callingConvention : String := ""
  returnTypeName : String := ""
  deriving DecidableEq

structure NewSymbol where
  addr : UInt64
  name : String
  isFunction : Bool
  deriving DecidableEq

/-- A named parameter (`ordinal` is its index) or register local (`ordinal` is
Binary Ninja's register index) Ghidra has no record for. -/
structure NewParam where
  funcAddr : UInt64
  ordinal : Int32
  name : String
  typeName : String
  isLocal : Bool
  deriving DecidableEq

structure NewEquateRef where
  equateId : Int64
  addr : UInt64
  opIndex : Int32
  deriving DecidableEq

structure GhidraCheckinPreview where
  renames : List SymbolRename := []
  comments : List CommentChange := []
  equateRenames : List EquateRename := []
  bookmarkChanges : List BookmarkChange := []
  paramRenames : List ParamRename := []
  dataTypeChanges : List DataTypeChange := []
  dataItemChanges : List DataItemChange := []
  funcSigChanges : List FuncSigChange := []
  newSymbols : List NewSymbol := []
  newParams : List NewParam := []
  newEquateRefs : List NewEquateRef := []
  deriving DecidableEq

def GhidraCheckinPreview.empty (preview : GhidraCheckinPreview) : Bool :=
  preview.renames.isEmpty && preview.comments.isEmpty &&
    preview.equateRenames.isEmpty && preview.bookmarkChanges.isEmpty &&
    preview.paramRenames.isEmpty && preview.dataTypeChanges.isEmpty &&
    preview.dataItemChanges.isEmpty && preview.funcSigChanges.isEmpty &&
    preview.newSymbols.isEmpty && preview.newParams.isEmpty &&
    preview.newEquateRefs.isEmpty

end GhidraBridge
