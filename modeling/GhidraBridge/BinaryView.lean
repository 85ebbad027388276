import GhidraBridge.Records

/-! The Binary Ninja view the plugin reads and writes. Only what the plugin
calls is here, one operation per API call and under the API's name. Background
analysis is not a step of this model: `UpdateAnalysis` schedules it and returns,
and a view that the user leaves alone is the same view. -/
namespace GhidraBridge
open Lib

/-- The elaborated keyword Binary Ninja may print before the name of a type. -/
inductive Keyword where
  | struct | union | enum
  deriving DecidableEq

def Keyword.text : Keyword → String
  | .struct => "struct "
  | .union => "union "
  | .enum => "enum "

/-- A type as a value: a type of a member, a variable or a result. A type found
by its name stays that name, with the width it had when it was looked up. -/
inductive BNType where
  | void
  | bool
  | integer (width : Nat) (signed : Bool)
  | float (width : Nat)
  | pointer (width : Nat) (target : BNType)
  | array (element : BNType) (count : Nat)
  | named (name : String) (width : Nat)
  deriving DecidableEq

def BNType.getWidth : BNType → Nat
  | .void => 0
  | .bool => 1
  | .integer width _ => width
  | .float width => width
  | .pointer width _ => width
  | .array element count => element.getWidth * count
  | .named _ width => width

/-- The spelling of the floating-point types, by width. -/
def floatName : Nat → String
  | 2 => "float16"
  | 4 => "float"
  | 8 => "double"
  | 10 => "long double"
  | width => "float" ++ toString (8 * width)

/-- `Type::GetString`: fixed-width integer names, named types behind their
keyword, pointers and arrays as suffixes with decimal counts. -/
def BNType.getString (keyword : String → Option Keyword) : BNType → String
  | .void => "void"
  | .bool => "bool"
  | .integer width true => "int" ++ toString (8 * width) ++ "_t"
  | .integer width false => "uint" ++ toString (8 * width) ++ "_t"
  | .float width => floatName width
  | .pointer _ target => target.getString keyword ++ "*"
  | .array element count => element.getString keyword ++ "[" ++ toString count ++ "]"
  | .named name _ => ((keyword name).elim "" Keyword.text) ++ name

structure BNMember where
  type : BNType
  name : String
  offset : UInt64
  deriving DecidableEq

structure BNEnumMember where
  name : String
  value : UInt64
  deriving DecidableEq

/-- What a registered name stands for, by type class. -/
inductive TypeDefinition where
  | composite (isUnion : Bool) (width : Nat) (members : List BNMember)
  | enumeration (width : Nat) (members : List BNEnumMember)
  | typedef (target : String) (width : Nat)
  | other (type : BNType)
  deriving DecidableEq

def TypeDefinition.getWidth : TypeDefinition → Nat
  | .composite _ width _ => width
  | .enumeration width _ => width
  | .typedef _ width => width
  | .other type => type.getWidth

structure RegisteredType where
  id : String
  definition : TypeDefinition
  deriving DecidableEq

inductive BNSymbolType where
  | function | importAddress | importedFunction | data | importedData | external | libraryFunction
  | localLabel
  deriving DecidableEq

structure BNSymbol where
  type : BNSymbolType
  name : String
  addr : UInt64
  deriving DecidableEq

inductive VariableSource where
  | stack | register | flag
  deriving DecidableEq

/-- `Variable`; two variables have the same identifier exactly when they are equal. -/
structure Variable where
  type : VariableSource
  index : UInt32 := 0
  storage : Int64
  deriving DecidableEq

structure VariableNameAndType where
  name : String
  type : Option BNType
  deriving DecidableEq

/-- How an integer operand is displayed; `enumeration` holds the id of the enum type. -/
inductive DisplayType where
  | enumeration (typeId : Option String)
  | other
  deriving DecidableEq

/-- One analysed function, with what its architecture and platform offer. -/
structure BNFunction where
  start : UInt64 := 0
  ranges : List (UInt64 × UInt64) := []
  comment : String := ""
  tags : List (String × String) := []
  hasUserType : Bool := false
  callingConvention : Option String := none
  returnType : Option BNType := none
  conventions : List String := []
  platformConvention : Option String := none
  parameterVariables : List Variable := []
  vars : Table Variable VariableNameAndType := ∅
  displayTypes : Table (UInt64 × UInt64 × UInt64) DisplayType := ∅
  deriving DecidableEq

namespace BNFunction

def contains (func : BNFunction) (addr : UInt64) : Bool :=
  func.ranges.any fun range => range.1 ≤ addr && addr < range.2

/-- `GetVariableName`: empty for a variable the function does not list. -/
def getVariableName (func : BNFunction) (var : Variable) : String :=
  ((func.vars.lookup var).map VariableNameAndType.name).getD ""

def getVariableType (func : BNFunction) (var : Variable) : Option BNType :=
  (func.vars.lookup var).bind VariableNameAndType.type

def createUserVariable (func : BNFunction) (var : Variable) (type : Option BNType) (name : String) :
    BNFunction :=
  { func with vars := func.vars.set var { name, type } }

def createUserFunctionTag (func : BNFunction) (tagType data : String) : BNFunction :=
  { func with tags := func.tags ++ [(tagType, data)] }

def setIntegerConstantDisplayType (func : BNFunction) (addr value operand : UInt64) (typeId : String) :
    BNFunction :=
  { func with displayTypes := func.displayTypes.set (addr, value, operand) (.enumeration typeId) }

/-- The user-level setters leave the function with a user type. -/
def setCallingConvention (func : BNFunction) (convention : String) : BNFunction :=
  { func with callingConvention := some convention, hasUserType := true }

def setReturnType (func : BNFunction) (type : BNType) : BNFunction :=
  { func with returnType := some type, hasUserType := true }

end BNFunction

/-- A user data tag. A reference without a tag or without a tag type has `type` none. -/
structure DataTag where
  addr : UInt64
  type : Option String
  data : String
  deriving DecidableEq

structure DataVariable where
  autoDiscovered : Bool
  type : Option BNType
  deriving DecidableEq

/-- A code reference to a type; the function is named by its start address. -/
structure TypeReference where
  addr : UInt64
  func : Option UInt64
  deriving DecidableEq

structure SegmentFlags where
  readable : Bool
  writable : Bool
  executable : Bool
  containsCode : Bool
  deriving DecidableEq

structure Segment where
  start : UInt64
  length : UInt64
  flags : SegmentFlags
  deriving DecidableEq

inductive SectionSemantics where
  | readOnlyCode | readWriteData | readOnlyData
  deriving DecidableEq

structure BNSection where
  name : String
  start : UInt64
  length : UInt64
  semantics : SectionSemantics
  deriving DecidableEq

/-- What Binary Ninja decides by itself and the plugin only observes: the
keyword printed before a type's name, the width of a laid-out structure, the
form of automatic type ids, and the function found at an address. -/
structure Host where
  keyword : String → Option Keyword := fun _ => none
  layout : Bool → List BNMember → Nat := fun _ _ => 0
  generateAutoTypeId : String → String → String := fun source name => source ++ ":" ++ name
  analyse : UInt64 → BNFunction := fun _ => {}

structure BinaryView where
  host : Host := {}
  start : UInt64 := 0
  addressSize : Nat := 8
  hasDefaultPlatform : Bool := true
  registerNames : List String := []
  segments : List Segment := []
  sections : List BNSection := []
  symbols : List BNSymbol := []
  functions : List BNFunction := []
  comments : Table UInt64 String := ∅
  tagTypes : List String := []
  dataTags : List DataTag := []
  userTypes : Table String RegisteredType := ∅
  autoTypes : Table String RegisteredType := ∅
  typeReferences : Table String (List TypeReference) := ∅
  dataVariables : Table UInt64 DataVariable := ∅

namespace BinaryView

def getSymbolByAddress (view : BinaryView) (addr : UInt64) : Option BNSymbol :=
  view.symbols.find? fun sym => sym.addr = addr

/-- A user symbol takes precedence over the symbols already at its address. -/
def defineUserSymbol (view : BinaryView) (sym : BNSymbol) : BinaryView :=
  { view with symbols := sym :: view.symbols.filter (· ≠ sym) }

/-- The first analysed function that starts at an address. -/
def functionAt (view : BinaryView) (addr : UInt64) : Option BNFunction :=
  view.functions.find? fun func => func.start = addr

def modifyFirst (found : BNFunction → Bool) (change : BNFunction → BNFunction) :
    List BNFunction → List BNFunction
  | [] => []
  | func :: rest => if found func then change func :: rest else func :: modifyFirst found change rest

/-- A call on the function object `functionAt` found. -/
def modifyFunctionAt (view : BinaryView) (addr : UInt64) (change : BNFunction → BNFunction) :
    BinaryView :=
  { view with functions := modifyFirst (fun func => func.start = addr) change view.functions }

/-- A call on every function containing an address. -/
def modifyFunctionsContaining (view : BinaryView) (addr : UInt64) (change : BNFunction → BNFunction) :
    BinaryView :=
  { view with functions := view.functions.map fun func => if func.contains addr then change func else func }

def createUserFunction (view : BinaryView) (addr : UInt64) : BinaryView :=
  { view with functions := view.functions ++ [{ view.host.analyse addr with start := addr }] }

/-- `GetCommentForAddress`: empty where there is no comment. -/
def getCommentForAddress (view : BinaryView) (addr : UInt64) : String :=
  (view.comments.lookup addr).getD ""

def setCommentForAddress (view : BinaryView) (addr : UInt64) (text : String) : BinaryView :=
  { view with comments := view.comments.set addr text }

def addTagType (view : BinaryView) (name : String) : BinaryView :=
  { view with tagTypes := view.tagTypes ++ [name] }

def createUserDataTag (view : BinaryView) (addr : UInt64) (tagType data : String) : BinaryView :=
  { view with dataTags := view.dataTags ++ [{ addr, type := some tagType, data }] }

/-- `GetTypes`: a user type stands before an automatic one of the same name. -/
def types (view : BinaryView) : Table String RegisteredType := view.userTypes ∪ view.autoTypes

def getTypeByName (view : BinaryView) (name : String) : Option BNType :=
  (view.types.lookup name).map fun registered => .named name registered.definition.getWidth

/-- Ids belong to both containers. -/
def getTypeById (view : BinaryView) (id : String) : Option TypeDefinition :=
  ((view.userTypes.items ++ view.autoTypes.items).find? fun entry => entry.2.id = id).map fun entry =>
    entry.2.definition

/-- `DefineType` registers an automatic type. -/
def defineType (view : BinaryView) (id name : String) (definition : TypeDefinition) : BinaryView :=
  { view with autoTypes := view.autoTypes.set name { id, definition } }

theorem mem_types {view : BinaryView} {name : String} :
    name ∈ view.types ↔ name ∈ view.userTypes ∨ name ∈ view.autoTypes := AList.mem_union

def defineUserDataVariable (view : BinaryView) (addr : UInt64) (type : BNType) : BinaryView :=
  { view with dataVariables := view.dataVariables.set addr { autoDiscovered := false, type := some type } }

def getSegmentAt (view : BinaryView) (addr : UInt64) : Option Segment :=
  view.segments.find? fun segment => segment.start ≤ addr && addr - segment.start < segment.length

def addUserSegment (view : BinaryView) (segment : Segment) : BinaryView :=
  { view with segments := view.segments ++ [segment] }

/-- A section takes the place of one of its name. -/
def addUserSection (view : BinaryView) (sec : BNSection) : BinaryView :=
  { view with sections := sec :: view.sections.filter fun old => old.name ≠ sec.name }

/-- `GetString` of a type in this view. -/
def getString (view : BinaryView) (type : BNType) : String := type.getString view.host.keyword

end BinaryView
end GhidraBridge
