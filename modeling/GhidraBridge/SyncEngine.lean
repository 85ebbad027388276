import GhidraBridge.TypeNames

/-! The importer (`SyncEngine.cpp`). `applyToView` writes an export into the view
category by category and returns the write-back maps a later check-in compares
against; `buildWritebackMaps` rebuilds those maps without touching the view.
Addresses are rebased by a difference modulo 2^64. -/
namespace GhidraBridge
open Lib

/-- The Comments column an address comment was imported from. -/
inductive CommentField where
  | eol | rep | pre | post
  deriving DecidableEq

def CommentField.text : CommentField → String
  | .eol => "eol"
  | .rep => "rep"
  | .pre => "pre"
  | .post => "post"

structure SyncResult where
  symbolsApplied : Nat := 0
  commentsApplied : Nat := 0
  flagsApplied : Nat := 0
  functionsCreated : Nat := 0
  sectionsAdded : Nat := 0
  segmentsAdded : Nat := 0
  addrMin : UInt64 := 0xffffffffffffffff
  addrMax : UInt64 := 0
  sampleSymbol : String := ""
  addrToKey : Table UInt64 Int64 := ∅
  addrToOriginalName : Table UInt64 String := ∅
  addrToCommentKey : Table UInt64 String := ∅
  addrToOriginalComment : Table UInt64 String := ∅
  addrToOriginalFuncComment : Table UInt64 String := ∅
  addrToCommentField : Table UInt64 CommentField := ∅
  ghidraDataTypes : List GhidraDataType := []
  parameters : List GhidraParameter := []
  bookmarks : List GhidraBookmark := []
  dataItems : List GhidraDataItem := []
  equates : List GhidraEquate := []
  funcSigs : List GhidraFuncSig := []
  imageBase : UInt64 := 0

/-- What the import has built so far. -/
structure ImportState where
  view : BinaryView
  result : SyncResult := {}
  keyToAddr : Table Int64 UInt64 := ∅

/-- At least `minLen` characters from `offset` on, all of them hex digits. -/
def hexSuffix (name : List Char) (offset : Nat) (minLen : Nat := 4) : Bool :=
  offset + minLen ≤ name.length &&
    (name.drop offset).all fun c =>
      ('0' ≤ c && c ≤ '9') || ('a' ≤ c && c ≤ 'f') || ('A' ≤ c && c ≤ 'F')

/-- `name.rfind(start, 0) == 0`. -/
def startsWith (name start : String) : Bool := start.toList.isPrefixOf name.toList

/-- The importer's test for a name nobody chose. -/
def isAutoGenName (name : String) : Bool :=
  startsWith name "sub_" && hexSuffix name.toList 4 ||
  startsWith name "FUN_" && hexSuffix name.toList 4 ||
  startsWith name "off_" && hexSuffix name.toList 4 ||
  startsWith name "unk_" && hexSuffix name.toList 4 ||
  startsWith name "j_" && hexSuffix name.toList 2

/-- An unnamed parameter, by Binary Ninja's or Ghidra's default spelling. -/
def isAutoGenParam (name : String) : Bool :=
  name = "" || startsWith name "arg" || startsWith name "param_"

def isAutoGenLocal (name : String) : Bool :=
  name = "" || startsWith name "var_" || startsWith name "local_"

/-- A bookmark as the text of a tag. -/
def bookmarkTagData (category comment : String) : String :=
  (if category = "" then "" else "[" ++ category ++ "] ") ++ comment

/-- The stable id of an equate's enum type. -/
def equateTypeId (id : Int64) : String := "ghidra_eq_" ++ toString id

namespace GhidraComment

/-- The filled columns that make up the address comment, in merge order. -/
def parts (comm : GhidraComment) : List (String × CommentField) :=
  [(comm.eol, .eol), (comm.rep, .rep), (comm.pre, .pre), (comm.post, .post)].filter (·.1 ≠ "")

/-- The filled columns on lines of their own. -/
def merged (comm : GhidraComment) : String :=
  comm.parts.foldl (fun text part => if text = "" then part.1 else text ++ "\n" ++ part.1) ""

/-- The sole filled column, or `eol` for merged text. -/
def field (comm : GhidraComment) : CommentField :=
  match comm.parts with
  | [part] => part.2
  | _ => .eol

end GhidraComment

namespace SyncEngine

def getOrCreateTagType (view : BinaryView) (name : String) : BinaryView :=
  if name ∈ view.tagTypes then view else view.addTagType name

/-! ## The passes of the import, in the order they run -/

def applyMemoryBlock (rebase : UInt64) (s : ImportState) (mb : GhidraMemoryBlock) : ImportState :=
  if mb.size = 0 ∨ mb.overlay then s
  else
    let start := mb.addr + rebase
    let unmapped := (s.view.getSegmentAt start).isNone
    let flags : SegmentFlags := ⟨mb.read, mb.write, mb.execute, mb.execute⟩
    let view := if unmapped then s.view.addUserSegment ⟨start, mb.size, flags⟩ else s.view
    let sem : SectionSemantics :=
      if mb.execute then .readOnlyCode else if mb.write then .readWriteData else .readOnlyData
    let name := if mb.name = "" then "ghidra_" ++ toString start else mb.name
    { s with
      view := view.addUserSection ⟨name, start, mb.size, sem⟩
      result :=
        { s.result with
          segmentsAdded := s.result.segmentsAdded + (if unmapped then 1 else 0)
          sectionsAdded := s.result.sectionsAdded + 1 } }

def symbolType : GhidraSymbolType → BNSymbolType
  | .function => .function
  | .external => .importedFunction
  | _ => .data

/-- Ghidra's name goes in unless somebody chose another one for the address. -/
def appliesName (view : BinaryView) (addr : UInt64) (name : String) : Bool :=
  match view.getSymbolByAddress addr with
  | none => true
  | some existing => existing.name = "" || existing.name = name || isAutoGenName existing.name

def applySymbol (rebase : UInt64) (s : ImportState) (sym : GhidraSymbol) : ImportState :=
  let addr := sym.addr + rebase
  let isFunction := sym.type = .function
  let named :=
    if appliesName s.view addr sym.name then s.view.defineUserSymbol ⟨symbolType sym.type, sym.name, addr⟩
    else s.view
  let missing := isFunction ∧ named.hasDefaultPlatform = true ∧ (named.functionAt addr).isNone = true
  { view := if missing then named.createUserFunction addr else named
    result :=
      { s.result with
        functionsCreated := s.result.functionsCreated + (if missing then 1 else 0)
        symbolsApplied := s.result.symbolsApplied + 1
        addrMin := if addr < s.result.addrMin then addr else s.result.addrMin
        addrMax := if s.result.addrMax < addr then addr else s.result.addrMax
        sampleSymbol :=
          if s.result.sampleSymbol = "" ∧ isFunction then sym.name else s.result.sampleSymbol
        addrToKey := s.result.addrToKey.set addr sym.key
        addrToOriginalName := s.result.addrToOriginalName.set addr sym.name }
    keyToAddr := if isFunction then s.keyToAddr.set sym.key addr else s.keyToAddr }

/-- The four columns shown as the address comment. A comment that is already
there and differs stays, with Ghidra's text as its baseline. -/
def applyAddressComment (caddr : UInt64) (comm : GhidraComment) (s : ImportState) : ImportState :=
  let text := comm.merged
  if text = "" then s
  else
    let existing := s.view.getCommentForAddress caddr
    let writes := existing = "" ∨ existing = text
    { s with
      view := if writes then s.view.setCommentForAddress caddr text else s.view
      result :=
        { s.result with
          addrToCommentField := s.result.addrToCommentField.set caddr comm.field
          addrToOriginalComment := s.result.addrToOriginalComment.set caddr text
          commentsApplied := s.result.commentsApplied + (if writes then 1 else 0) } }

/-- The plate column, shown as the comment of the function starting there. -/
def applyPlateComment (caddr : UInt64) (comm : GhidraComment) (s : ImportState) : ImportState :=
  if comm.plate = "" then s
  else
    match s.view.functionAt caddr with
    | none => s
    | some func =>
      let writes := func.comment = "" ∨ func.comment = comm.plate
      { s with
        view :=
          if writes then s.view.modifyFunctionAt caddr fun func => { func with comment := comm.plate }
          else s.view
        result :=
          { s.result with
            addrToOriginalFuncComment := s.result.addrToOriginalFuncComment.set caddr comm.plate } }

def recordCommentKey (caddr : UInt64) (comm : GhidraComment) (result : SyncResult) : SyncResult :=
  if comm.encodedKey = "" then result
  else { result with addrToCommentKey := result.addrToCommentKey.set caddr comm.encodedKey }

def applyComment (rebase : UInt64) (s : ImportState) (comm : GhidraComment) : ImportState :=
  let caddr := comm.addr + rebase
  let keyed := { s with result := recordCommentKey caddr comm s.result }
  applyPlateComment caddr comm (applyAddressComment caddr comm keyed)

/-- Tag the function at an address when a flag is set. -/
def tagFunction (flag : Bool) (tagType : String) (addr : UInt64) (view : BinaryView) : BinaryView :=
  if flag then
    (getOrCreateTagType view tagType).modifyFunctionAt addr fun func => func.createUserFunctionTag tagType ""
  else view

def applyFuncFlags (s : ImportState) (ff : GhidraFuncFlags) : ImportState :=
  match s.keyToAddr.lookup ff.key with
  | none => s
  | some addr =>
    if (s.view.functionAt addr).isNone then s
    else
      let thunk := tagFunction ff.thunk "Ghidra: Thunk" addr s.view
      let noReturn := tagFunction ff.noReturn "Ghidra: NoReturn" addr thunk
      { s with
        view := tagFunction ff.isInline "Ghidra: Inline" addr noReturn
        result := { s.result with flagsApplied := s.result.flagsApplied + 1 } }

/-- Show the equate's enum at one reference, in every function containing it. -/
def bindEquate (rebase : UInt64) (eq : GhidraEquate) (view : BinaryView) (ref : GhidraEquateRef) :
    BinaryView :=
  let refAddr := ref.addr + rebase
  view.modifyFunctionsContaining refAddr fun func =>
    func.setIntegerConstantDisplayType refAddr eq.value.toUInt64 ref.opIndex.toInt64.toUInt64
      (equateTypeId eq.id)

def applyEquate (rebase : UInt64) (view : BinaryView) (eq : GhidraEquate) : BinaryView :=
  if eq.name = "" ∨ eq.refs = [] then view
  else
    let enumType : TypeDefinition := .enumeration 4 [⟨eq.name, eq.value.toUInt64⟩]
    let defined := view.defineType (equateTypeId eq.id) eq.name enumType
    if (defined.getTypeById (equateTypeId eq.id)).isNone then defined
    else eq.refs.foldl (bindEquate rebase eq) defined

def applyBookmark (rebase : UInt64) (view : BinaryView) (bm : GhidraBookmark) : BinaryView :=
  let tagTypeName := "Ghidra: " ++ bm.type
  (getOrCreateTagType view tagTypeName).createUserDataTag (bm.addr + rebase) tagTypeName
    (bookmarkTagData bm.category bm.comment)

/-- Name a variable, with the resolved type where the name resolves. -/
def applyVariable (view : BinaryView) (funcAddr : UInt64) (var : Variable) (current : Option BNType)
    (param : GhidraParameter) : BinaryView :=
  let type := (resolveTypeName view param.typeName).or current
  view.modifyFunctionAt funcAddr fun func => func.createUserVariable var type param.name

def applyParameter (rebase : UInt64) (view : BinaryView) (param : GhidraParameter) : BinaryView :=
  let funcAddr := param.funcAddr + rebase
  match view.functionAt funcAddr with
  | none => view
  | some func =>
    if param.isParam then
      if 0 ≤ param.ordinal then
        match func.parameterVariables[param.ordinal.toNatClampNeg]? with
        | none => view
        | some var =>
          if isAutoGenParam (func.getVariableName var) then
            applyVariable view funcAddr var (func.getVariableType var) param
          else view
      else view
    else
      -- the first stack variable at the offset is the only one looked at
      match func.vars.items.find? fun entry =>
          entry.1.type = .stack && entry.1.storage.toInt32 = param.ordinal with
      | none => view
      | some (var, nat) =>
        if isAutoGenLocal nat.name then applyVariable view funcAddr var nat.type param else view

/-- The type a member gets: the resolved one, else an integer of its size, else void. -/
def memberType (view : BinaryView) (m : GhidraDataTypeMember) : BNType :=
  (resolveTypeName view m.typeName m.size).getD
    (if 0 < m.size then .integer m.size.toNatClampNeg false else .void)

/-- Unnamed members are left out. -/
def structureMembers (view : BinaryView) (dt : GhidraDataType) : List BNMember :=
  (dt.members.filter fun m => m.name ≠ "").map fun m =>
    ⟨memberType view m, m.name, m.offset.toInt64.toUInt64⟩

def registerType (view : BinaryView) (name : String) (definition : TypeDefinition) : BinaryView :=
  view.defineType (view.host.generateAutoTypeId "ghidra" name) name definition

def registerStructure (view : BinaryView) (dt : GhidraDataType) (isUnion : Bool) : BinaryView :=
  let members := structureMembers view dt
  registerType view dt.name (.composite isUnion (view.host.layout isUnion members) members)

def applyDataType (view : BinaryView) (dt : GhidraDataType) : BinaryView :=
  if dt.name = "" then view
  else
    match dt.kind with
    | .struct => registerStructure view dt false
    | .union => registerStructure view dt true
    | .enum =>
      let width := if 0 < dt.size then dt.size.toNatClampNeg else 4
      registerType view dt.name (.enumeration width (dt.values.map fun v => ⟨v.name, v.value.toUInt64⟩))
    | .typedef =>
      if dt.underlyingTypeName = "" then view
      else registerType view dt.name (.typedef dt.underlyingTypeName dt.size.toNatClampNeg)
    | .other _ => view

/-- Look a data type up in the view under its own name. -/
def rememberType (view : BinaryView) (known : Table String BNType) (dt : GhidraDataType) :
    Table String BNType :=
  if dt.name = "" then known
  else
    match view.getTypeByName dt.name with
    | none => known
    | some type => known.set dt.name type

/-- The registered types of the export, by name. -/
def typesByName (view : BinaryView) (dataTypes : List GhidraDataType) : Table String BNType :=
  dataTypes.foldl (rememberType view) ∅

/-- Only the first named data type with the item's type id is considered. -/
def applyDataItem (rebase : UInt64) (dataTypes : List GhidraDataType) (known : Table String BNType)
    (view : BinaryView) (item : GhidraDataItem) : BinaryView :=
  match dataTypes.find? fun dt => dt.id = item.typeId && dt.name ≠ "" with
  | none => view
  | some dt =>
    match known.lookup dt.name with
    | none => view
    | some type => view.defineUserDataVariable (item.addr + rebase) type

def applyConvention (bnAddr : UInt64) (convention : String) (view : BinaryView) : BinaryView :=
  match view.functionAt bnAddr with
  | none => view
  | some func =>
    if convention ≠ "" ∧ convention ∈ func.conventions then
      view.modifyFunctionAt bnAddr fun func => func.setCallingConvention convention
    else view

def applyReturnType (bnAddr : UInt64) (typeName : String) (view : BinaryView) : BinaryView :=
  if (view.functionAt bnAddr).isNone ∨ typeName = "" then view
  else
    match resolveTypeName view typeName with
    | none => view
    | some type => view.modifyFunctionAt bnAddr fun func => func.setReturnType type

def applyFuncSig (keyToAddr : Table Int64 UInt64) (view : BinaryView) (sig : GhidraFuncSig) : BinaryView :=
  match keyToAddr.lookup sig.key with
  | none => view
  | some bnAddr =>
    applyReturnType bnAddr sig.returnTypeName (applyConvention bnAddr sig.callingConvention view)

/-! ## The entry points -/

/-- The difference between the view's base and Ghidra's. -/
def rebaseOf (view : BinaryView) (data : GhidraDbExport) : UInt64 := view.start - data.imageBase

/-- The record lists are handed on as they came. -/
def recordLists (data : GhidraDbExport) (result : SyncResult) : SyncResult :=
  { result with
    ghidraDataTypes := data.dataTypes
    parameters := data.parameters
    bookmarks := data.bookmarks
    dataItems := data.dataItems
    equates := data.equates
    funcSigs := data.funcSigs }

/-- Memory blocks, symbols, comments and function flags: the passes that also
write the result. -/
def applyMapped (view : BinaryView) (data : GhidraDbExport) : ImportState :=
  let rebase := rebaseOf view data
  let s : ImportState := { view, result := { imageBase := data.imageBase } }
  let s := data.memoryBlocks.foldl (applyMemoryBlock rebase) s
  let s := data.symbols.foldl (applySymbol rebase) s
  let s := data.comments.foldl (applyComment rebase) s
  data.funcFlags.foldl applyFuncFlags s

/-- Equates, bookmarks, parameters and data types, on the view alone. -/
def applyTyped (rebase : UInt64) (data : GhidraDbExport) (view : BinaryView) : BinaryView :=
  let view := data.equates.foldl (applyEquate rebase) view
  let view := data.bookmarks.foldl (applyBookmark rebase) view
  let view := data.parameters.foldl (applyParameter rebase) view
  data.dataTypes.foldl applyDataType view

def applyToView (view : BinaryView) (data : GhidraDbExport) : BinaryView × SyncResult :=
  let rebase := rebaseOf view data
  let s := applyMapped view data
  let typed := applyTyped rebase data s.view
  let known := typesByName typed data.dataTypes
  let withItems := data.dataItems.foldl (applyDataItem rebase data.dataTypes known) typed
  (data.funcSigs.foldl (applyFuncSig s.keyToAddr) withItems, recordLists data s.result)

/-! ## The maps alone -/

def mapSymbol (rebase : UInt64) (result : SyncResult) (sym : GhidraSymbol) : SyncResult :=
  let addr := sym.addr + rebase
  { result with
    addrToKey := result.addrToKey.set addr sym.key
    addrToOriginalName := result.addrToOriginalName.set addr sym.name
    addrMin := if addr < result.addrMin then addr else result.addrMin
    addrMax := if result.addrMax < addr then addr else result.addrMax }

/-- Unlike the import, a plate counts whether or not a function starts there. -/
def mapComment (rebase : UInt64) (result : SyncResult) (comm : GhidraComment) : SyncResult :=
  let caddr := comm.addr + rebase
  let keyed := recordCommentKey caddr comm result
  let texted :=
    if comm.merged = "" then keyed
    else
      { keyed with
        addrToCommentField := keyed.addrToCommentField.set caddr comm.field
        addrToOriginalComment := keyed.addrToOriginalComment.set caddr comm.merged }
  if comm.plate = "" then texted
  else { texted with addrToOriginalFuncComment := texted.addrToOriginalFuncComment.set caddr comm.plate }

def buildWritebackMaps (view : BinaryView) (data : GhidraDbExport) : SyncResult :=
  let rebase := rebaseOf view data
  let result : SyncResult := { imageBase := data.imageBase }
  let result := data.symbols.foldl (mapSymbol rebase) result
  let result := data.comments.foldl (mapComment rebase) result
  recordLists data result

end SyncEngine
end GhidraBridge
