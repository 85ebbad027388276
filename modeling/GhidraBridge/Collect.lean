import GhidraBridge.CheckinState

/-! `collectCheckinChanges` (`GhidraConnection.cpp`): the differences between a
view and the check-in baselines, one list per category. A walk over an unordered
map or set takes the order of its table or roster; that order is arbitrary, so
what holds here for every state and view holds for every walk order. -/
namespace GhidraBridge
open Lib Lib.Scan

/-- The check-in's test for a name nobody chose. A thunk is named after its
target, so `j_` may stand before any such name. -/
def isAutoGeneratedChars (name : List Char) : Bool :=
  "sub_".toList.isPrefixOf name && hexSuffix name 4 ||
  "FUN_".toList.isPrefixOf name && hexSuffix name 4 ||
  "off_".toList.isPrefixOf name && hexSuffix name 4 ||
  "unk_".toList.isPrefixOf name && hexSuffix name 4 ||
  "data_".toList.isPrefixOf name && hexSuffix name 5 ||
  "j_".toList.isPrefixOf name && hexSuffix name 2 ||
  (match name with
    | 'j' :: '_' :: target => isAutoGeneratedChars target
    | _ => false)

def isAutoGeneratedSymbolName (name : String) : Bool := isAutoGeneratedChars name.toList

namespace CheckinState
variable (state : CheckinState) (view : BinaryView)

/-- `m_addrToOriginalName[addr]`, empty where there is no entry; the other
baselines are read the same way. -/
def textAt {K : Type} [DecidableEq K] (table : Table K String) (key : K) : String :=
  (table.lookup key).getD ""

/-- The view's base less Ghidra's. -/
def rebase : UInt64 := view.start - state.imageBase

/-! ## Symbols -/

def renameAt (addr : UInt64) (key : Int64) : Option SymbolRename :=
  let origName := textAt state.addrToOriginalName addr
  (view.getSymbolByAddress addr).bind fun sym =>
    if sym.name = origName then none else some ⟨key, addr, origName, sym.name⟩

def collectRenames : List SymbolRename :=
  state.addrToKey.items.filterMap fun entry => renameAt state view entry.1 entry.2

/-- What a symbol at an address Ghidra has no record of is sent as. -/
def newSymbolFor (sym : BNSymbol) : Option NewSymbol :=
  if sym.type ≠ .function ∧ sym.type ≠ .data ∧ sym.type ≠ .localLabel then none
  else if sym.name = "" ∨ isAutoGeneratedSymbolName sym.name = true then none
  else if state.addrToOriginalName.lookup sym.addr = some sym.name then none
  else some ⟨sym.addr, sym.name, sym.type = .function⟩

/-- Only the first symbol seen at an address is looked at. -/
def newSymbolsFrom (seen : List UInt64) : List BNSymbol → List NewSymbol
  | [] => []
  | sym :: rest =>
    if sym.addr ∈ state.addrToKey ∨ sym.addr ∈ seen then newSymbolsFrom seen rest
    else (newSymbolFor state sym).toList ++ newSymbolsFrom (sym.addr :: seen) rest

def collectNewSymbols : List NewSymbol := newSymbolsFrom state [] view.symbols

/-! ## Comments -/

def commentChange (addr : UInt64) (text : String) : CommentChange :=
  ⟨addr, text, textAt state.addrToCommentKey addr⟩

def addressComment (addr : UInt64) (text : String) : Option CommentChange :=
  if text = "" ∨ text = textAt state.addrToOriginalComment addr then none
  else some (commentChange state addr text)

def collectAddressComments : List CommentChange :=
  view.comments.items.filterMap fun entry => addressComment state entry.1 entry.2

/-- A function comment is queued unless something is queued at its address already. -/
def queueFunctionComment (queued : List CommentChange) (func : BNFunction) : List CommentChange :=
  if func.comment = "" ∨ (queued.any fun c => c.addr = func.start) ∨
      func.comment = textAt state.addrToOriginalFuncComment func.start then queued
  else queued ++ [commentChange state func.start func.comment]

def collectComments : List CommentChange :=
  view.functions.foldl (queueFunctionComment state) (collectAddressComments state view)

/-! ## Data types -/

def changedMember (m : BNMember) : ChangedMember :=
  ⟨m.name, m.offset.toInt64.toInt32, Int32.ofNat m.type.getWidth, view.getString m.type⟩

/-- A registered type as a change to send; classes that are not checked in, and
empty ones, have none. -/
def describeType (name : String) (definition : TypeDefinition) : Option DataTypeChange :=
  let size := Int32.ofNat definition.getWidth
  match definition with
  | .composite isUnion _ members =>
    if members = [] then none
    else
      some
        { op := .add, kind := if isUnion then .union else .struct, name, size
          members := members.map (changedMember view) }
  | .enumeration _ members =>
    if members = [] then none
    else
      some { op := .add, kind := .enum, name, size, values := members.map fun v => ⟨v.name, v.value.toInt64⟩ }
  | .typedef target _ =>
    if target = "" then none
    else some { op := .add, kind := .typedef, name, size, underlyingTypeName := target }
  | .other _ => none

def memberDiffers (m : ChangedMember) (base : GhidraDataTypeMember) : Bool :=
  m.name ≠ base.name || m.offset ≠ base.offset ||
    canonicalTypeName m.typeName ≠ canonicalTypeName base.typeName

def valueDiffers (v : ChangedValue) (base : GhidraEnumValue) : Bool :=
  v.name ≠ base.name || v.value ≠ base.value

/-- Two lists compared position by position. -/
def listDiffers {A B : Type} (differs : A → B → Bool) (xs : List A) (ys : List B) : Bool :=
  xs.length ≠ ys.length || (xs.zip ys).any fun pair => differs pair.1 pair.2

/-- The comparison goes by the class the type has in the view. -/
def typeDiffers (definition : TypeDefinition) (change : DataTypeChange) (base : GhidraDataType) : Bool :=
  match definition with
  | .composite .. => listDiffers memberDiffers change.members base.members
  | .enumeration .. => listDiffers valueDiffers change.values base.values
  | _ => canonicalTypeName change.underlyingTypeName ≠ canonicalTypeName base.underlyingTypeName

def typeChange (name : String) (registered : RegisteredType) : Option DataTypeChange :=
  if name = "" ∨ startsWith name "__" = true then none
  else if name ∉ view.userTypes ∧ name ∉ state.ghidraTypesByName then none
  else
    (describeType view name registered.definition).bind fun change =>
      match state.ghidraTypesByName.lookup name with
      | none => some { change with op := .add, ghidraId := 0 }
      | some base =>
        if typeDiffers registered.definition change base then
          some { change with op := .update, ghidraId := base.id }
        else none

def collectTypeEdits : List DataTypeChange :=
  view.types.items.filterMap fun entry => typeChange state view entry.1 entry.2

/-- A baseline type the view no longer lists, unless its name is queued already. -/
def typeDeletion (queued : List DataTypeChange) (name : String) (base : GhidraDataType) :
    Option DataTypeChange :=
  if name ∈ view.types ∨ (queued.any fun c => c.name = name) then none
  else some { op := .delete, kind := base.kind, name, ghidraId := base.id }

def queueTypeDeletion (queued : List DataTypeChange) (entry : String × GhidraDataType) :
    List DataTypeChange :=
  queued ++ (typeDeletion view queued entry.1 entry.2).toList

def collectDataTypes : List DataTypeChange :=
  state.ghidraTypesByName.items.foldl (queueTypeDeletion view) (collectTypeEdits state view)

/-! ## Parameters and locals -/

def typeText (type : Option BNType) : String := (type.map view.getString).getD ""

/-- A variable of a function with the key Ghidra has for its ordinal. -/
structure KeyedVar where
  func : BNFunction
  var : Variable
  key : Int64
  isAutoGen : Bool

/-- `checkVar`: one variable against the baseline of its key. -/
def checkVar (slot : KeyedVar) : Option ParamRename :=
  let origName := textAt state.paramOriginalNameByKey slot.key
  let origTypeName := textAt state.paramOriginalTypeByKey slot.key
  let curName := slot.func.getVariableName slot.var
  let curTypeName := typeText view (slot.func.getVariableType slot.var)
  let nameChanged := curName ≠ "" ∧ curName ≠ origName ∧ slot.isAutoGen = false
  let typeChanged := curTypeName ≠ "" ∧ canonicalTypeName curTypeName ≠ canonicalTypeName origTypeName
  if nameChanged ∨ typeChanged then
    some ⟨slot.key, if nameChanged then curName else origName, if typeChanged then curTypeName else ""⟩
  else none

/-- The parameters by index, then the stack variables by offset, where Ghidra
has a key for the index or offset. -/
def keyedVarsOf (func : BNFunction) : List KeyedVar :=
  let ghidraAddr := func.start - rebase state view
  let params := func.parameterVariables.zipIdx.filterMap fun (var, i) =>
    (state.paramKeyByAddrOrdinal.lookupNested ghidraAddr (Int32.ofNat i)).map fun key =>
      ⟨func, var, key, isAutoGenParam (func.getVariableName var)⟩
  let locals := (func.vars.items.filter fun entry => entry.1.type = .stack).filterMap fun (var, nat) =>
    (state.localKeyByAddrOffset.lookupNested ghidraAddr var.storage.toInt32).map fun key =>
      ⟨func, var, key, isAutoGenLocal nat.name⟩
  params ++ locals

def keyedVars : List KeyedVar := view.functions.flatMap (keyedVarsOf state view)

def collectParamRenames : List ParamRename := (keyedVars state view).filterMap (checkVar state view)

/-- A user-named parameter at an ordinal Ghidra has no key for. -/
def newParamOf (func : BNFunction) (var : Variable) (i : Nat) : Option NewParam :=
  let curName := func.getVariableName var
  if (state.paramKeyByAddrOrdinal.lookupNested (func.start - rebase state view) (Int32.ofNat i)).isSome ∨
      isAutoGenParam curName = true then none
  else some ⟨func.start, Int32.ofNat i, curName, typeText view (func.getVariableType var), false⟩

/-- A register's name, alone or before `_` and digits. -/
def isRegisterDefaultName (registers : List String) (name : String) : Bool :=
  registers.contains name ||
    match splitLast '_' name.toList with
    | none => false
    | some (before, after) =>
      after ≠ [] && after.all Char.isDigit && registers.contains (String.ofList before)

def isAutoGenRegLocal (registers : List String) (name : String) : Bool :=
  name = "" || startsWith name "var_" || startsWith name "local_" || startsWith name "in_" ||
    isRegisterDefaultName registers name

/-- A user-named register variable that is not a parameter. -/
def newRegLocalOf (func : BNFunction) (var : Variable) (nat : VariableNameAndType) : Option NewParam :=
  if var.type ≠ .register ∨ var ∈ func.parameterVariables ∨
      isAutoGenRegLocal view.registerNames nat.name = true then none
  else
    some ⟨func.start, var.storage.toInt32, nat.name, typeText view (func.getVariableType var), true⟩

/-- The variables Ghidra has no record for: the parameters of all functions, then
the register locals of all functions. -/
def newVariables : List NewParam :=
  (view.functions.flatMap fun func =>
    func.parameterVariables.zipIdx.filterMap fun (var, i) => newParamOf state view func var i) ++
  view.functions.flatMap fun func =>
    func.vars.items.filterMap fun (var, nat) => newRegLocalOf view func var nat

/-- The name is the one last checked in for the variable's slot. -/
def atNewBaseline (p : NewParam) : Bool :=
  (if p.isLocal then state.newRegLocalBaseline else state.newParamBaseline).lookupNested
    (p.funcAddr - rebase state view) p.ordinal = some p.name

def collectNewParams : List NewParam := (newVariables state view).filter fun p => !atNewBaseline state view p

/-! ## Bookmarks -/

/-- The tag text read back as category and comment. What is dropped behind the bracket is a
byte in the source, and a character here. -/
def parseTagData (tagData : String) : String × String :=
  match tagData.toList with
  | '[' :: rest =>
    match splitFirst ']' rest with
    | some (category, after) => (String.ofList category, String.ofList (after.drop 1))
    | none => ("", "")
  | _ => ("", tagData)

/-- A user tag whose type name starts with `"Ghidra: "`, at Ghidra's address. -/
def currentKey (tag : DataTag) : Option BookmarkKey :=
  tag.type.bind fun typeName =>
    if startsWith typeName "Ghidra: " then
      some ⟨tag.addr - rebase state view, String.ofList (typeName.toList.drop 8), tag.data⟩
    else none

def currentKeys : Roster BookmarkKey := Roster.ofList (view.dataTags.filterMap (currentKey state view))

def bookmarkAdd (k : BookmarkKey) : BookmarkChange :=
  let parsed := parseTagData k.tagData
  ⟨.add, k.type, k.addr + rebase state view, parsed.1, parsed.2⟩

def bookmarkDelete (k : BookmarkKey) : BookmarkChange :=
  ⟨.delete, k.type, k.addr + rebase state view, "", ""⟩

/-- All additions come before all deletions. -/
def collectBookmarks : List BookmarkChange :=
  let current := currentKeys state view
  ((current.list.filter fun k => k ∉ state.ghidraBookmarkKeys).map (bookmarkAdd state view)) ++
    (state.ghidraBookmarkKeys.list.filter fun k => k ∉ current).map (bookmarkDelete state view)

/-! ## Data items -/

def dataItemAdd (bnAddr : UInt64) (dv : DataVariable) : Option DataItemChange :=
  let typeName := typeText view dv.type
  if dv.autoDiscovered = true ∨ bnAddr - rebase state view ∈ state.ghidraDataItemAddrs ∨ typeName = "" then
    none
  else some ⟨.add, bnAddr, typeName⟩

/-- The address holds a variable somebody defined. -/
def stillPresent (bnAddr : UInt64) : Bool :=
  match view.dataVariables.lookup bnAddr with
  | none => false
  | some dv => !dv.autoDiscovered

def collectDataItems : List DataItemChange :=
  (view.dataVariables.items.filterMap fun entry => dataItemAdd state view entry.1 entry.2) ++
    ((state.ghidraDataItemAddrs.list.map (· + rebase state view)).filter fun bnAddr =>
      !stillPresent view bnAddr).map fun bnAddr => ⟨.delete, bnAddr, ""⟩

/-! ## Function signatures -/

/-- The address of a key; the last entry walked wins. -/
def keyToBnAddr : Table Int64 UInt64 :=
  Table.writeAll ∅ Prod.snd Prod.fst state.addrToKey.items

/-- A change is queued when it carries a convention or a return type. -/
def sigChange (key : Int64) (callingConvention returnTypeName : String) : Option FuncSigChange :=
  if callingConvention ≠ "" ∨ returnTypeName ≠ "" then some { key, callingConvention, returnTypeName }
  else none

def recordedConvention (origCC : String) (func : BNFunction) : String :=
  let curCC := func.callingConvention.getD ""
  if curCC ≠ "" ∧ canonicalCCName curCC ≠ canonicalCCName origCC then curCC else ""

/-- In the first loop a return type counts only where Ghidra recorded one. -/
def recordedReturn (key : Int64) (func : BNFunction) : String :=
  match state.funcOriginalRetType.lookup key with
  | none => ""
  | some origRet =>
    let curRet := typeText view func.returnType
    if curRet ≠ "" ∧ canonicalTypeName curRet ≠ canonicalTypeName origRet then curRet else ""

/-- First loop: a key whose convention Ghidra recorded. -/
def sigWithConvention (key : Int64) (origCC : String) : Option FuncSigChange :=
  ((state.keyToBnAddr.lookup key).bind view.functionAt).bind fun func =>
    if func.hasUserType = false then none
    else sigChange key (recordedConvention origCC func) (recordedReturn state view key func)

/-- In the second loop a convention Ghidra did not record counts where it differs
from the platform's default. -/
def typedConvention (key : Int64) (func : BNFunction) : String :=
  match func.callingConvention with
  | none => ""
  | some curCC =>
    match state.funcOriginalCC.lookup key with
    | some origCC => if canonicalCCName curCC ≠ canonicalCCName origCC then curCC else ""
    | none =>
      let defCC := func.platformConvention.getD ""
      if defCC ≠ "" ∧ canonicalCCName curCC ≠ canonicalCCName defCC then curCC else ""

def typedReturn (key : Int64) (func : BNFunction) : String :=
  match func.returnType with
  | none => ""
  | some ret =>
    let curRet := view.getString ret
    match state.funcOriginalRetType.lookup key with
    | none => curRet
    | some origRet => if canonicalTypeName curRet ≠ canonicalTypeName origRet then curRet else ""

/-- Second loop: a function with a user type. -/
def sigOfFunction (key : Int64) (func : BNFunction) : Option FuncSigChange :=
  sigChange key (typedConvention state key func) (typedReturn state view key func)

def queueSigOfFunction (queued : List FuncSigChange) (func : BNFunction) : List FuncSigChange :=
  if func.hasUserType = false then queued
  else
    match state.addrToKey.lookup func.start with
    | none => queued
    | some key =>
      if queued.any fun c => c.key = key then queued
      else queued ++ (sigOfFunction state view key func).toList

def collectFuncSigs : List FuncSigChange :=
  view.functions.foldl (queueSigOfFunction state view)
    (state.funcOriginalCC.items.filterMap fun entry => sigWithConvention state view entry.1 entry.2)

/-! ## Equates -/

def equateLabel (id : Int64) : Option String :=
  match view.getTypeById (equateTypeId id) with
  | some (.enumeration _ (first :: _)) => some first.name
  | _ => none

def collectEquateRenames : List EquateRename :=
  state.equateOriginalNameById.items.filterMap fun entry =>
    (equateLabel view entry.1).bind fun label => if label = entry.2 then none else some ⟨entry.1, label⟩

/-- The equate's enum is shown at this operand. -/
def showsEquate (func : BNFunction) (id : Int64) (value : Int64) (addr : UInt64) (opIdx : Int32) : Bool :=
  func.displayTypes.lookup (addr, value.toUInt64, opIdx.toInt64.toUInt64) =
    some (.enumeration (some (equateTypeId id)))

def equateRefsAt (id : Int64) (ref : TypeReference) : List NewEquateRef :=
  match ref.func.bind view.functionAt with
  | none => []
  | some func =>
    let value := (state.equateValueById.lookup id).getD 0
    let known := (state.equateRefsByEquateId.lookup id).getD ∅
    (([0, 1, 2, 3] : List Int32).filter fun opIdx =>
      showsEquate func id value ref.addr opIdx && (ref.addr - rebase state view, opIdx) ∉ known).map
        fun opIdx => ⟨id, ref.addr, opIdx⟩

def collectNewEquateRefs : List NewEquateRef :=
  state.equateOriginalNameById.items.flatMap fun entry =>
    if (view.getTypeById (equateTypeId entry.1)).isNone then []
    else ((view.typeReferences.lookup entry.2).getD []).flatMap (equateRefsAt state view entry.1)

/-! ## The preview -/

/-- `collectCheckinChanges`; without an imported item there is nothing to collect. -/
def collectCheckinChanges : GhidraCheckinPreview :=
  if state.checkinItem = "" then {}
  else
    { renames := collectRenames state view
      comments := collectComments state view
      equateRenames := collectEquateRenames state view
      bookmarkChanges := collectBookmarks state view
      paramRenames := collectParamRenames state view
      dataTypeChanges := collectDataTypes state view
      dataItemChanges := collectDataItems state view
      funcSigChanges := collectFuncSigs state view
      newSymbols := collectNewSymbols state view
      newParams := collectNewParams state view
      newEquateRefs := collectNewEquateRefs state view }

end CheckinState
end GhidraBridge
