import GhidraBridge.CheckinState
import GhidraBridge.Json

/-! `buildCheckinJson` (`GhidraJson.cpp`): the preview as the body of a check-in
request. Addresses leave the view here: each is moved back to Ghidra's base and
written as hexadecimal text. -/
namespace GhidraBridge
open Lib

/-- A member that is left out when its text is empty. -/
def optionalText (key text : String) : List (String × Json) :=
  if text = "" then [] else [(key, .str text)]

def int64Json (value : Int64) : Json := .int value.toInt

def int32Json (value : Int32) : Json := .int value.toInt

def vaJson (rebase addr : UInt64) : Json := .str (toHex (addr - rebase))

namespace CheckinJson
variable (rebase : UInt64)

def renameEntry (r : SymbolRename) : Json := .obj [("key", int64Json r.key), ("name", .str r.newName)]

def newSymbolEntry (s : NewSymbol) : Json :=
  .obj [("va", vaJson rebase s.addr), ("name", .str s.name), ("sym_type", .int (if s.isFunction then 5 else 0))]

/-- The column a comment goes to: the plate where the baseline has a function
comment at its address, else the column it was imported from, else `eol`. -/
def commentField (addrToOriginalFuncComment : Table UInt64 String)
    (addrToCommentField : Table UInt64 CommentField) (addr : UInt64) : String :=
  if addr ∈ addrToOriginalFuncComment then "plate"
  else ((addrToCommentField.lookup addr).getD .eol).text

def commentEntry (addrToOriginalFuncComment : Table UInt64 String)
    (addrToCommentField : Table UInt64 CommentField) (c : CommentChange) : Json :=
  .obj ([("va", vaJson rebase c.addr),
      (commentField addrToOriginalFuncComment addrToCommentField c.addr, .str c.text)] ++
    optionalText "key" c.encodedKey)

def equateRenameEntry (r : EquateRename) : Json := .obj [("id", int64Json r.id), ("name", .str r.name)]

def equateRefEntry (r : NewEquateRef) : Json :=
  .obj [("id", int64Json r.equateId), ("va", vaJson rebase r.addr), ("op_index", int32Json r.opIndex)]

def bookmarkEntry (b : BookmarkChange) : Json :=
  .obj [("op", .str b.op.text), ("type", .str b.type), ("addr", vaJson rebase b.addr),
    ("category", .str b.category), ("comment", .str b.comment)]

def paramRenameEntry (r : ParamRename) : Json :=
  .obj ([("key", int64Json r.key), ("name", .str r.name)] ++ optionalText "type_name" r.typeName)

def newParamEntry (p : NewParam) : Json :=
  .obj ([("func_va", vaJson rebase p.funcAddr), ("ordinal", int32Json p.ordinal), ("name", .str p.name),
      ("is_local", .bool p.isLocal)] ++ optionalText "type_name" p.typeName)

def memberEntry (m : ChangedMember) : Json :=
  .obj [("name", .str m.name), ("offset", int32Json m.offset), ("size", int32Json m.size),
    ("type_name", .str m.typeName)]

def valueEntry (v : ChangedValue) : Json := .obj [("name", .str v.name), ("value", int64Json v.value)]

def dataTypeEntry (dt : DataTypeChange) : Json :=
  .obj ([("op", .str dt.op.text), ("kind", .str dt.kind.text), ("name", .str dt.name),
      ("ghidra_id", int64Json dt.ghidraId), ("size", int32Json dt.size)] ++
    (if dt.members = [] then [] else [("members", .arr (dt.members.map memberEntry))]) ++
    (if dt.values = [] then [] else [("values", .arr (dt.values.map valueEntry))]) ++
    optionalText "underlying_type_name" dt.underlyingTypeName)

def dataItemEntry (di : DataItemChange) : Json :=
  .obj [("op", .str di.op.text), ("addr", vaJson rebase di.addr), ("type_name", .str di.typeName)]

def funcSigEntry (fs : FuncSigChange) : Json :=
  .obj ([("key", int64Json fs.key)] ++ optionalText "cc" fs.callingConvention ++
    optionalText "ret_type" fs.returnTypeName)

def buildCheckinJson (preview : GhidraCheckinPreview) (addrToOriginalFuncComment : Table UInt64 String)
    (addrToCommentField : Table UInt64 CommentField) : List (String × Json) := [
  ("symbols", .arr (preview.renames.map renameEntry ++ preview.newSymbols.map (newSymbolEntry rebase))),
  ("comments", .arr (preview.comments.map
    (commentEntry rebase addrToOriginalFuncComment addrToCommentField))),
  ("equate_renames", .arr (preview.equateRenames.map equateRenameEntry)),
  ("equate_ref_adds", .arr (preview.newEquateRefs.map (equateRefEntry rebase))),
  ("bookmark_changes", .arr (preview.bookmarkChanges.map (bookmarkEntry rebase))),
  ("param_renames", .arr (preview.paramRenames.map paramRenameEntry ++
    preview.newParams.map (newParamEntry rebase))),
  ("data_type_changes", .arr (preview.dataTypeChanges.map dataTypeEntry)),
  ("data_item_changes", .arr (preview.dataItemChanges.map (dataItemEntry rebase))),
  ("func_sig_changes", .arr (preview.funcSigChanges.map funcSigEntry))]

end CheckinJson
end GhidraBridge
