import GhidraBridge.DatabaseExporter

/-! The import as the view reads it: `opOpenDb` (`BridgeConnection.java`) copies the
categories of an export into its response, and `parseDbExportJson`
(`GhidraJson.cpp`) reads them back. -/
namespace GhidraBridge
open Lib

namespace Strtoull

/-- The blanks that are skipped. -/
def isSpace (c : Char) : Bool := c = ' ' || (9 ≤ c.toNat && c.toNat ≤ 13)

/-- A second prefix is skipped where a digit follows it. -/
def skipBase : List Char → List Char
  | '0' :: 'x' :: c :: rest => if (Hex.digit? c).isSome then c :: rest else '0' :: 'x' :: c :: rest
  | '0' :: 'X' :: c :: rest => if (Hex.digit? c).isSome then c :: rest else '0' :: 'X' :: c :: rest
  | text => text

/-- A number that does not fit is the largest one that does. -/
def saturate (value : Nat) : UInt64 := if value < 2 ^ 64 then UInt64.ofNat value else 0xFFFFFFFFFFFFFFFF

def unsigned (text : List Char) : UInt64 := saturate (Hex.readRun 0 (skipBase text))

end Strtoull

/-- `strtoull` with base 16. -/
def strtoull (text : List Char) : UInt64 :=
  match text.dropWhile Strtoull.isSpace with
  | '-' :: rest => 0 - Strtoull.unsigned rest
  | '+' :: rest => Strtoull.unsigned rest
  | rest => Strtoull.unsigned rest

def parseHexAddr (s : String) : UInt64 :=
  match s.toList with
  | [] | [_] => 0
  | '0' :: 'x' :: digits | '0' :: 'X' :: digits => strtoull digits
  | text => strtoull text

/-! ## The response -/

/-- What `opOpenDb` copies of an export: the members it names that are there. -/
def openDbData (dbData : List (String × Json)) : List (String × Json) :=
  ["image_base", "symbols", "comments", "func_flags", "equates", "bookmarks", "parameters", "data_types",
    "data_items", "xref_stats"].filterMap fun key => (dbData.lookup key).map fun member => (key, member)

/-- `respondOk`. -/
def respondOk (id : Int32) (extra : List (String × Json)) : Json :=
  Json.dropNulls (.obj ([("id", .int id.toInt), ("ok", .bool true)] ++ extra))

def openDbResponse (id : Int32) (dbData : List (String × Json)) : Json := respondOk id (openDbData dbData)

/-! ## The parser -/

/-- The enumerator of an ordinal. The exporter sends no other number. -/
def GhidraSymbolType.ofOrdinal (ordinal : Int32) : GhidraSymbolType :=
  ([.label, .library, .namespace, .class, .function, .parameter, .localVar, .globalVar, .external] :
    List GhidraSymbolType).getD ordinal.toInt.toNat .label

def GhidraSymbolSource.ofOrdinal (ordinal : Int32) : GhidraSymbolSource :=
  ([.default, .analysis, .imported, .user] : List GhidraSymbolSource).getD ordinal.toInt.toNat .default

def TypeKind.ofText (text : String) : TypeKind :=
  if text = "struct" then .struct
  else if text = "union" then .union
  else if text = "enum" then .enum
  else if text = "typedef" then .typedef
  else .other text

namespace DbExportJson

/-- A text member, empty where it is missing. -/
def textOf (j : Json) (key : String) : Except String String := j.valueOr key Json.getString ""

/-- An address member. -/
def addrOf (j : Json) (key : String) : Except String UInt64 :=
  (j.valueOr key Json.getString "0x0").map parseHexAddr

def longOf (j : Json) (key : String) (dflt : Int64) : Except String Int64 := j.valueOr key Json.getInt64 dflt

def intOf (j : Json) (key : String) : Except String Int32 := j.valueOr key Json.getInt32 0

def boolOf (j : Json) (key : String) (dflt : Bool) : Except String Bool := j.valueOr key Json.getBool dflt

/-- Each element of a member, if the object has it. -/
def eachOf (j : Json) (key : String) (read : Json → Except String A) : Except String (List A) :=
  match j.get? key with
  | none => .ok []
  | some member => member.elements.mapM read

def symbol (j : Json) : Except String GhidraSymbol := do
  return {
    key := ← longOf j "key" 0
    name := ← textOf j "name"
    addr := ← addrOf j "addr"
    type := .ofOrdinal (← intOf j "type")
    source := .ofOrdinal (← intOf j "source")
    namespaceId := ← longOf j "ns" 0 }

def comment (j : Json) : Except String GhidraComment := do
  return {
    addr := ← addrOf j "addr"
    encodedKey := ← textOf j "key"
    eol := ← textOf j "eol"
    pre := ← textOf j "pre"
    post := ← textOf j "post"
    plate := ← textOf j "plate"
    rep := ← textOf j "rep" }

/-- The flags of a function and, if it has a calling convention or a named return
type, its signature. -/
def function (j : Json) : Except String (GhidraFuncFlags × Option GhidraFuncSig) := do
  let flags : GhidraFuncFlags := {
    key := ← longOf j "key" 0
    thunk := ← boolOf j "thunk" false
    noReturn := ← boolOf j "no_ret" false
    isInline := ← boolOf j "inline" false }
  let cc ← textOf j "cc"
  let retType ← textOf j "ret_type"
  let retTypeId ← longOf j "ret_type_id" (-1)
  return (flags,
    if cc ≠ "" ∨ retType ≠ "" then
      some { key := flags.key, callingConvention := cc, returnTypeName := retType, returnTypeId := retTypeId }
    else none)

def equateRef (j : Json) : Except String GhidraEquateRef := do
  return { addr := ← addrOf j "addr", opIndex := ← intOf j "op_index" }

def equate (j : Json) : Except String GhidraEquate := do
  return {
    id := ← longOf j "id" 0
    name := ← textOf j "name"
    value := ← longOf j "value" 0
    refs := ← eachOf j "refs" equateRef }

def bookmark (j : Json) : Except String GhidraBookmark := do
  return {
    type := ← textOf j "type"
    addr := ← addrOf j "addr"
    category := ← textOf j "category"
    comment := ← textOf j "comment" }

def parameter (j : Json) : Except String GhidraParameter := do
  return {
    key := ← longOf j "key" 0
    funcAddr := ← addrOf j "func_addr"
    name := ← textOf j "name"
    isParam := ← boolOf j "is_param" true
    ordinal := ← intOf j "ordinal"
    typeName := ← textOf j "type_name"
    typeId := ← longOf j "type_id" (-1) }

def dataTypeMember (j : Json) : Except String GhidraDataTypeMember := do
  return {
    offset := ← intOf j "offset"
    typeId := ← longOf j "type_id" 0
    name := ← textOf j "name"
    comment := ← textOf j "comment"
    size := ← intOf j "size"
    ordinal := ← intOf j "ordinal"
    typeName := ← textOf j "type_name" }

def enumValue (j : Json) : Except String GhidraEnumValue := do
  return { name := ← textOf j "name", value := ← longOf j "value" 0, comment := ← textOf j "comment" }

/-- Only a typedef has the name of an underlying type. -/
def dataType (j : Json) : Except String GhidraDataType := do
  let kind := TypeKind.ofText (← textOf j "kind")
  return {
    id := ← longOf j "id" 0
    kind
    name := ← textOf j "name"
    comment := ← textOf j "comment"
    size := ← intOf j "size"
    underlyingTypeId := ← longOf j "underlying_type_id" 0
    underlyingTypeName := ← if kind = .typedef then textOf j "underlying_name" else .ok ""
    members := ← eachOf j "members" dataTypeMember
    values := ← eachOf j "values" enumValue }

def dataItem (j : Json) : Except String GhidraDataItem := do
  return { addr := ← addrOf j "addr", typeId := ← longOf j "type_id" 0 }

def memoryBlock (j : Json) : Except String GhidraMemoryBlock := do
  return {
    name := ← textOf j "name"
    addr := ← addrOf j "addr"
    size := ← addrOf j "size"
    read := ← boolOf j "r" true
    write := ← boolOf j "w" false
    execute := ← boolOf j "x" false
    initialized := ← boolOf j "initialized" true
    overlay := ← boolOf j "overlay" false }

def xrefCounts (xs : Json) : Except String GhidraXrefStats := do
  return { fromCount := ← intOf xs "from_count", toCount := ← intOf xs "to_count" }

def xrefStats (resp : Json) : Except String GhidraXrefStats :=
  match resp.get? "xref_stats" with
  | none => .ok {}
  | some xs => xrefCounts xs

def parseDbExportJson (resp : Json) : Except String GhidraDbExport := do
  let imageBase ← addrOf resp "image_base"
  let diag ← eachOf resp "diag" Json.getString
  let symbols ← eachOf resp "symbols" symbol
  let comments ← eachOf resp "comments" comment
  let functions ← eachOf resp "func_flags" function
  return {
    imageBase
    diag
    symbols
    comments
    funcFlags := functions.map Prod.fst
    funcSigs := functions.filterMap Prod.snd
    equates := ← eachOf resp "equates" equate
    bookmarks := ← eachOf resp "bookmarks" bookmark
    parameters := ← eachOf resp "parameters" parameter
    dataTypes := ← eachOf resp "data_types" dataType
    dataItems := ← eachOf resp "data_items" dataItem
    memoryBlocks := ← eachOf resp "memory_blocks" memoryBlock
    xrefStats := ← xrefStats resp }

end DbExportJson
end GhidraBridge
