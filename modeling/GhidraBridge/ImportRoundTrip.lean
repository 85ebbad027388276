import GhidraBridge.DbExportJson

/-! An import end to end: the exporter's arrays, the response `opOpenDb` makes of
them and what `parseDbExportJson` reads. Each category that is copied comes back
record by record; the memory blocks are not copied. -/
namespace GhidraBridge.ImportRoundTrip
open Lib DatabaseExporter DbExportJson

/-! ## Addresses as text -/

/-- No digit is a blank. -/
theorem isSpace_eq_false {c : Char} (digit : (Hex.digit? c).isSome) : Strtoull.isSpace c = false := by
  have low : 48 ≤ c.toNat := by
    unfold Hex.digit? at digit
    split at digit
    · rename_i decimal
      exact decimal.1
    · split at digit
      · rename_i lower
        exact Nat.le_trans (by decide) (show 'a'.toNat ≤ c.toNat from lower.1)
      · split at digit
        · rename_i upper
          exact Nat.le_trans (by decide) (show 'A'.toNat ≤ c.toNat from upper.1)
        · cases digit
  have apart : c ≠ ' ' := by
    rintro rfl
    exact absurd low (by decide)
  have high : ¬c.toNat ≤ 13 := by omega
  simp [Strtoull.isSpace, apart, high]

theorem strtoull_of_readFrom {text : List Char} {value : UInt64}
    (reads : Hex.readFrom 0 text = some value.toNat) : strtoull text = value := by
  have digits := Hex.digit_of_readFrom reads
  have unsigned : Strtoull.unsigned text = value := by
    have whole : Strtoull.skipBase text = text := by
      unfold Strtoull.skipBase
      split
      · exact absurd (digits 'x' (by simp)) (by decide)
      · exact absurd (digits 'X' (by simp)) (by decide)
      · rfl
    rw [Strtoull.unsigned, whole, Hex.readRun_of_readFrom reads, Strtoull.saturate, if_pos value.toNat_lt,
      UInt64.ofNat_toNat]
  have start : text.dropWhile Strtoull.isSpace = text := by
    cases text with
    | nil => rfl
    | cons c rest =>
      rw [List.dropWhile_cons_of_neg]
      rw [isSpace_eq_false (digits c List.mem_cons_self)]
      exact Bool.false_ne_true
  rw [strtoull, start]
  split
  · exact absurd (digits '-' (by simp)) (by decide)
  · exact absurd (digits '+' (by simp)) (by decide)
  · exact unsigned

theorem parseHexAddr_toHex (value : UInt64) : parseHexAddr (toHex value) = value := by
  rw [parseHexAddr, toHex, String.toList_ofList]
  exact strtoull_of_readFrom (Hex.readFrom_digits value.toNat)

/-! ## The records in the exporter's form -/

def symbolTypeOrdinal : GhidraSymbolType → Int
  | .label => 0
  | .library => 1
  | .namespace => 2
  | .class => 3
  | .function => 4
  | .parameter => 5
  | .localVar => 6
  | .globalVar => 7
  | .external => 8

def symbolSourceOrdinal : GhidraSymbolSource → Int
  | .default => 0
  | .analysis => 1
  | .imported => 2
  | .user => 3

def symbolEntry (s : GhidraSymbol) : Json :=
  .obj [("key", longJson s.key), ("name", .str s.name), ("addr", .str (toHex s.addr)),
    ("type", .int (symbolTypeOrdinal s.type)), ("source", .int (symbolSourceOrdinal s.source)),
    ("ns", longJson s.namespaceId)]

def commentEntry (c : GhidraComment) : Json :=
  .obj ([("addr", .str (toHex c.addr)), ("key", .str c.encodedKey)] ++
    (([("eol", c.eol), ("pre", c.pre), ("post", c.post), ("plate", c.plate), ("rep", c.rep)].filter
      fun column => column.2 ≠ "").map fun column => (column.1, .str column.2)))

/-- What the exporter writes of one function. -/
structure FunctionRecord where
  flags : GhidraFuncFlags
  callingConvention : String
  returnTypeName : String
  returnTypeId : Int64

def functionEntry (f : FunctionRecord) : Json :=
  .obj [("key", longJson f.flags.key), ("thunk", .bool f.flags.thunk), ("no_ret", .bool f.flags.noReturn),
    ("inline", .bool f.flags.isInline), ("cc", .str f.callingConvention), ("ret_type", .str f.returnTypeName),
    ("ret_type_id", longJson f.returnTypeId)]

/-- The signature, if there is anything of one by name. -/
def FunctionRecord.signature (f : FunctionRecord) : Option GhidraFuncSig :=
  if f.callingConvention ≠ "" ∨ f.returnTypeName ≠ "" then
    some ⟨f.flags.key, f.callingConvention, f.returnTypeName, f.returnTypeId⟩
  else none

def equateRefEntry (r : GhidraEquateRef) : Json :=
  .obj [("addr", .str (toHex r.addr)), ("op_index", .int r.opIndex.toInt)]

/-- An equate under a name that may be null. -/
def equateUnder (name : Option String) (e : GhidraEquate) : Json :=
  .obj [("id", longJson e.id), ("name", textJson name), ("value", longJson e.value),
    ("refs", .arr (e.refs.map equateRefEntry))]

/-- A bookmark of a type that may be null. -/
def bookmarkUnder (type : Option String) (b : GhidraBookmark) : Json :=
  .obj [("type", textJson type), ("addr", .str (toHex b.addr)), ("category", .str b.category),
    ("comment", .str b.comment)]

def parameterEntry (p : GhidraParameter) : Json :=
  .obj [("key", longJson p.key), ("func_addr", .str (toHex p.funcAddr)), ("name", .str p.name),
    ("is_param", .bool p.isParam), ("ordinal", .int p.ordinal.toInt), ("type_name", .str p.typeName),
    ("type_id", longJson p.typeId)]

def memberEntry (m : GhidraDataTypeMember) : Json :=
  .obj [("offset", .int m.offset.toInt), ("type_id", longJson m.typeId), ("type_name", .str m.typeName),
    ("name", .str m.name), ("comment", .str m.comment), ("size", .int m.size.toInt),
    ("ordinal", .int m.ordinal.toInt)]

def enumValueEntry (v : GhidraEnumValue) : Json :=
  .obj [("name", .str v.name), ("value", longJson v.value), ("comment", .str v.comment)]

/-- The exporter writes other members for each kind. -/
def dataTypeEntry (dt : GhidraDataType) : Json :=
  match dt.kind with
  | .typedef =>
    .obj [("id", longJson dt.id), ("kind", .str "typedef"), ("name", .str dt.name),
      ("underlying_type_id", longJson dt.underlyingTypeId), ("underlying_name", .str dt.underlyingTypeName),
      ("size", .int dt.size.toInt)]
  | .enum =>
    .obj [("id", longJson dt.id), ("kind", .str "enum"), ("name", .str dt.name), ("comment", .str dt.comment),
      ("size", .int dt.size.toInt), ("values", .arr (dt.values.map enumValueEntry))]
  | kind =>
    .obj [("id", longJson dt.id), ("kind", .str kind.text), ("name", .str dt.name), ("comment", .str dt.comment),
      ("size", .int dt.size.toInt), ("members", .arr (dt.members.map memberEntry))]

def dataItemEntry (d : GhidraDataItem) : Json :=
  .obj [("addr", .str (toHex d.addr)), ("type_id", longJson d.typeId)]

def memoryBlockEntry (b : GhidraMemoryBlock) : Json :=
  .obj [("name", .str b.name), ("addr", .str (toHex b.addr)), ("size", .str (toHex b.size)), ("r", .bool b.read),
    ("w", .bool b.write), ("x", .bool b.execute), ("initialized", .bool b.initialized),
    ("overlay", .bool b.overlay)]

def xrefStatsEntry (x : GhidraXrefStats) : Json :=
  .obj [("from_count", .int x.fromCount.toInt), ("to_count", .int x.toCount.toInt)]

/-- The parsed records, in the exporter's form, are the arrays of the export. A
function whose record has no signature has the defaults of one. -/
structure Lossless (dbData : List (String × Json)) (out : GhidraDbExport) : Prop where
  imageBase : dbData.lookup "image_base" = some (.str (toHex out.imageBase))
  symbols : dbData.lookup "symbols" = some (.arr (out.symbols.map symbolEntry))
  comments : dbData.lookup "comments" = some (.arr (out.comments.map commentEntry))
  functions : ∃ records : List FunctionRecord,
    dbData.lookup "func_flags" = some (.arr (records.map functionEntry)) ∧
      out.funcFlags = records.map FunctionRecord.flags ∧ out.funcSigs = records.filterMap FunctionRecord.signature ∧
      ∀ f ∈ records, f.signature = none → f.returnTypeId = -1
  equates : dbData.lookup "equates" = some (.arr (out.equates.map fun e => equateUnder (some e.name) e))
  bookmarks : dbData.lookup "bookmarks" = some (.arr (out.bookmarks.map fun b => bookmarkUnder (some b.type) b))
  parameters : dbData.lookup "parameters" = some (.arr (out.parameters.map parameterEntry))
  dataTypes : dbData.lookup "data_types" = some (.arr (out.dataTypes.map dataTypeEntry))
  dataItems : dbData.lookup "data_items" = some (.arr (out.dataItems.map dataItemEntry))
  memoryBlocks : dbData.lookup "memory_blocks" = some (.arr (out.memoryBlocks.map memoryBlockEntry))
  xrefStats : dbData.lookup "xref_stats" = some (xrefStatsEntry out.xrefStats)

/-! ## One record -/

section Members
variable {fields : List (String × Json)} {key : String}

theorem valueOr_held {member : Json} {read : Json → Except String A} {dflt : A}
    (held : fields.lookup key = some member) : (Json.obj fields).valueOr key read dflt = read member := by
  have found : (Json.obj fields).get? key = some member := held
  rw [Json.valueOr, if_pos (show (Json.obj fields).isObject = true from rfl), found]

theorem valueOr_missing {read : Json → Except String A} {dflt : A} (missing : fields.lookup key = none) :
    (Json.obj fields).valueOr key read dflt = .ok dflt := by
  have found : (Json.obj fields).get? key = none := missing
  rw [Json.valueOr, if_pos (show (Json.obj fields).isObject = true from rfl), found]

theorem text_reads {text : String} (held : fields.lookup key = some (.str text)) :
    textOf (.obj fields) key = .ok text := valueOr_held held

theorem addr_reads {value : UInt64} (held : fields.lookup key = some (.str (toHex value))) :
    addrOf (.obj fields) key = .ok value := by
  rw [addrOf, valueOr_held held]
  exact congrArg Except.ok (parseHexAddr_toHex value)

theorem long_reads {value dflt : Int64} (held : fields.lookup key = some (longJson value)) :
    longOf (.obj fields) key dflt = .ok value := by
  rw [longOf, valueOr_held held]
  exact congrArg Except.ok (Int64.ofInt_toInt value)

theorem int_reads {value : Int32} (held : fields.lookup key = some (.int value.toInt)) :
    intOf (.obj fields) key = .ok value := by
  rw [intOf, valueOr_held held]
  show Except.ok (Int64.ofInt value.toInt).toInt32 = _
  rw [Int64.ofInt_int32ToInt, Int32.toInt32_toInt64]

theorem bool_reads {value dflt : Bool} (held : fields.lookup key = some (.bool value)) :
    boolOf (.obj fields) key dflt = .ok value := valueOr_held held

theorem each_missing {read : Json → Except String A} (missing : fields.lookup key = none) :
    eachOf (.obj fields) key read = .ok [] := by
  have found : (Json.obj fields).get? key = none := missing
  rw [eachOf, found]

/-- An array whose every element is read. -/
theorem each_reads {read : Json → Except String A} {items : List B} {json : B → Json} {value : B → A}
    (held : fields.lookup key = some (.arr (items.map json)))
    (reads : ∀ item ∈ items, read (json item) = .ok (value item)) :
    eachOf (.obj fields) key read = .ok (items.map value) := by
  have all : (items.map json).mapM read = .ok (items.map value) := by
    clear held
    induction items with
    | nil => rfl
    | cons item rest ih =>
      rw [List.map_cons, List.mapM_cons, reads item List.mem_cons_self,
        ih fun x member => reads x (List.mem_cons_of_mem item member)]
      rfl
  have found : (Json.obj fields).get? key = some (.arr (items.map json)) := held
  rw [eachOf, found]
  exact all

end Members

/-! An object without nulls goes through unchanged, so each record is read as it was
written. -/

theorem dropNullsOfItems_map {entry : A → Json} (kept : ∀ a, (entry a).dropNulls = entry a) (items : List A) :
    Json.dropNullsOfItems (items.map entry) = items.map entry := by
  induction items with
  | nil => rfl
  | cons item rest ih => rw [List.map_cons, Json.dropNullsOfItems, ih, kept]

theorem symbolType_reads (type : GhidraSymbolType) :
    GhidraSymbolType.ofOrdinal (Int64.ofInt (symbolTypeOrdinal type)).toInt32 = type := by
  cases type <;> decide

theorem symbolSource_reads (source : GhidraSymbolSource) :
    GhidraSymbolSource.ofOrdinal (Int64.ofInt (symbolSourceOrdinal source)).toInt32 = source := by
  cases source <;> decide

theorem symbol_reads (s : GhidraSymbol) : symbol (symbolEntry s).dropNulls = .ok s := by
  have key : longOf (symbolEntry s) "key" 0 = .ok s.key := long_reads rfl
  have name : textOf (symbolEntry s) "name" = .ok s.name := text_reads rfl
  have address : addrOf (symbolEntry s) "addr" = .ok s.addr := addr_reads rfl
  have type : intOf (symbolEntry s) "type" = (Json.int (symbolTypeOrdinal s.type)).getInt32 := valueOr_held rfl
  have source : intOf (symbolEntry s) "source" = (Json.int (symbolSourceOrdinal s.source)).getInt32 := valueOr_held rfl
  have ns : longOf (symbolEntry s) "ns" 0 = .ok s.namespaceId := long_reads rfl
  show symbol (symbolEntry s) = .ok s
  rw [symbol, key, name, address, type, source, ns]
  show Except.ok _ = _
  rw [symbolType_reads, symbolSource_reads]

/-- A column without text is not written. -/
theorem lookup_columns {columns : List (String × String)} {key text : String}
    (distinct : columns.Pairwise fun first second => first.1 ≠ second.1) (held : (key, text) ∈ columns) :
    ((columns.filter fun column => column.2 ≠ "").map fun column => (column.1, Json.str column.2)).lookup key =
      if text = "" then none else some (.str text) := by
  induction columns with
  | nil => cases held
  | cons column rest ih =>
    obtain ⟨apart, later⟩ := List.pairwise_cons.mp distinct
    rcases List.mem_cons.mp held with rfl | inside
    · split
      · rename_i empty
        rw [List.filter_cons_of_neg (by simp [empty]), List.lookup_eq_none_iff]
        intro field member
        obtain ⟨other, listed, rfl⟩ := List.mem_map.mp member
        simpa using apart other (List.mem_of_mem_filter listed)
      · rename_i filled
        rw [List.filter_cons_of_pos (by simpa using filled), List.map_cons, List.lookup_cons_self]
    · rw [← ih later inside]
      by_cases filled : column.2 ≠ ""
      · have skipped : (key == column.1) = false := by
          simpa using (apart (key, text) inside).symm
        rw [List.filter_cons_of_pos (by simpa using filled), List.map_cons, List.lookup_cons, skipped]
      · rw [List.filter_cons_of_neg (by simpa using filled)]

theorem dropNullsOfFields_texts (columns : List (String × String)) :
    Json.dropNullsOfFields (columns.map fun column => (column.1, Json.str column.2)) =
      columns.map fun column => (column.1, .str column.2) := by
  induction columns with
  | nil => rfl
  | cons column rest ih =>
    rw [List.map_cons, Json.dropNullsOfFields, ih]
    · rfl
    · intro null
      cases null

theorem comment_reads (c : GhidraComment) : comment (commentEntry c).dropNulls = .ok c := by
  have kept : (commentEntry c).dropNulls = commentEntry c :=
    congrArg (fun columns => Json.obj (("addr", .str (toHex c.addr)) :: ("key", .str c.encodedKey) :: columns))
      (dropNullsOfFields_texts _)
  have column {key text : String} (first : key ≠ "addr") (second : key ≠ "key")
      (listed : (key, text) ∈ [("eol", c.eol), ("pre", c.pre), ("post", c.post), ("plate", c.plate), ("rep", c.rep)]) :
      textOf (commentEntry c) key = .ok text := by
    have found := lookup_columns (by simp) listed
    have skipped (rest : List (String × Json)) :
        (("addr", Json.str (toHex c.addr)) :: ("key", .str c.encodedKey) :: rest).lookup key = rest.lookup key := by
      rw [List.lookup_cons, beq_false_of_ne first, List.lookup_cons, beq_false_of_ne second]
    split at found
    · rename_i empty
      rw [empty]
      exact valueOr_missing ((skipped _).trans found)
    · exact text_reads ((skipped _).trans found)
  have address : addrOf (commentEntry c) "addr" = .ok c.addr := addr_reads rfl
  have key : textOf (commentEntry c) "key" = .ok c.encodedKey := text_reads rfl
  rw [kept, comment, address, key, column (by decide) (by decide) (show ("eol", c.eol) ∈ _ by simp),
    column (by decide) (by decide) (show ("pre", c.pre) ∈ _ by simp),
    column (by decide) (by decide) (show ("post", c.post) ∈ _ by simp),
    column (by decide) (by decide) (show ("plate", c.plate) ∈ _ by simp),
    column (by decide) (by decide) (show ("rep", c.rep) ∈ _ by simp)]
  rfl

theorem function_reads (f : FunctionRecord) :
    function (functionEntry f).dropNulls = .ok (f.flags, f.signature) := by
  have key : longOf (functionEntry f) "key" 0 = .ok f.flags.key := long_reads rfl
  have thunk : boolOf (functionEntry f) "thunk" false = .ok f.flags.thunk := bool_reads rfl
  have noReturn : boolOf (functionEntry f) "no_ret" false = .ok f.flags.noReturn := bool_reads rfl
  have isInline : boolOf (functionEntry f) "inline" false = .ok f.flags.isInline := bool_reads rfl
  have cc : textOf (functionEntry f) "cc" = .ok f.callingConvention := text_reads rfl
  have retType : textOf (functionEntry f) "ret_type" = .ok f.returnTypeName := text_reads rfl
  have retTypeId : longOf (functionEntry f) "ret_type_id" (-1) = .ok f.returnTypeId := long_reads rfl
  show function (functionEntry f) = _
  rw [function, key, thunk, noReturn, isInline, cc, retType, retTypeId]
  rfl

theorem equateRef_reads (r : GhidraEquateRef) : equateRef (equateRefEntry r) = .ok r := by
  have address : addrOf (equateRefEntry r) "addr" = .ok r.addr := addr_reads rfl
  have opIndex : intOf (equateRefEntry r) "op_index" = .ok r.opIndex := int_reads rfl
  rw [equateRef, address, opIndex]
  rfl

/-- The member of a text that may be null, as it is sent. -/
def sentText (key : String) (text : Option String) : List (String × Json) :=
  (text.map fun text => (key, .str text)).toList

def sentEquate (name : Option String) (e : GhidraEquate) : List (String × Json) :=
  [("id", longJson e.id)] ++ sentText "name" name ++
    [("value", longJson e.value), ("refs", .arr (e.refs.map equateRefEntry))]

/-- A null name is left out, and read as an empty one. -/
theorem equate_reads (name : Option String) (e : GhidraEquate) :
    equate (equateUnder name e).dropNulls = .ok { e with name := name.getD "" } := by
  have sent : (equateUnder name e).dropNulls = .obj (sentEquate name e) := by
    rw [sentEquate, ← dropNullsOfItems_map (fun _ => rfl : ∀ r, (equateRefEntry r).dropNulls = equateRefEntry r)]
    cases name <;> rfl
  have value : (sentEquate name e).lookup "value" = some (longJson e.value) := by cases name <;> rfl
  have listed : (sentEquate name e).lookup "refs" = some (.arr (e.refs.map equateRefEntry)) := by
    cases name <;> rfl
  have text : textOf (.obj (sentEquate name e)) "name" = .ok (name.getD "") := by
    cases name with
    | none => exact valueOr_missing rfl
    | some text => exact text_reads rfl
  have refs := each_reads listed fun r _ => equateRef_reads r
  have id : longOf (.obj (sentEquate name e)) "id" 0 = .ok e.id := long_reads rfl
  rw [sent, equate, id, text, long_reads value, refs, List.map_id']
  rfl

def sentBookmark (type : Option String) (b : GhidraBookmark) : List (String × Json) :=
  sentText "type" type ++
    [("addr", .str (toHex b.addr)), ("category", .str b.category), ("comment", .str b.comment)]

theorem bookmark_reads (type : Option String) (b : GhidraBookmark) :
    bookmark (bookmarkUnder type b).dropNulls = .ok { b with type := type.getD "" } := by
  have sent : (bookmarkUnder type b).dropNulls = .obj (sentBookmark type b) := by cases type <;> rfl
  have address : (sentBookmark type b).lookup "addr" = some (.str (toHex b.addr)) := by cases type <;> rfl
  have category : (sentBookmark type b).lookup "category" = some (.str b.category) := by cases type <;> rfl
  have comment : (sentBookmark type b).lookup "comment" = some (.str b.comment) := by cases type <;> rfl
  have text : textOf (.obj (sentBookmark type b)) "type" = .ok (type.getD "") := by
    cases type with
    | none => exact valueOr_missing rfl
    | some text => exact text_reads rfl
  rw [sent, bookmark, text, addr_reads address, text_reads category, text_reads comment]
  rfl

theorem parameter_reads (p : GhidraParameter) : parameter (parameterEntry p).dropNulls = .ok p := by
  have key : longOf (parameterEntry p) "key" 0 = .ok p.key := long_reads rfl
  have func : addrOf (parameterEntry p) "func_addr" = .ok p.funcAddr := addr_reads rfl
  have name : textOf (parameterEntry p) "name" = .ok p.name := text_reads rfl
  have isParam : boolOf (parameterEntry p) "is_param" true = .ok p.isParam := bool_reads rfl
  have ordinal : intOf (parameterEntry p) "ordinal" = .ok p.ordinal := int_reads rfl
  have typeName : textOf (parameterEntry p) "type_name" = .ok p.typeName := text_reads rfl
  have typeId : longOf (parameterEntry p) "type_id" (-1) = .ok p.typeId := long_reads rfl
  show parameter (parameterEntry p) = .ok p
  rw [parameter, key, func, name, isParam, ordinal, typeName, typeId]
  rfl

theorem dataTypeMember_reads (m : GhidraDataTypeMember) : dataTypeMember (memberEntry m) = .ok m := by
  have offset : intOf (memberEntry m) "offset" = .ok m.offset := int_reads rfl
  have typeId : longOf (memberEntry m) "type_id" 0 = .ok m.typeId := long_reads rfl
  have name : textOf (memberEntry m) "name" = .ok m.name := text_reads rfl
  have comment : textOf (memberEntry m) "comment" = .ok m.comment := text_reads rfl
  have size : intOf (memberEntry m) "size" = .ok m.size := int_reads rfl
  have ordinal : intOf (memberEntry m) "ordinal" = .ok m.ordinal := int_reads rfl
  have typeName : textOf (memberEntry m) "type_name" = .ok m.typeName := text_reads rfl
  rw [dataTypeMember, offset, typeId, name, comment, size, ordinal, typeName]
  rfl

theorem enumValue_reads (v : GhidraEnumValue) : enumValue (enumValueEntry v) = .ok v := by
  have name : textOf (enumValueEntry v) "name" = .ok v.name := text_reads rfl
  have value : longOf (enumValueEntry v) "value" 0 = .ok v.value := long_reads rfl
  have comment : textOf (enumValueEntry v) "comment" = .ok v.comment := text_reads rfl
  rw [enumValue, name, value, comment]
  rfl

theorem dataItem_reads (d : GhidraDataItem) : dataItem (dataItemEntry d).dropNulls = .ok d := by
  have address : addrOf (dataItemEntry d) "addr" = .ok d.addr := addr_reads rfl
  have typeId : longOf (dataItemEntry d) "type_id" 0 = .ok d.typeId := long_reads rfl
  show dataItem (dataItemEntry d) = .ok d
  rw [dataItem, address, typeId]
  rfl

/-- The data types the exporter writes: each kind has the defaults of the members that
are not its own. -/
inductive Exported : GhidraDataType → Prop where
  | composite (id : Int64) (isUnion : Bool) (name comment : String) (size : Int32)
      (members : List GhidraDataTypeMember) :
      Exported { id, kind := if isUnion then .union else .struct, name, comment, size, members }
  | enum (id : Int64) (name comment : String) (size : Int32) (values : List GhidraEnumValue) :
      Exported { id, kind := .enum, name, comment, size, values }
  | typedef (id : Int64) (name : String) (size : Int32) (underlyingTypeId : Int64) (underlyingTypeName : String) :
      Exported { id, kind := .typedef, name, size, underlyingTypeId, underlyingTypeName }

theorem composite_reads (id : Int64) (kind : TypeKind) (composite : kind = .struct ∨ kind = .union)
    (name comment : String) (size : Int32) (members : List GhidraDataTypeMember) :
    dataType (.obj [("id", longJson id), ("kind", .str kind.text), ("name", .str name), ("comment", .str comment),
      ("size", .int size.toInt), ("members", .arr (members.map memberEntry))]) =
      .ok { id, kind, name, comment, size, members } := by
  generalize fields : [("id", longJson id), ("kind", Json.str kind.text), ("name", Json.str name),
    ("comment", Json.str comment), ("size", Json.int size.toInt), ("members", Json.arr (members.map memberEntry))] =
    j
  have kindText : textOf (.obj j) "kind" = .ok kind.text := text_reads (by subst fields; rfl)
  have readId : longOf (.obj j) "id" 0 = .ok id := long_reads (by subst fields; rfl)
  have readName : textOf (.obj j) "name" = .ok name := text_reads (by subst fields; rfl)
  have readComment : textOf (.obj j) "comment" = .ok comment := text_reads (by subst fields; rfl)
  have readSize : intOf (.obj j) "size" = .ok size := int_reads (by subst fields; rfl)
  have underlying : longOf (.obj j) "underlying_type_id" 0 = .ok 0 := valueOr_missing (by subst fields; rfl)
  have listed : j.lookup "members" = some (.arr (members.map memberEntry)) := by subst fields; rfl
  have readMembers := each_reads listed fun m _ => dataTypeMember_reads m
  have readValues : eachOf (.obj j) "values" enumValue = .ok [] := each_missing (by subst fields; rfl)
  rw [dataType, kindText, readId, readName, readComment, readSize, underlying, readMembers, readValues, List.map_id']
  rcases composite with rfl | rfl <;> rfl

theorem enum_reads (id : Int64) (name comment : String) (size : Int32) (values : List GhidraEnumValue) :
    dataType (.obj [("id", longJson id), ("kind", .str "enum"), ("name", .str name), ("comment", .str comment),
      ("size", .int size.toInt), ("values", .arr (values.map enumValueEntry))]) =
      .ok { id, kind := .enum, name, comment, size, values } := by
  generalize fields : [("id", longJson id), ("kind", Json.str "enum"), ("name", Json.str name),
    ("comment", Json.str comment), ("size", Json.int size.toInt), ("values", Json.arr (values.map enumValueEntry))] =
    j
  have kindText : textOf (.obj j) "kind" = .ok "enum" := text_reads (by subst fields; rfl)
  have readId : longOf (.obj j) "id" 0 = .ok id := long_reads (by subst fields; rfl)
  have readName : textOf (.obj j) "name" = .ok name := text_reads (by subst fields; rfl)
  have readComment : textOf (.obj j) "comment" = .ok comment := text_reads (by subst fields; rfl)
  have readSize : intOf (.obj j) "size" = .ok size := int_reads (by subst fields; rfl)
  have underlying : longOf (.obj j) "underlying_type_id" 0 = .ok 0 := valueOr_missing (by subst fields; rfl)
  have readMembers : eachOf (.obj j) "members" dataTypeMember = .ok [] := each_missing (by subst fields; rfl)
  have listed : j.lookup "values" = some (.arr (values.map enumValueEntry)) := by subst fields; rfl
  have readValues := each_reads listed fun v _ => enumValue_reads v
  rw [dataType, kindText, readId, readName, readComment, readSize, underlying, readMembers, readValues, List.map_id']
  rfl

theorem typedef_reads (id : Int64) (name : String) (size : Int32) (underlyingTypeId : Int64)
    (underlyingTypeName : String) :
    dataType (.obj [("id", longJson id), ("kind", .str "typedef"), ("name", .str name),
      ("underlying_type_id", longJson underlyingTypeId), ("underlying_name", .str underlyingTypeName),
      ("size", .int size.toInt)]) =
      .ok { id, kind := .typedef, name, size, underlyingTypeId, underlyingTypeName } := by
  generalize fields : [("id", longJson id), ("kind", Json.str "typedef"), ("name", Json.str name),
    ("underlying_type_id", longJson underlyingTypeId), ("underlying_name", Json.str underlyingTypeName),
    ("size", Json.int size.toInt)] = j
  have kindText : textOf (.obj j) "kind" = .ok "typedef" := text_reads (by subst fields; rfl)
  have readId : longOf (.obj j) "id" 0 = .ok id := long_reads (by subst fields; rfl)
  have readName : textOf (.obj j) "name" = .ok name := text_reads (by subst fields; rfl)
  have readComment : textOf (.obj j) "comment" = .ok "" := valueOr_missing (by subst fields; rfl)
  have readSize : intOf (.obj j) "size" = .ok size := int_reads (by subst fields; rfl)
  have underlying : longOf (.obj j) "underlying_type_id" 0 = .ok underlyingTypeId :=
    long_reads (by subst fields; rfl)
  have underlyingName : textOf (.obj j) "underlying_name" = .ok underlyingTypeName :=
    text_reads (by subst fields; rfl)
  have readMembers : eachOf (.obj j) "members" dataTypeMember = .ok [] := each_missing (by subst fields; rfl)
  have readValues : eachOf (.obj j) "values" enumValue = .ok [] := each_missing (by subst fields; rfl)
  rw [dataType, kindText, readId, readName, readComment, readSize, underlying, underlyingName, readMembers,
    readValues]
  rfl

theorem dataType_reads {dt : GhidraDataType} (exported : Exported dt) :
    dataType (dataTypeEntry dt).dropNulls = .ok dt := by
  cases exported with
  | composite id isUnion name comment size members =>
    have kept := dropNullsOfItems_map (fun _ => rfl : ∀ m, (memberEntry m).dropNulls = memberEntry m) members
    cases isUnion with
    | false =>
      have sent := composite_reads id .struct (.inl rfl) name comment size members
      rw [← kept] at sent
      exact sent
    | true =>
      have sent := composite_reads id .union (.inr rfl) name comment size members
      rw [← kept] at sent
      exact sent
  | enum id name comment size values =>
    have sent := enum_reads id name comment size values
    rw [← dropNullsOfItems_map (fun _ => rfl : ∀ v, (enumValueEntry v).dropNulls = enumValueEntry v) values] at sent
    exact sent
  | typedef id name size underlyingTypeId underlyingTypeName => exact typedef_reads ..

/-! ## The exporter's arrays -/

/-- A list of entries of records. -/
theorem exists_records {entry : A → Json} {items : List Json}
    (each : ∀ item ∈ items, ∃ record, item = entry record) : ∃ records : List A, items = records.map entry := by
  induction items with
  | nil => exact ⟨[], rfl⟩
  | cons item rest ih =>
    obtain ⟨record, rfl⟩ := each item List.mem_cons_self
    obtain ⟨records, rfl⟩ := ih fun other member => each other (List.mem_cons_of_mem _ member)
    exact ⟨record :: records, rfl⟩

/-- A walk that writes some of its elements. -/
theorem filterMap_eq_map_filter {write : A → Option B} {keeps : A → Bool} {value : A → B}
    (writes : ∀ a, write a = if keeps a then some (value a) else none) (items : List A) :
    items.filterMap write = (items.filter keeps).map value := by
  rw [← List.filterMap_eq_map, List.filterMap_filter]
  exact List.filterMap_congr fun a _ => writes a

section Export
variable (db : ProgramTables)

theorem symbolType_exported {type : Int8} (exported : isExportedType type = true) :
    ∃ kind, normalizeType type = symbolTypeOrdinal kind := by
  simp only [isExportedType, Bool.or_eq_true, decide_eq_true_eq] at exported
  rcases exported with ((rfl | rfl) | rfl) | rfl
  · exact ⟨.label, rfl⟩
  · exact ⟨.function, rfl⟩
  · exact ⟨.function, rfl⟩
  · exact ⟨.external, rfl⟩

theorem symbolSource_exported (flags : Int8) :
    ∃ source, (flags.toInt >>> (6 : Nat)) % 4 = symbolSourceOrdinal source := by
  have bits : (flags.toInt >>> (6 : Nat)) % 4 = 0 ∨ (flags.toInt >>> (6 : Nat)) % 4 = 1 ∨
      (flags.toInt >>> (6 : Nat)) % 4 = 2 ∨ (flags.toInt >>> (6 : Nat)) % 4 = 3 := by omega
  rcases bits with here | here | here | here
  · exact ⟨.default, here⟩
  · exact ⟨.analysis, here⟩
  · exact ⟨.imported, here⟩
  · exact ⟨.user, here⟩

theorem symbols_exported : ∃ records : List GhidraSymbol, exportSymbols db.toDatabase = records.map symbolEntry := by
  refine exists_records fun item listed => ?_
  obtain ⟨⟨key, rec⟩, _, exports⟩ := List.mem_filterMap.mp listed
  obtain ⟨name, named, exports⟩ := Option.bind_eq_some_iff.mp exports
  have exported : isExportedType rec.type = true := by
    unfold symbolName at named
    split at named
    · assumption
    · cases named
  obtain ⟨kind, type⟩ := symbolType_exported exported
  obtain ⟨source, bits⟩ := symbolSource_exported rec.flags
  unfold exportSymbolAs at exports
  dsimp only at exports
  split at exports
  · cases exports
  · cases exports
    refine ⟨⟨key, name, (decode rec.address db.addressMap).toUInt64, kind, source, rec.namespaceId⟩, ?_⟩
    rw [type, bits]
    rfl

/-- The record a row of the Comments table is exported as. -/
def commentRecord (addrMap : Table Int64 Int64) (key : Int64) (rec : CommentRow) : GhidraComment where
  addr := (decode key addrMap).toUInt64
  eol := emptyIfNull rec.eol
  pre := emptyIfNull rec.pre
  post := emptyIfNull rec.post
  plate := emptyIfNull rec.plate
  rep := emptyIfNull rec.rep
  encodedKey := addrHex key

/-- A row with text at an address in RAM is exported, every other one left out. -/
theorem exportComment_eq (addrMap : Table Int64 Int64) (key : Int64) (rec : CommentRow) :
    exportComment addrMap key rec =
      if commentColumns rec ≠ [] ∧ 0 ≤ decode key addrMap then some (commentEntry (commentRecord addrMap key rec))
      else none := by
  have columns : commentColumns rec =
      (([("eol", rec.eol), ("pre", rec.pre), ("post", rec.post), ("plate", rec.plate), ("rep", rec.rep)].map
        fun column => (column.1, emptyIfNull column.2)).filter fun column => column.2 ≠ "").map
        fun column => (column.1, .str column.2) := by
    rw [List.filter_map, List.map_map]
    rfl
  unfold exportComment
  by_cases empty : commentColumns rec = []
  · rw [if_pos empty, if_neg fun both => both.1 empty]
  · dsimp only
    rw [if_neg empty]
    by_cases outside : decode key addrMap < 0
    · rw [if_pos outside, if_neg fun both => absurd outside (Int64.not_lt.mpr both.2)]
    · rw [if_neg outside, if_pos ⟨empty, Int64.not_lt.mp outside⟩, columns]
      rfl

/-- The comments that are written. -/
def writtenComments : List GhidraComment :=
  (db.comments.items.filter fun entry => commentColumns entry.2 ≠ [] ∧ 0 ≤ decode entry.1 db.addressMap).map
    fun entry => commentRecord db.addressMap entry.1 entry.2

theorem comments_exported : exportComments db.toDatabase = (writtenComments db).map commentEntry := by
  rw [writtenComments, List.map_map]
  refine filterMap_eq_map_filter (fun entry => ?_) _
  simpa using exportComment_eq db.addressMap entry.1 entry.2

theorem parameters_exported :
    ∃ records : List GhidraParameter, exportParameters db.toDatabase = records.map parameterEntry := by
  refine exists_records fun item listed => ?_
  obtain ⟨⟨key, rec⟩, _, exports⟩ := List.mem_filterMap.mp listed
  obtain ⟨name, _, exports⟩ := Option.bind_eq_some_iff.mp exports
  dsimp only at exports
  split at exports
  · cases exports
  · cases exports
    exact ⟨⟨key, (decode rec.address db.addressMap).toUInt64, name, rec.type = 6, rec.varOffset.toInt32, _,
      rec.dataTypeId.getD (-1)⟩, rfl⟩

theorem dataItems_exported :
    ∃ records : List GhidraDataItem, exportDataItems db.toDatabase = records.map dataItemEntry := by
  refine exists_records fun item listed => ?_
  obtain ⟨⟨key, rec⟩, _, exports⟩ := List.mem_filterMap.mp listed
  unfold exportDataItem at exports
  dsimp only at exports
  split at exports
  · cases exports
  · cases exports
    exact ⟨⟨(decode key db.addressMap).toUInt64, rec.dataTypeId⟩, rfl⟩

/-- A component as it is written. -/
def componentRecord (rec : ComponentRow) : GhidraDataTypeMember where
  offset := rec.offset
  typeId := rec.dataTypeId
  name := emptyIfNull rec.name
  comment := emptyIfNull rec.comment
  size := rec.size
  ordinal := rec.ordinal
  typeName := (db.typeNames.lookup rec.dataTypeId).getD ""

theorem composite_exported (key : Int64) (rec : CompositeRow) :
    ∃ record : { dt // Exported dt }, exportComposite db key rec = dataTypeEntry record.val := by
  have members : (componentsOf db key).map (exportComponent db) =
      ((componentsOf db key).map (componentRecord db)).map memberEntry := by
    rw [List.map_map]
    rfl
  refine ⟨⟨_, .composite key rec.isUnion (emptyIfNull rec.name) (emptyIfNull rec.comment) rec.size
    ((componentsOf db key).map (componentRecord db))⟩, ?_⟩
  rw [exportComposite, members]
  cases rec.isUnion <;> rfl

theorem enum_exported (key : Int64) (rec : EnumRow) :
    ∃ record : { dt // Exported dt }, exportEnum db key rec = dataTypeEntry record.val := by
  have values : (enumValuesOf db key).map exportEnumValue =
      ((enumValuesOf db key).map fun rec =>
        GhidraEnumValue.mk (emptyIfNull rec.name) rec.value (emptyIfNull rec.comment)).map enumValueEntry := by
    rw [List.map_map]
    rfl
  refine ⟨⟨_, .enum key (emptyIfNull rec.name) (emptyIfNull rec.comment) (enumSize rec)
    ((enumValuesOf db key).map fun rec =>
      GhidraEnumValue.mk (emptyIfNull rec.name) rec.value (emptyIfNull rec.comment))⟩, ?_⟩
  rw [exportEnum, values]
  rfl

theorem dataTypes_exported :
    ∃ records : List { dt // Exported dt }, exportDataTypes db = records.map fun dt => dataTypeEntry dt.val := by
  refine exists_records fun item listed => ?_
  rw [exportDataTypes, List.mem_append, List.mem_append, List.mem_map, List.mem_map, List.mem_map] at listed
  rcases listed with (⟨⟨key, rec⟩, _, rfl⟩ | ⟨⟨key, rec⟩, _, rfl⟩) | ⟨⟨key, rec⟩, _, rfl⟩
  · exact composite_exported db key rec
  · exact enum_exported db key rec
  · exact ⟨⟨_, .typedef key (emptyIfNull rec.name) (sizeOfType db (rec.dataTypeId.getD (-1)))
      (rec.dataTypeId.getD (-1)) (typeNameOf db (rec.dataTypeId.getD (-1)))⟩, rfl⟩

theorem equateRefs_exported (id : Int64) :
    ∃ refs : List GhidraEquateRef, equateRefsOf db.addressMap db.toDatabase id = refs.map equateRefEntry := by
  refine exists_records fun item listed => ?_
  obtain ⟨⟨key, rec⟩, _, exports⟩ := List.mem_filterMap.mp listed
  unfold exportEquateRef at exports
  dsimp only at exports
  split at exports
  · cases exports
  · cases exports
    exact ⟨⟨(decode rec.address db.addressMap).toUInt64, rec.opIndex⟩, rfl⟩

/-- A function as it is written. -/
def functionRecord (entry : Int64 × FunctionRow) : FunctionRecord where
  flags :=
    { key := entry.1
      thunk := entry.2.flags &&& 0x01 ≠ 0
      noReturn := entry.2.flags &&& 0x02 ≠ 0
      isInline := entry.2.flags &&& 0x04 ≠ 0 }
  callingConvention := conventionOf db entry.2
  returnTypeName := typeNameOf db (entry.2.returnTypeId.getD (-1))
  returnTypeId := entry.2.returnTypeId.getD (-1)

/-- The functions that are written. -/
def writtenFunctions : List (Int64 × FunctionRow) :=
  db.functions.items.filter fun entry => ¬(entry.2.flags = 0 ∧ conventionOf db entry.2 = "" ∧
    typeNameOf db (entry.2.returnTypeId.getD (-1)) = "")

theorem functions_exported :
    exportFunctions db = ((writtenFunctions db).map (functionRecord db)).map functionEntry := by
  rw [writtenFunctions, List.map_map]
  refine filterMap_eq_map_filter (fun entry => ?_) _
  rw [exportFunction]
  split
  · rename_i idle
    rw [if_neg (by simpa only [decide_eq_true_eq, not_not] using idle)]
  · rename_i written
    rw [if_pos (decide_eq_true written)]
    rfl

/-- The equates that are written: those with a reference. -/
def writtenEquates : List (Int64 × EquateRow) :=
  db.equates.items.filter fun entry => !(equateRefsOf db.addressMap db.toDatabase entry.1).isEmpty

/-- An equate as it is written, apart from its name. -/
def equateRecord (refsOf : Int64 → List GhidraEquateRef) (entry : Int64 × EquateRow) : GhidraEquate :=
  { id := entry.1, value := entry.2.value, refs := refsOf entry.1 }

theorem equates_exported :
    ∃ refsOf, exportEquates db.toDatabase =
      (writtenEquates db).map fun entry => equateUnder entry.2.name (equateRecord refsOf entry) := by
  choose refsOf spec using equateRefs_exported db
  refine ⟨refsOf, List.map_congr_left fun entry _ => ?_⟩
  rw [spec]
  rfl

/-- The bookmarks that are written, with the name of their type. -/
def writtenBookmarks : List (Option String × GhidraBookmark) :=
  db.bookmarkTypes.items.flatMap fun type =>
    (type.2.bookmarks.items.filter fun entry => 0 ≤ decode entry.2.address db.addressMap).map fun entry =>
      (type.2.name,
        { addr := (decode entry.2.address db.addressMap).toUInt64
          category := emptyIfNull entry.2.category
          comment := emptyIfNull entry.2.comment })

theorem bookmarks_exported :
    exportBookmarks db.toDatabase = (writtenBookmarks db).map fun entry => bookmarkUnder entry.1 entry.2 := by
  rw [exportBookmarks, writtenBookmarks, List.map_flatMap]
  refine List.flatMap_congr fun type _ => ?_
  rw [List.map_map]
  refine filterMap_eq_map_filter (fun entry => ?_) _
  rw [exportBookmark]
  split
  · rename_i outside
    rw [if_neg (by simpa using outside)]
  · rename_i inside
    rw [if_pos (by simpa using inside)]
    rfl

end Export

/-! ## The whole import -/

section Import
variable {db : ProgramTables} {program : Option OpenedMemory} {id : Int32}

/-- The members of the response. -/
def sentFields (id : Int32) (db : ProgramTables) (program : Option OpenedMemory) : List (String × Json) := [
  ("id", .int id.toInt), ("ok", .bool true),
  ("image_base", .str (addrHex (imageBase db program))),
  ("symbols", .arr (Json.dropNullsOfItems (exportSymbols db.toDatabase))),
  ("comments", .arr (Json.dropNullsOfItems (exportComments db.toDatabase))),
  ("func_flags", .arr (Json.dropNullsOfItems (exportFunctions db))),
  ("equates", .arr (Json.dropNullsOfItems (exportEquates db.toDatabase))),
  ("bookmarks", .arr (Json.dropNullsOfItems (exportBookmarks db.toDatabase))),
  ("parameters", .arr (Json.dropNullsOfItems (exportParameters db.toDatabase))),
  ("data_types", .arr (Json.dropNullsOfItems (exportDataTypes db))),
  ("data_items", .arr (Json.dropNullsOfItems (exportDataItems db.toDatabase))),
  ("xref_stats", exportCrossRefStats db)]

theorem openDbResponse_eq : openDbResponse id (exportDatabase db program) = .obj (sentFields id db program) := rfl

/-- An array of the response, read element by element. -/
theorem sent_reads {fields : List (String × Json)} {key : String} {read : Json → Except String A} {items : List B}
    {entry : B → Json} {value : B → A} {array : List Json} (exported : array = items.map entry)
    (held : fields.lookup key = some (.arr (Json.dropNullsOfItems array)))
    (reads : ∀ item, read (entry item).dropNulls = .ok (value item)) :
    eachOf (.obj fields) key read = .ok (items.map value) := by
  have each : Json.dropNullsOfItems (items.map entry) = items.map fun item => (entry item).dropNulls := by
    clear exported
    induction items with
    | nil => rfl
    | cons item rest ih => rw [List.map_cons, Json.dropNullsOfItems, ih, List.map_cons]
  rw [exported, each] at held
  exact each_reads held fun item _ => reads item

/-- What the import makes of an export: everything but the memory blocks. -/
theorem response_parses {symbols : List GhidraSymbol} {comments : List GhidraComment}
    {refsOf : Int64 → List GhidraEquateRef} {parameters : List GhidraParameter}
    {dataTypes : List { dt // Exported dt }} {dataItems : List GhidraDataItem}
    (symbolsAre : exportSymbols db.toDatabase = symbols.map symbolEntry)
    (commentsAre : exportComments db.toDatabase = comments.map commentEntry)
    (equatesAre : exportEquates db.toDatabase =
      (writtenEquates db).map fun entry => equateUnder entry.2.name (equateRecord refsOf entry))
    (parametersAre : exportParameters db.toDatabase = parameters.map parameterEntry)
    (dataTypesAre : exportDataTypes db = dataTypes.map fun dt => dataTypeEntry dt.val)
    (dataItemsAre : exportDataItems db.toDatabase = dataItems.map dataItemEntry) :
    parseDbExportJson (openDbResponse id (exportDatabase db program)) = .ok {
      imageBase := (imageBase db program).toUInt64
      symbols
      comments
      funcFlags := (writtenFunctions db).map fun entry => (functionRecord db entry).flags
      funcSigs := (writtenFunctions db).filterMap fun entry => (functionRecord db entry).signature
      equates := (writtenEquates db).map fun entry =>
        { equateRecord refsOf entry with name := entry.2.name.getD "" }
      bookmarks := (writtenBookmarks db).map fun entry => { entry.2 with type := entry.1.getD "" }
      parameters
      dataTypes := dataTypes.map Subtype.val
      dataItems
      xrefStats := ⟨db.fromRefs, db.toRefs⟩ } := by
  have base : addrOf (.obj (sentFields id db program)) "image_base" = .ok (imageBase db program).toUInt64 :=
    addr_reads rfl
  have diag : eachOf (.obj (sentFields id db program)) "diag" Json.getString = .ok [] := each_missing rfl
  have blocks : eachOf (.obj (sentFields id db program)) "memory_blocks" memoryBlock = .ok [] := each_missing rfl
  have fromCount : intOf (exportCrossRefStats db) "from_count" = .ok db.fromRefs := int_reads rfl
  have toCount : intOf (exportCrossRefStats db) "to_count" = .ok db.toRefs := int_reads rfl
  have xrefs : xrefStats (.obj (sentFields id db program)) = .ok ⟨db.fromRefs, db.toRefs⟩ := by
    show xrefCounts (exportCrossRefStats db) = _
    rw [xrefCounts, fromCount, toCount]
    rfl
  have readFunctions := @sent_reads _ _ (sentFields id db program) "func_flags" function _ _ _ _
    (functions_exported db) rfl function_reads
  rw [openDbResponse_eq, parseDbExportJson, base, diag,
    sent_reads symbolsAre rfl symbol_reads, sent_reads commentsAre rfl comment_reads, readFunctions,
    sent_reads equatesAre rfl fun entry => equate_reads entry.2.name _,
    sent_reads (bookmarks_exported db) rfl fun entry => bookmark_reads entry.1 _,
    sent_reads parametersAre rfl parameter_reads, sent_reads dataTypesAre rfl fun dt => dataType_reads dt.property,
    sent_reads dataItemsAre rfl dataItem_reads, blocks, xrefs]
  simp only [List.map_id', List.map_map, bind, Except.bind, pure, Except.pure, List.filterMap_map]
  rfl

/-- Every response parses, and the comments are the written ones. -/
theorem response_comments :
    ∃ out, parseDbExportJson (openDbResponse id (exportDatabase db program)) = .ok out ∧
      out.comments = writtenComments db := by
  obtain ⟨symbols, symbolsAre⟩ := symbols_exported db
  obtain ⟨refsOf, equatesAre⟩ := equates_exported db
  obtain ⟨parameters, parametersAre⟩ := parameters_exported db
  obtain ⟨dataTypes, dataTypesAre⟩ := dataTypes_exported db
  obtain ⟨dataItems, dataItemsAre⟩ := dataItems_exported db
  exact ⟨_, @response_parses db program id _ _ _ _ _ _ symbolsAre (comments_exported db) equatesAre parametersAre
    dataTypesAre dataItemsAre, rfl⟩

/-- What an export must not have to come through: a memory block, a null name of an
equate or a bookmark type, and a return type id on a function without a calling
convention or a named return type. -/
structure ComesThrough (db : ProgramTables) (program : Option OpenedMemory) : Prop where
  blocks : ∀ memory, program = some memory → memory.blocks = []
  equateNames : ∀ id row, db.equates.lookup id = some row →
    equateRefsOf db.addressMap db.toDatabase id ≠ [] → row.name ≠ none
  bookmarkTypes : ∀ type ∈ db.bookmarkTypes.items, ∀ entry ∈ type.2.bookmarks.items,
    0 ≤ decode entry.2.address db.addressMap → type.2.name ≠ none
  returnTypes : ∀ key row, db.functions.lookup key = some row → row.flags ≠ 0 → conventionOf db row = "" →
    typeNameOf db (row.returnTypeId.getD (-1)) = "" → row.returnTypeId.getD (-1) = -1

theorem textJson_of_some {text : Option String} {shown : String} (same : textJson text = textJson (some shown)) :
    text ≠ none := by
  rintro rfl
  cases same

theorem blocks_exported_iff :
    (program.map exportMemoryBlocks).getD [] = [] ↔ ∀ memory, program = some memory → memory.blocks = [] := by
  cases program with
  | none => simp
  | some memory => simp [exportMemoryBlocks]

theorem equates_named_iff (refsOf : Int64 → List GhidraEquateRef) :
    ((writtenEquates db).map fun entry => equateUnder entry.2.name (equateRecord refsOf entry)) =
      ((writtenEquates db).map fun entry => { equateRecord refsOf entry with name := entry.2.name.getD "" }).map
        (fun e => equateUnder (some e.name) e) ↔
    ∀ id row, db.equates.lookup id = some row → equateRefsOf db.addressMap db.toDatabase id ≠ [] →
      row.name ≠ none := by
  rw [List.map_map, List.map_inj_left]
  constructor
  · intro same id row held used
    have listed : (id, row) ∈ writtenEquates db :=
      List.mem_filter.mpr ⟨Table.mem_items.mpr held, by simpa using used⟩
    have fields := Json.obj.inj (same (id, row) listed)
    exact textJson_of_some (Prod.mk.inj (List.cons.inj (List.cons.inj fields).2).1).2
  · rintro named ⟨id, row⟩ listed
    obtain ⟨item, used⟩ := List.mem_filter.mp listed
    obtain ⟨name, found⟩ := Option.ne_none_iff_exists'.mp
      (named id row (Table.mem_items.mp item) (by simpa using used))
    show equateUnder row.name _ = equateUnder (some (row.name.getD "")) _
    rw [found]
    rfl

theorem bookmarks_named_iff :
    ((writtenBookmarks db).map fun entry => bookmarkUnder entry.1 entry.2) =
      ((writtenBookmarks db).map fun entry => { entry.2 with type := entry.1.getD "" }).map
        (fun b => bookmarkUnder (some b.type) b) ↔
    ∀ type ∈ db.bookmarkTypes.items, ∀ entry ∈ type.2.bookmarks.items,
      0 ≤ decode entry.2.address db.addressMap → type.2.name ≠ none := by
  rw [List.map_map, List.map_inj_left]
  constructor
  · intro same type typeListed entry listed inside
    have written := same (type.2.name, _) (List.mem_flatMap.mpr ⟨type, typeListed, List.mem_map.mpr
      ⟨entry, List.mem_filter.mpr ⟨listed, decide_eq_true inside⟩, rfl⟩⟩)
    exact textJson_of_some (Prod.mk.inj (List.cons.inj (Json.obj.inj written)).1).2
  · intro named written listed
    obtain ⟨type, typeListed, inner⟩ := List.mem_flatMap.mp listed
    obtain ⟨entry, kept, rfl⟩ := List.mem_map.mp inner
    obtain ⟨item, inside⟩ := List.mem_filter.mp kept
    obtain ⟨name, found⟩ := Option.ne_none_iff_exists'.mp
      (named type typeListed entry item (of_decide_eq_true inside))
    show bookmarkUnder type.2.name _ = bookmarkUnder (some (type.2.name.getD "")) _
    rw [found]
    rfl

theorem signatures_whole_iff :
    (∀ f ∈ (writtenFunctions db).map (functionRecord db), f.signature = none → f.returnTypeId = -1) ↔
      ∀ key row, db.functions.lookup key = some row → row.flags ≠ 0 → conventionOf db row = "" →
        typeNameOf db (row.returnTypeId.getD (-1)) = "" → row.returnTypeId.getD (-1) = -1 := by
  constructor
  · intro whole key row held flagged convention typeName
    refine whole (functionRecord db (key, row)) (List.mem_map.mpr ⟨(key, row), ?_, rfl⟩) ?_
    · exact List.mem_filter.mpr ⟨Table.mem_items.mpr held, decide_eq_true fun idle => flagged idle.1⟩
    · rw [FunctionRecord.signature, if_neg]
      rintro (named | named)
      · exact named convention
      · exact named typeName
  · intro whole f listed unsigned
    obtain ⟨⟨key, row⟩, written, rfl⟩ := List.mem_map.mp listed
    obtain ⟨item, kept⟩ := List.mem_filter.mp written
    have neither : ¬((functionRecord db (key, row)).callingConvention ≠ "" ∨
        (functionRecord db (key, row)).returnTypeName ≠ "") := by
      intro named
      rw [FunctionRecord.signature, if_pos named] at unsigned
      cases unsigned
    rw [not_or, not_not, not_not] at neither
    refine whole key row (Table.mem_items.mp item) (fun unflagged => ?_) neither.1 neither.2
    exact of_decide_eq_true kept ⟨unflagged, neither.1, neither.2⟩

/-- An import is lossless exactly for the exports that have nothing the response
leaves out or the parser cannot hold. -/
theorem import_lossless_iff (db : ProgramTables) (program : Option OpenedMemory) (id : Int32) :
    (∃ out, parseDbExportJson (openDbResponse id (exportDatabase db program)) = .ok out ∧
      Lossless (exportDatabase db program) out) ↔ ComesThrough db program := by
  obtain ⟨symbols, symbolsAre⟩ := symbols_exported db
  obtain ⟨refsOf, equatesAre⟩ := equates_exported db
  obtain ⟨parameters, parametersAre⟩ := parameters_exported db
  obtain ⟨dataTypes, dataTypesAre⟩ := dataTypes_exported db
  obtain ⟨dataItems, dataItemsAre⟩ := dataItems_exported db
  have parses := @response_parses db program id _ _ _ _ _ _ symbolsAre (comments_exported db) equatesAre parametersAre
    dataTypesAre dataItemsAre
  constructor
  · rintro ⟨out, parsed, lossless⟩
    rw [parses] at parsed
    cases parsed
    have blocks := Json.arr.inj (Option.some.inj lossless.memoryBlocks)
    have equates := Json.arr.inj (Option.some.inj lossless.equates)
    have bookmarks := Json.arr.inj (Option.some.inj lossless.bookmarks)
    rw [equatesAre] at equates
    rw [bookmarks_exported] at bookmarks
    refine ⟨blocks_exported_iff.mp blocks, (equates_named_iff refsOf).mp equates, bookmarks_named_iff.mp bookmarks,
      signatures_whole_iff.mp ?_⟩
    obtain ⟨records, written, _, _, whole⟩ := lossless.functions
    have same := (functions_exported db).symm.trans (Json.arr.inj (Option.some.inj written))
    intro f listed unsigned
    -- A record of the statement with the same entry has the same parts.
    have entry : functionEntry f ∈ records.map functionEntry := same ▸ List.mem_map.mpr ⟨f, listed, rfl⟩
    obtain ⟨g, member, equal⟩ := List.mem_map.mp entry
    have parts := (function_reads g).symm.trans
      ((congrArg (fun j => function j.dropNulls) equal).trans (function_reads f))
    have ids : longOf (functionEntry g) "ret_type_id" 0 = longOf (functionEntry f) "ret_type_id" 0 := by rw [equal]
    have gId : longOf (functionEntry g) "ret_type_id" 0 = .ok g.returnTypeId := long_reads rfl
    have fId : longOf (functionEntry f) "ret_type_id" 0 = .ok f.returnTypeId := long_reads rfl
    rw [gId, fId, Except.ok.injEq] at ids
    rw [← ids]
    refine whole g member ?_
    rw [(Prod.mk.inj (Except.ok.inj parts)).2]
    exact unsigned
  · intro comes
    refine ⟨_, parses, ?_⟩
    refine ⟨rfl, ?_, ?_, ⟨_, ?_, ?_, ?_, signatures_whole_iff.mpr comes.returnTypes⟩, ?_, ?_, ?_, ?_, ?_, ?_, rfl⟩
    · exact congrArg (fun items => some (Json.arr items)) symbolsAre
    · exact congrArg (fun items => some (Json.arr items)) (comments_exported db)
    · exact congrArg (fun items => some (Json.arr items)) (functions_exported db)
    · exact (List.map_map ..).symm
    · rw [List.filterMap_map]
      rfl
    · exact congrArg (fun items => some (Json.arr items))
        (equatesAre.trans ((equates_named_iff refsOf).mpr comes.equateNames))
    · exact congrArg (fun items => some (Json.arr items))
        ((bookmarks_exported db).trans (bookmarks_named_iff.mpr comes.bookmarkTypes))
    · exact congrArg (fun items => some (Json.arr items)) parametersAre
    · rw [List.map_map]
      exact congrArg (fun items => some (Json.arr items)) dataTypesAre
    · exact congrArg (fun items => some (Json.arr items)) dataItemsAre
    · exact congrArg (fun items => some (Json.arr items)) (blocks_exported_iff.mpr comes.blocks)

theorem memory_block_not_imported :
    let program : OpenedMemory := { blocks := [{ name := ".text", start := 4194304, size := 4096 }] }
    ¬∃ out, parseDbExportJson (openDbResponse 1 (exportDatabase {} (some program))) = .ok out ∧
      Lossless (exportDatabase {} (some program)) out := by
  intro program
  rintro ⟨out, parsed, lossless⟩
  have none : out.memoryBlocks = [] := by
    have parses := @response_parses {} (some program) 1 [] [] (fun _ => []) [] [] [] rfl rfl rfl rfl rfl rfl
    rw [parses] at parsed
    cases parsed
    rfl
  have blocks := Json.arr.inj (Option.some.inj lossless.memoryBlocks)
  rw [none] at blocks
  cases blocks

end Import

end GhidraBridge.ImportRoundTrip
