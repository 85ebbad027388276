import GhidraBridge.Collect
import GhidraBridge.CheckinJson

/-! The connection (`GhidraConnection.cpp`): its session with the server, the
check-in state beside it, and `checkin`, which sends a preview and moves the
baselines. A C++ `try` block keeps what was written before a throw, so the
body of `checkin` runs in a monad whose state survives its errors. -/
namespace GhidraBridge
open Lib

structure GhidraConnection where
  bridgeConnected : Bool := false
  serverConnected : Bool := false
  user : String := ""
  host : String := ""
  port : Int32 := 0
  password : String := ""
  checkinState : CheckinState := {}

/-- Statements of a `try` block over the check-in state. -/
abbrev Attempt := ExceptT String (StateM CheckinState)

namespace Attempt
variable {A B : Type}

/-- A call or an access that may throw and writes nothing. -/
def reading (result : Except String A) : Attempt A := ExceptT.mk (pure result)

@[simp] theorem run_reading (result : Except String A) (state : CheckinState) :
    (reading result).run.run state = (result, state) := rfl

@[simp] theorem run_get (state : CheckinState) : (get : Attempt CheckinState).run.run state = (.ok state, state) :=
  rfl

@[simp] theorem run_pure (a : A) (state : CheckinState) :
    (pure a : Attempt A).run.run state = (.ok a, state) := rfl

@[simp] theorem run_modify (change : CheckinState → CheckinState) (state : CheckinState) :
    (modify change : Attempt PUnit).run.run state = (.ok (), change state) := rfl

/-- A throw skips the rest of the block and keeps the state it was thrown in. -/
theorem run_bind (first : Attempt A) (next : A → Attempt B) (state : CheckinState) :
    (first >>= next).run.run state =
      match first.run.run state with
      | (.ok a, later) => (next a).run.run later
      | (.error what, later) => (.error what, later) := by
  simp only [ExceptT.run_bind, StateT.run_bind]
  cases ran : first.run.run state with
  | mk result later =>
    cases result with
    | ok a => rfl
    | error what => rfl

end Attempt

namespace CheckinState

/-! ## Moving the baselines after a successful check-in -/

/-- The three maps a checked-in comment may write. -/
structure CommentBaselines where
  comment : Table UInt64 String
  funcComment : Table UInt64 String
  field : Table UInt64 CommentField

/-- The baseline map that holds the address takes the text; a new comment is
taken for an address comment. -/
def recordComment (base : CommentBaselines) (c : CommentChange) : CommentBaselines :=
  if c.addr ∈ base.comment then { base with comment := base.comment.set c.addr c.text }
  else if c.addr ∈ base.funcComment then { base with funcComment := base.funcComment.set c.addr c.text }
  else
    { base with comment := base.comment.set c.addr c.text, field := base.field.set c.addr .eol }

/-- The stored entry of a type that was added or updated; its comment and
underlying id stay those of the entry that was there. -/
def storedType (old : GhidraDataType) (dt : DataTypeChange) : GhidraDataType :=
  { old with
    name := dt.name
    kind := dt.kind
    size := dt.size
    id := if dt.ghidraId = 0 then old.id else dt.ghidraId
    underlyingTypeName := dt.underlyingTypeName
    members := dt.members.map fun m =>
      { name := m.name, offset := m.offset, size := m.size, typeName := m.typeName }
    values := dt.values.map fun v => { name := v.name, value := v.value } }

def recordDataType (types : Table String GhidraDataType) (dt : DataTypeChange) :
    Table String GhidraDataType :=
  if dt.op = .delete then types.erase dt.name
  else types.set dt.name (storedType ((types.lookup dt.name).getD {}) dt)

/-- The names last checked in, of the parameters and of the register locals. -/
structure NewParamBaselines where
  param : Table UInt64 (Table Int32 String)
  regLocal : Table UInt64 (Table Int32 String)

def recordNewParam (rebase : UInt64) (base : NewParamBaselines) (p : NewParam) : NewParamBaselines :=
  let ghidraAddr := p.funcAddr - rebase
  if p.isLocal then { base with regLocal := base.regLocal.setNested ghidraAddr p.ordinal p.name }
  else { base with param := base.param.setNested ghidraAddr p.ordinal p.name }

def recordBookmark (rebase : UInt64) (keys : Roster BookmarkKey) (b : BookmarkChange) : Roster BookmarkKey :=
  let k : BookmarkKey := ⟨b.addr - rebase, b.type, bookmarkTagData b.category b.comment⟩
  if b.op = .add then keys.insert k else keys.erase k

def recordDataItem (rebase : UInt64) (addrs : Roster UInt64) (di : DataItemChange) : Roster UInt64 :=
  if di.op = .add then addrs.insert (di.addr - rebase) else addrs.erase (di.addr - rebase)

section
variable (state : CheckinState) (rebase : UInt64) (preview : GhidraCheckinPreview)

def recordNames : CheckinState :=
  { state with
    addrToOriginalName :=
      (state.addrToOriginalName.writeAll SymbolRename.addr SymbolRename.newName preview.renames).writeAll
        NewSymbol.addr NewSymbol.name preview.newSymbols }

def recordComments : CheckinState :=
  let moved := preview.comments.foldl recordComment
    ⟨state.addrToOriginalComment, state.addrToOriginalFuncComment, state.addrToCommentField⟩
  { state with
    addrToOriginalComment := moved.comment
    addrToOriginalFuncComment := moved.funcComment
    addrToCommentField := moved.field }

def recordDataTypes : CheckinState :=
  { state with
    ghidraTypesByName := preview.dataTypeChanges.foldl recordDataType state.ghidraTypesByName }

def recordParams : CheckinState :=
  { state with
    paramOriginalNameByKey :=
      state.paramOriginalNameByKey.writeAll ParamRename.key ParamRename.name preview.paramRenames
    paramOriginalTypeByKey :=
      state.paramOriginalTypeByKey.writeAll ParamRename.key ParamRename.typeName
        (preview.paramRenames.filter fun r => r.typeName ≠ "") }

def recordNewParams : CheckinState :=
  let moved := preview.newParams.foldl (recordNewParam rebase)
    ⟨state.newParamBaseline, state.newRegLocalBaseline⟩
  { state with newParamBaseline := moved.param, newRegLocalBaseline := moved.regLocal }

def recordEquates : CheckinState :=
  { state with
    equateOriginalNameById :=
      state.equateOriginalNameById.writeAll EquateRename.id EquateRename.name preview.equateRenames
    equateRefsByEquateId :=
      preview.newEquateRefs.foldl
        (fun refs r => insertEquateRef refs r.equateId (r.addr - rebase) r.opIndex)
        state.equateRefsByEquateId }

def recordBookmarks : CheckinState :=
  { state with
    ghidraBookmarkKeys := preview.bookmarkChanges.foldl (recordBookmark rebase) state.ghidraBookmarkKeys }

def recordDataItems : CheckinState :=
  { state with
    ghidraDataItemAddrs := preview.dataItemChanges.foldl (recordDataItem rebase) state.ghidraDataItemAddrs }

def recordFuncSigs : CheckinState :=
  { state with
    funcOriginalCC :=
      state.funcOriginalCC.writeAll FuncSigChange.key FuncSigChange.callingConvention
        (preview.funcSigChanges.filter fun fs => fs.callingConvention ≠ "")
    funcOriginalRetType :=
      state.funcOriginalRetType.writeAll FuncSigChange.key FuncSigChange.returnTypeName
        (preview.funcSigChanges.filter fun fs => fs.returnTypeName ≠ "") }

/-- Every baseline moves over the whole preview, whatever the applied counts said. -/
def recordPreview : CheckinState :=
  let state := recordNames state preview
  let state := recordComments state preview
  let state := recordDataTypes state preview
  let state := recordParams state preview
  let state := recordNewParams state rebase preview
  let state := recordEquates state rebase preview
  let state := recordBookmarks state rebase preview
  let state := recordDataItems state rebase preview
  recordFuncSigs state preview

end

end CheckinState

/-! ## The request and its reply -/

/-- A category of which the server applied fewer items than were sent; the
warning promises that the rest will appear again. -/
structure Shortfall where
  label : String
  applied : Int64
  sent : Nat
  deriving DecidableEq

def warnShort (ap : Json) (label field : String) (sent : Nat) : Except String (Option Shortfall) :=
  match ap.get? field with
  | none => .ok none
  | some count =>
    if sent = 0 ∨ count.isNumber = false then .ok none
    else count.getInt64.map fun applied => if applied.toInt < (sent : Int) then some ⟨label, applied, sent⟩ else none

/-- The label, reply field and request field of each counted category. -/
def countedCategories : List (String × String × String) := [
  ("symbols", "symbols", "symbols"),
  ("comments", "comments", "comments"),
  ("equate renames", "equate_renames", "equate_renames"),
  ("equate refs", "equate_ref_adds", "equate_ref_adds"),
  ("bookmarks", "bookmarks", "bookmark_changes"),
  ("params/vars", "params", "param_renames"),
  ("data types", "data_types", "data_type_changes"),
  ("data items", "data_items", "data_item_changes"),
  ("function signatures", "func_sigs", "func_sig_changes")]

def shortfalls (resp : Json) (body : List (String × Json)) : Except String (List Shortfall) :=
  match resp.get? "applied" with
  | none => .ok []
  | some ap =>
    if ap.isObject then
      (countedCategories.mapM fun entry =>
        warnShort ap entry.1 entry.2.1 (((body.lookup entry.2.2).map Json.size).getD 0)).map
          List.reduceOption
    else .ok []

/-- The id the bridge gave to an added type, for a type the baseline knows. -/
def recordTypeId (entry : String × Json) : Attempt Unit := ExceptT.mk fun state =>
  if entry.2.isNumber then
    match state.ghidraTypesByName.lookup entry.1 with
    | none => (.ok (), state)
    | some stored =>
      match entry.2.getInt64 with
      | .error what => (.error what, state)
      | .ok id =>
        (.ok (), { state with ghidraTypesByName := state.ghidraTypesByName.set entry.1 { stored with id := id } })
  else (.ok (), state)

def recordTypeIds : List (String × Json) → Attempt Unit
  | [] => pure ()
  | entry :: rest => do
    recordTypeId entry
    recordTypeIds rest

/-- The `added_type_ids` of a reply, where they are an object. -/
def addedTypeIds (resp : Json) : List (String × Json) :=
  match resp.get? "added_type_ids" with
  | some (.obj ids) => ids
  | _ => []

/-- What `checkin` returns: its flag, the error text, and the warnings it logged. -/
structure CheckinOutcome where
  success : Bool
  errorOut : String := ""
  warned : List Shortfall := []
  deriving DecidableEq

/-- The body of the `try` block. -/
def checkinBody (rebase : UInt64) (preview : GhidraCheckinPreview) (comment : String)
    (send : Json → Except String Json) : Attempt CheckinOutcome := do
  let state ← get
  let body := CheckinJson.buildCheckinJson rebase preview state.addrToOriginalFuncComment
    state.addrToCommentField
  let req := Json.obj ([("op", .str "checkin"), ("repo", .str state.checkinRepo),
    ("folder", .str state.checkinFolder), ("item", .str state.checkinItem), ("comment", .str comment)] ++ body)
  let resp ← Attempt.reading (send req)
  if ← Attempt.reading (resp.valueOr "ok" Json.getBool false) then
    let warned ← Attempt.reading (shortfalls resp body)
    recordTypeIds (addedTypeIds resp)
    modify fun state => state.recordPreview rebase preview
    return { success := true, warned := warned }
  else
    let error ← Attempt.reading (resp.valueOr "error" Json.getString "checkin failed")
    return { success := false, errorOut := error }

namespace GhidraConnection

/-- `checkin`: the outcome and the connection afterwards. -/
def checkin (conn : GhidraConnection) (view : BinaryView) (preview : GhidraCheckinPreview)
    (comment : String) (send : Json → Except String Json) : CheckinOutcome × GhidraConnection :=
  if conn.bridgeConnected = false then ({ success := false, errorOut := "Bridge not connected" }, conn)
  else if conn.serverConnected = false then
    ({ success := false, errorOut := "Not connected to server" }, conn)
  else if conn.checkinState.checkinItem = "" then
    ({ success := false, errorOut := "No import — import first" }, conn)
  else
    let attempt := (checkinBody (conn.checkinState.rebase view) preview comment send).run.run conn.checkinState
    let after := { conn with checkinState := attempt.2 }
    match attempt.1 with
    | .ok outcome => (outcome, after)
    | .error what => ({ success := false, errorOut := what }, after)

end GhidraConnection
end GhidraBridge
