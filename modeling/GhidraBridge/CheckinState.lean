import GhidraBridge.SyncEngine

/-! The check-in state of the connection: the baselines of the last import,
against which a check-in is collected, and the item they belong to. -/
namespace GhidraBridge
open Lib

/-- A bookmark as it is compared: its tag type is `"Ghidra: "` before `type`, so a
key with any other tag type does not exist. -/
structure BookmarkKey where
  addr : UInt64
  type : String
  tagData : String
  deriving DecidableEq

/-- The check-in members of `GhidraConnection`. Addresses of parameters,
bookmarks, data items and equate references are Ghidra's, all others the view's. -/
structure CheckinState where
  addrToKey : Table UInt64 Int64 := ∅
  addrToOriginalName : Table UInt64 String := ∅
  addrToCommentKey : Table UInt64 String := ∅
  addrToOriginalComment : Table UInt64 String := ∅
  addrToOriginalFuncComment : Table UInt64 String := ∅
  addrToCommentField : Table UInt64 CommentField := ∅
  ghidraTypesByName : Table String GhidraDataType := ∅
  paramOriginalNameByKey : Table Int64 String := ∅
  paramOriginalTypeByKey : Table Int64 String := ∅
  paramKeyByAddrOrdinal : Table UInt64 (Table Int32 Int64) := ∅
  localKeyByAddrOffset : Table UInt64 (Table Int32 Int64) := ∅
  newParamBaseline : Table UInt64 (Table Int32 String) := ∅
  newRegLocalBaseline : Table UInt64 (Table Int32 String) := ∅
  ghidraBookmarkKeys : Roster BookmarkKey := ∅
  ghidraTagTypeNames : Roster String := ∅
  ghidraDataItemAddrs : Roster UInt64 := ∅
  equateOriginalNameById : Table Int64 String := ∅
  equateValueById : Table Int64 Int64 := ∅
  equateRefsByEquateId : Table Int64 (Roster (UInt64 × Int32)) := ∅
  funcOriginalCC : Table Int64 String := ∅
  funcOriginalRetType : Table Int64 String := ∅
  funcReturnTypeId : Table Int64 Int64 := ∅
  imageBase : UInt64 := 0
  checkinRepo : String := ""
  checkinFolder : String := ""
  checkinItem : String := ""
  deriving DecidableEq

namespace CheckinState

/-- `hasCheckinState`. -/
def hasCheckinState (state : CheckinState) : Bool := state.checkinItem ≠ ""

/-- `isCheckinItem`: the baselines belong to this item. -/
def isCheckinItem (state : CheckinState) (repo folder item : String) : Bool :=
  state.checkinRepo = repo && state.checkinFolder = folder && state.checkinItem = item

def bookmarkKey (bm : GhidraBookmark) : BookmarkKey :=
  ⟨bm.addr, bm.type, bookmarkTagData bm.category bm.comment⟩

/-- `m_equateRefsByEquateId[id].insert({addr, opIndex})`. -/
def insertEquateRef (refs : Table Int64 (Roster (UInt64 × Int32))) (id : Int64) (addr : UInt64)
    (opIndex : Int32) : Table Int64 (Roster (UInt64 × Int32)) :=
  refs.set id (((refs.lookup id).getD ∅).insert (addr, opIndex))

/-- The keys of the parameters, or of the stack locals, by function and ordinal. -/
def ordinalKeys (isParam : Bool) (parameters : List GhidraParameter) : Table UInt64 (Table Int32 Int64) :=
  (parameters.filter fun p => p.isParam = isParam).foldl
    (fun keys p => keys.setNested p.funcAddr p.ordinal p.key) ∅

/-- `storeCheckinState` with the maps of an import or of a restore: nothing of
the previous state is kept. -/
def store (r : SyncResult) (repo folder item : String) : CheckinState where
  addrToKey := r.addrToKey
  addrToOriginalName := r.addrToOriginalName
  addrToCommentKey := r.addrToCommentKey
  addrToOriginalComment := r.addrToOriginalComment
  addrToOriginalFuncComment := r.addrToOriginalFuncComment
  addrToCommentField := r.addrToCommentField
  ghidraTypesByName := Table.writeAll ∅ GhidraDataType.name id r.ghidraDataTypes
  paramOriginalNameByKey := Table.writeAll ∅ GhidraParameter.key GhidraParameter.name r.parameters
  paramOriginalTypeByKey :=
    Table.writeAll ∅ GhidraParameter.key GhidraParameter.typeName
      (r.parameters.filter fun p => p.typeName ≠ "")
  paramKeyByAddrOrdinal := ordinalKeys true r.parameters
  localKeyByAddrOffset := ordinalKeys false r.parameters
  ghidraBookmarkKeys := Roster.ofList (r.bookmarks.map bookmarkKey)
  ghidraTagTypeNames := Roster.ofList (r.bookmarks.map fun bm => "Ghidra: " ++ bm.type)
  ghidraDataItemAddrs := Roster.ofList (r.dataItems.map GhidraDataItem.addr)
  equateOriginalNameById := Table.writeAll ∅ GhidraEquate.id GhidraEquate.name r.equates
  equateValueById := Table.writeAll ∅ GhidraEquate.id GhidraEquate.value r.equates
  equateRefsByEquateId :=
    r.equates.foldl
      (fun refs eq => eq.refs.foldl (fun refs ref => insertEquateRef refs eq.id ref.addr ref.opIndex) refs)
      ∅
  funcOriginalCC :=
    Table.writeAll ∅ GhidraFuncSig.key GhidraFuncSig.callingConvention
      (r.funcSigs.filter fun sig => sig.callingConvention ≠ "")
  funcOriginalRetType :=
    Table.writeAll ∅ GhidraFuncSig.key GhidraFuncSig.returnTypeName
      (r.funcSigs.filter fun sig => sig.returnTypeName ≠ "")
  funcReturnTypeId := Table.writeAll ∅ GhidraFuncSig.key GhidraFuncSig.returnTypeId r.funcSigs
  imageBase := r.imageBase
  checkinRepo := repo
  checkinFolder := folder
  checkinItem := item

/-- `clearCheckinState`. -/
def clear : CheckinState := {}

end CheckinState
end GhidraBridge
