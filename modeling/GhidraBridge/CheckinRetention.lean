import GhidraBridge.CommentEdits

/-! What the server did not apply and the next collection still offers. The
baselines of every category move over the whole preview, so what was not applied
is found again only where moving its baseline misses it: a comment whose text
went to the other comment's baseline, a bookmark whose key is written in another
spelling, a variable whose baseline another variable overwrote. -/
namespace GhidraBridge.CheckinRetention
open Lib CheckinState BaselineMoves

variable {state next : CheckinState} {view : BinaryView}

/-! ## Bookmarks -/

/-- The key an addition is recorded under: its tag text parsed and put together again. -/
def reencode (k : BookmarkKey) : BookmarkKey :=
  { k with tagData := bookmarkTagData (parseTagData k.tagData).1 (parseTagData k.tagData).2 }

/-- The bookmark keys recorded by a check-in of everything collected. A deletion
carries no text, so it takes out the key with an empty one and no other. -/
def KeyRecorded (state : CheckinState) (view : BinaryView) (k : BookmarkKey) : Prop :=
  (k ∈ state.ghidraBookmarkKeys ∨
    ∃ n ∈ currentKeys state view, n ∉ state.ghidraBookmarkKeys ∧ reencode n = k) ∧
  ¬(k.tagData = "" ∧
    ∃ d ∈ state.ghidraBookmarkKeys, d ∉ currentKeys state view ∧ d.addr = k.addr ∧ d.type = k.type)

def BookmarkFoundAgain (state : CheckinState) (view : BinaryView) (b : BookmarkChange) : Prop :=
  (∃ k ∈ currentKeys state view, ¬KeyRecorded state view k ∧ bookmarkAdd state view k = b) ∨
    ∃ k, KeyRecorded state view k ∧ k ∉ currentKeys state view ∧ bookmarkDelete state view k = b

theorem mem_collectBookmarks {b : BookmarkChange} :
    b ∈ collectBookmarks state view ↔
      (∃ k ∈ currentKeys state view, k ∉ state.ghidraBookmarkKeys ∧ bookmarkAdd state view k = b) ∨
        ∃ k ∈ state.ghidraBookmarkKeys, k ∉ currentKeys state view ∧ bookmarkDelete state view k = b := by
  simp [collectBookmarks, Roster.mem_list, and_assoc]

private theorem recordBookmark_add (keys : Roster BookmarkKey) (k : BookmarkKey) :
    recordBookmark (rebase state view) keys (bookmarkAdd state view k) = keys.insert (reencode k) := by
  have cancel : k.addr + rebase state view - rebase state view = k.addr := UInt64.add_sub_cancel ..
  simp only [recordBookmark, bookmarkAdd, reencode, cancel, if_true]

private theorem recordBookmark_delete (keys : Roster BookmarkKey) (k : BookmarkKey) :
    recordBookmark (rebase state view) keys (bookmarkDelete state view k) = keys.erase { k with tagData := "" } := by
  have cancel : k.addr + rebase state view - rebase state view = k.addr := UInt64.add_sub_cancel ..
  simp only [recordBookmark, bookmarkDelete, bookmarkTagData, cancel, reduceCtorEq, if_true, if_false,
    String.empty_append]

theorem mem_recorded_bookmarks {k : BookmarkKey} :
    k ∈ (collectBookmarks state view).foldl (recordBookmark (rebase state view)) state.ghidraBookmarkKeys ↔
      KeyRecorded state view k := by
  unfold collectBookmarks
  rw [List.foldl_append, List.foldl_map, List.foldl_map,
    Roster.mem_foldl_erase fun d _ keys => recordBookmark_delete keys d,
    Roster.mem_foldl_insert fun n _ keys => recordBookmark_add keys n]
  obtain ⟨addr, type, tagData⟩ := k
  simp only [List.mem_filter, Roster.mem_list, decide_eq_true_eq, KeyRecorded, and_imp, and_assoc]
  constructor
  · rintro ⟨unmatched, held⟩
    refine ⟨held.symm, ?_⟩
    rintro ⟨empty, d, recorded, gone, sameAddr, sameType⟩
    refine unmatched d recorded gone ?_
    rw [sameAddr, sameType, empty]
  · rintro ⟨held, unmatched⟩
    refine ⟨?_, held.symm⟩
    intro d recorded gone same
    cases same
    exact unmatched ⟨rfl, d, recorded, gone, rfl, rfl⟩

theorem bookmark_found_again_iff {b : BookmarkChange} (moved : CheckedIn state view next) :
    b ∈ collectBookmarks next view ↔ BookmarkFoundAgain state view b := by
  have sameKeys : currentKeys next view = currentKeys state view := by
    unfold currentKeys currentKey
    rw [moved.sameRebase]
  have sameAdd : bookmarkAdd next view = bookmarkAdd state view := by
    unfold bookmarkAdd
    rw [moved.sameRebase]
  have sameDelete : bookmarkDelete next view = bookmarkDelete state view := by
    unfold bookmarkDelete
    rw [moved.sameRebase]
  simp only [mem_collectBookmarks, sameKeys, sameAdd, sameDelete, moved.bookmarks, mem_recorded_bookmarks,
    BookmarkFoundAgain]

/-! ## Parameters and locals -/

/-- `checkVar` against any name and type. -/
def diffVar (view : BinaryView) (origName origTypeName : String) (slot : KeyedVar) : Option ParamRename :=
  let curName := slot.func.getVariableName slot.var
  let curTypeName := typeText view (slot.func.getVariableType slot.var)
  let nameChanged := curName ≠ "" ∧ curName ≠ origName ∧ slot.isAutoGen = false
  let typeChanged := curTypeName ≠ "" ∧ canonicalTypeName curTypeName ≠ canonicalTypeName origTypeName
  if nameChanged ∨ typeChanged then
    some ⟨slot.key, if nameChanged then curName else origName, if typeChanged then curTypeName else ""⟩
  else none

theorem checkVar_eq (slot : KeyedVar) :
    checkVar state view slot =
      diffVar view (textAt state.paramOriginalNameByKey slot.key) (textAt state.paramOriginalTypeByKey slot.key)
        slot := rfl

/-- The name last queued under a key, or its baseline. -/
def queuedName (state : CheckinState) (view : BinaryView) (key : Int64) : String :=
  (((collectParamRenames state view).reverse.find? fun r => r.key = key).map ParamRename.name).getD
    (textAt state.paramOriginalNameByKey key)

/-- The type last queued under a key, or its baseline. -/
def queuedType (state : CheckinState) (view : BinaryView) (key : Int64) : String :=
  ((((collectParamRenames state view).filter fun r => r.typeName ≠ "").reverse.find? fun r =>
    r.key = key).map ParamRename.typeName).getD (textAt state.paramOriginalTypeByKey key)

/-- A rename is found again where another variable of its key was queued after it
and the two differ. -/
def RenameFoundAgain (state : CheckinState) (view : BinaryView) (r : ParamRename) : Prop :=
  ∃ slot ∈ keyedVars state view,
    diffVar view (queuedName state view slot.key) (queuedType state view slot.key) slot = some r

private theorem textAt_writeAll {A : Type} (table : Table Int64 String) (key : A → Int64)
    (value : A → String) (xs : List A) (probe : Int64) :
    textAt (table.writeAll key value xs) probe =
      ((xs.reverse.find? fun x => key x = probe).map value).getD (textAt table probe) := by
  rw [textAt, Table.lookup_writeAll]
  cases xs.reverse.find? fun x => key x = probe with
  | some x => rfl
  | none => rfl

theorem rename_found_again_iff {r : ParamRename} (moved : CheckedIn state view next) :
    r ∈ collectParamRenames next view ↔ RenameFoundAgain state view r := by
  have slots : keyedVars next view = keyedVars state view := by
    unfold keyedVars keyedVarsOf
    rw [moved.sameRebase, moved.paramKeys, moved.localKeys]
  have diffs (slot : KeyedVar) : checkVar next view slot =
      diffVar view (queuedName state view slot.key) (queuedType state view slot.key) slot := by
    rw [checkVar_eq, moved.paramNames, moved.paramTypes, textAt_writeAll, textAt_writeAll]
    rfl
  have unfolded : r ∈ collectParamRenames next view ↔
      ∃ slot ∈ keyedVars next view, checkVar next view slot = some r := List.mem_filterMap
  simp only [unfolded, slots, diffs, RenameFoundAgain]

def sameSlot (p q : NewParam) : Bool :=
  q.isLocal = p.isLocal && q.funcAddr = p.funcAddr && q.ordinal = p.ordinal

/-- A new variable is found again where another one of its slot was queued after it. -/
def NewParamFoundAgain (state : CheckinState) (view : BinaryView) (p : NewParam) : Prop :=
  ∃ q, (collectNewParams state view).reverse.find? (sameSlot p) = some q ∧ q.name ≠ p.name

/-- The baseline of a new variable's slot. -/
def slotBaseline (rebase : UInt64) (base : NewParamBaselines) (p : NewParam) : Option String :=
  (if p.isLocal then base.regLocal else base.param).lookupNested (p.funcAddr - rebase) p.ordinal

private theorem slotBaseline_record {rebase : UInt64} {base : NewParamBaselines} {p q : NewParam} :
    slotBaseline rebase (recordNewParam rebase base q) p =
      if sameSlot p q then some q.name else slotBaseline rebase base p := by
  have addrs : p.funcAddr - rebase = q.funcAddr - rebase ↔ q.funcAddr = p.funcAddr := by
    rw [UInt64.sub_left_inj, eq_comm]
  unfold slotBaseline recordNewParam sameSlot
  cases hq : q.isLocal <;> cases hp : p.isLocal <;>
    simp [Table.lookupNested_setNested, addrs, eq_comm (a := p.ordinal)]

/-- The last new variable queued in a slot decides its baseline. -/
theorem slotBaseline_foldl {rebase : UInt64} {added : List NewParam} {base : NewParamBaselines} {p : NewParam} :
    slotBaseline rebase (added.foldl (recordNewParam rebase) base) p =
      ((added.reverse.find? (sameSlot p)).map NewParam.name).or (slotBaseline rebase base p) := by
  induction added generalizing base with
  | nil => simp
  | cons q rest ih =>
    rw [List.foldl_cons, ih, List.reverse_cons, List.find?_append, slotBaseline_record]
    cases rest.reverse.find? (sameSlot p) with
    | some later => simp
    | none => by_cases same : sameSlot p q = true <;> simp [same]

theorem newVariables_after (moved : CheckedIn state view next) :
    newVariables next view = newVariables state view := by
  unfold newVariables newParamOf
  rw [moved.sameRebase, moved.paramKeys]

theorem atNewBaseline_after (moved : CheckedIn state view next) (p : NewParam) :
    atNewBaseline next view p =
      decide (slotBaseline (rebase state view) ⟨next.newParamBaseline, next.newRegLocalBaseline⟩ p = some p.name) := by
  rw [atNewBaseline, moved.sameRebase]
  rfl

theorem new_param_found_again_iff {p : NewParam} (moved : CheckedIn state view next)
    (sent : p ∈ collectNewParams state view) :
    p ∈ collectNewParams next view ↔ NewParamFoundAgain state view p := by
  have held : p ∈ newVariables state view := List.mem_of_mem_filter sent
  have own : (collectNewParams state view).reverse.find? (sameSlot p) ≠ none := by
    intro missing
    have unmatched := List.find?_eq_none.mp missing p (List.mem_reverse.mpr sent)
    simp [sameSlot] at unmatched
  obtain ⟨q, found⟩ := Option.ne_none_iff_exists'.mp own
  unfold collectNewParams NewParamFoundAgain
  rw [List.mem_filter, newVariables_after moved, and_iff_right held, atNewBaseline_after moved, moved.newParams,
    slotBaseline_foldl]
  unfold collectNewParams at found
  simp [found, collectNewParams]

/-! ## All categories -/

/-- One item of a preview. -/
inductive PreviewItem where
  | rename (r : SymbolRename)
  | newSymbol (s : NewSymbol)
  | comment (c : CommentChange)
  | equateRename (r : EquateRename)
  | newEquateRef (r : NewEquateRef)
  | bookmark (b : BookmarkChange)
  | paramRename (r : ParamRename)
  | newParam (p : NewParam)
  | dataType (dt : DataTypeChange)
  | dataItem (di : DataItemChange)
  | funcSig (fs : FuncSigChange)
  deriving DecidableEq

def PreviewItem.In (preview : GhidraCheckinPreview) : PreviewItem → Prop
  | .rename r => r ∈ preview.renames
  | .newSymbol s => s ∈ preview.newSymbols
  | .comment c => c ∈ preview.comments
  | .equateRename r => r ∈ preview.equateRenames
  | .newEquateRef r => r ∈ preview.newEquateRefs
  | .bookmark b => b ∈ preview.bookmarkChanges
  | .paramRename r => r ∈ preview.paramRenames
  | .newParam p => p ∈ preview.newParams
  | .dataType dt => dt ∈ preview.dataTypeChanges
  | .dataItem di => di ∈ preview.dataItemChanges
  | .funcSig fs => fs ∈ preview.funcSigChanges

instance (preview : GhidraCheckinPreview) (item : PreviewItem) : Decidable (item.In preview) :=
  match item with
  | .rename r => inferInstanceAs (Decidable (r ∈ preview.renames))
  | .newSymbol s => inferInstanceAs (Decidable (s ∈ preview.newSymbols))
  | .comment c => inferInstanceAs (Decidable (c ∈ preview.comments))
  | .equateRename r => inferInstanceAs (Decidable (r ∈ preview.equateRenames))
  | .newEquateRef r => inferInstanceAs (Decidable (r ∈ preview.newEquateRefs))
  | .bookmark b => inferInstanceAs (Decidable (b ∈ preview.bookmarkChanges))
  | .paramRename r => inferInstanceAs (Decidable (r ∈ preview.paramRenames))
  | .newParam p => inferInstanceAs (Decidable (p ∈ preview.newParams))
  | .dataType dt => inferInstanceAs (Decidable (dt ∈ preview.dataTypeChanges))
  | .dataItem di => inferInstanceAs (Decidable (di ∈ preview.dataItemChanges))
  | .funcSig fs => inferInstanceAs (Decidable (fs ∈ preview.funcSigChanges))

/-- Where the next collection still offers an item that was sent. In seven of the
categories it never does. -/
def FoundAgain (state : CheckinState) (view : BinaryView) : PreviewItem → Prop
  | .comment c => CommentEdits.FoundAgain state view c
  | .bookmark b => BookmarkFoundAgain state view b
  | .paramRename r => RenameFoundAgain state view r
  | .newParam p => NewParamFoundAgain state view p
  | .rename _ | .newSymbol _ | .equateRename _ | .newEquateRef _ | .dataType _ | .dataItem _ | .funcSig _ => False

/-- One sent item, after the baselines moved over everything that was sent. -/
theorem found_again_iff {item : PreviewItem} (moved : CheckedIn state view next)
    (sent : item.In (collectCheckinChanges state view)) :
    item.In (collectCheckinChanges next view) ↔ FoundAgain state view item := by
  rw [collectCheckinChanges_of_imported moved.imported] at sent
  rw [moved.collected]
  have never {p : Prop} (gone : ¬p) : p ↔ False := iff_of_false gone id
  have settled {A : Type} {a : A} {list : List A} (empty : list = []) : a ∈ list ↔ False := by
    rw [empty, List.mem_nil_iff]
  cases item with
  | rename r => exact settled (renames_settled moved)
  | newSymbol s => exact settled (new_symbols_settled moved)
  | comment c => exact CommentEdits.comment_found_again_iff moved sent
  | equateRename r => exact settled (equate_renames_settled moved)
  | newEquateRef r => exact never (equate_ref_not_found_again moved sent)
  | bookmark b => exact bookmark_found_again_iff moved
  | paramRename r => exact rename_found_again_iff moved
  | newParam p => exact new_param_found_again_iff moved sent
  | dataType dt => exact settled (data_types_settled moved)
  | dataItem di => exact settled (data_items_settled moved)
  | funcSig fs => exact never (func_sig_not_found_again moved sent)

/-- Of what was sent in a successful check-in, a set of items the server did not
apply is offered again exactly when each of them is found again. -/
theorem unapplied_offered_again_iff (conn : GhidraConnection) (view : BinaryView) (comment : String)
    (send : Json → Except String Json) (unapplied : List PreviewItem)
    (sent : ∀ item ∈ unapplied, item.In (conn.checkinState.collectCheckinChanges view))
    (succeeded : (conn.checkin view (conn.checkinState.collectCheckinChanges view) comment send).1.success =
      true) :
    (∀ item ∈ unapplied,
      item.In ((conn.checkin view (conn.checkinState.collectCheckinChanges view) comment send
        ).2.checkinState.collectCheckinChanges view)) ↔
      ∀ item ∈ unapplied, FoundAgain conn.checkinState view item :=
  forall₂_congr fun item member => found_again_iff (checkedIn_of_success succeeded) (sent item member)

/-- A connection whose baseline is this state. -/
def connectionWith (state : CheckinState) : GhidraConnection :=
  { bridgeConnected := true, serverConnected := true, host := "a", port := 13100
    checkinState := { state with checkinRepo := "r", checkinFolder := "/", checkinItem := "prog" } }

/-- The server takes the check-in and applies nothing of one category. -/
def nothingApplied (field : String) (_ : Json) : Except String Json :=
  .ok (.obj [("ok", .bool true), ("applied", .obj [(field, .int 0)])])

/-- One bookmark in the baseline, which the view has no tag for. -/
def bookmarkedState : CheckinState :=
  { ghidraBookmarkKeys := Roster.ofList [⟨0x401000, "Note", "todo"⟩] }

/-- A deleted bookmark the server did not clear stays in the baseline and is deleted again. -/
theorem skipped_bookmark_offered_again :
    let conn := connectionWith bookmarkedState
    let preview := conn.checkinState.collectCheckinChanges {}
    let attempt := conn.checkin {} preview "note" (nothingApplied "bookmarks")
    PreviewItem.In preview (.bookmark ⟨.delete, "Note", 0x401000, "", ""⟩) ∧
      PreviewItem.In (attempt.2.checkinState.collectCheckinChanges {})
        (.bookmark ⟨.delete, "Note", 0x401000, "", ""⟩) := by
  have sent : ∀ item ∈ [PreviewItem.bookmark ⟨.delete, "Note", 0x401000, "", ""⟩],
      item.In ((connectionWith bookmarkedState).checkinState.collectCheckinChanges {}) := by
    decide +kernel
  have again := unapplied_offered_again_iff (connectionWith bookmarkedState) {} "note" (nothingApplied "bookmarks")
    _ sent (by decide +kernel)
  refine ⟨sent _ (List.mem_singleton.mpr rfl), again.mpr ?_ _ (List.mem_singleton.mpr rfl)⟩
  intro item member
  obtain rfl := List.mem_singleton.mp member
  refine .inr ⟨⟨0x401000, "Note", "todo"⟩, ⟨.inl (by decide), ?_⟩, by decide, by decide⟩
  exact fun cleared => absurd cleared.1 (by decide)

/-- A renamed symbol. -/
def renamedView : BinaryView := { symbols := [{ addr := 0x401000, name := "new", type := .function }] }

def renamedState : CheckinState :=
  { addrToKey := Table.set ∅ 0x401000 5, addrToOriginalName := Table.set ∅ 0x401000 "old" }

/-- The server applies none of one rename, the check-in warns that it will appear
again, and it does not. -/
theorem skipped_rename_is_forgotten :
    let conn := connectionWith renamedState
    let preview := conn.checkinState.collectCheckinChanges renamedView
    let attempt := conn.checkin renamedView preview "note" (nothingApplied "symbols")
    attempt.1.success = true ∧ attempt.1.warned = [⟨"symbols", 0, 1⟩] ∧
      PreviewItem.In preview (.rename ⟨5, 0x401000, "old", "new"⟩) ∧
      ¬PreviewItem.In (attempt.2.checkinState.collectCheckinChanges renamedView)
        (.rename ⟨5, 0x401000, "old", "new"⟩) := by
  decide +kernel

end GhidraBridge.CheckinRetention
