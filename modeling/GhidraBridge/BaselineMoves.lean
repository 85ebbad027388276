import GhidraBridge.CheckinAtomicity

/-! What the next collection finds of an entry that was just checked in, one
category at a time. The baselines of a category move over its whole list, so an
entry is found again only where its diff does not read what was written. -/
namespace GhidraBridge.BaselineMoves
open Lib CheckinState

variable {state next : CheckinState} {view : BinaryView}

/-- What a check-in of everything collected does to the state when it succeeds:
which baselines move, and over which list. -/
structure CheckedIn (state : CheckinState) (view : BinaryView) (next : CheckinState) : Prop where
  imported : state.checkinItem ≠ ""
  sameItem : next.checkinItem = state.checkinItem
  sameRebase : rebase next view = rebase state view
  keys : next.addrToKey = state.addrToKey
  names : next.addrToOriginalName =
    (state.addrToOriginalName.writeAll SymbolRename.addr SymbolRename.newName
      (collectRenames state view)).writeAll NewSymbol.addr NewSymbol.name (collectNewSymbols state view)
  commentKeys : next.addrToCommentKey = state.addrToCommentKey
  comments : CommentBaselines.mk next.addrToOriginalComment next.addrToOriginalFuncComment next.addrToCommentField =
    (collectComments state view).foldl recordComment
      ⟨state.addrToOriginalComment, state.addrToOriginalFuncComment, state.addrToCommentField⟩
  dataTypes : ∃ types, CheckinAtomicity.SameButIds types state.ghidraTypesByName ∧
    next.ghidraTypesByName = (collectDataTypes state view).foldl recordDataType types
  paramKeys : next.paramKeyByAddrOrdinal = state.paramKeyByAddrOrdinal
  localKeys : next.localKeyByAddrOffset = state.localKeyByAddrOffset
  paramNames : next.paramOriginalNameByKey =
    state.paramOriginalNameByKey.writeAll ParamRename.key ParamRename.name (collectParamRenames state view)
  paramTypes : next.paramOriginalTypeByKey =
    state.paramOriginalTypeByKey.writeAll ParamRename.key ParamRename.typeName
      ((collectParamRenames state view).filter fun r => r.typeName ≠ "")
  newParams : NewParamBaselines.mk next.newParamBaseline next.newRegLocalBaseline =
    (collectNewParams state view).foldl (recordNewParam (rebase state view))
      ⟨state.newParamBaseline, state.newRegLocalBaseline⟩
  equateValues : next.equateValueById = state.equateValueById
  equateNames : next.equateOriginalNameById =
    state.equateOriginalNameById.writeAll EquateRename.id EquateRename.name (collectEquateRenames state view)
  equateRefs : next.equateRefsByEquateId =
    (collectNewEquateRefs state view).foldl
      (fun refs r => insertEquateRef refs r.equateId (r.addr - rebase state view) r.opIndex)
      state.equateRefsByEquateId
  bookmarks : next.ghidraBookmarkKeys =
    (collectBookmarks state view).foldl (recordBookmark (rebase state view)) state.ghidraBookmarkKeys
  dataItems : next.ghidraDataItemAddrs =
    (collectDataItems state view).foldl (recordDataItem (rebase state view)) state.ghidraDataItemAddrs
  conventions : next.funcOriginalCC =
    state.funcOriginalCC.writeAll FuncSigChange.key FuncSigChange.callingConvention
      ((collectFuncSigs state view).filter fun fs => fs.callingConvention ≠ "")
  returns : next.funcOriginalRetType =
    state.funcOriginalRetType.writeAll FuncSigChange.key FuncSigChange.returnTypeName
      ((collectFuncSigs state view).filter fun fs => fs.returnTypeName ≠ "")

theorem collectCheckinChanges_of_imported (imported : state.checkinItem ≠ "") :
    collectCheckinChanges state view =
      { renames := collectRenames state view
        comments := collectComments state view
        equateRenames := collectEquateRenames state view
        bookmarkChanges := collectBookmarks state view
        paramRenames := collectParamRenames state view
        dataTypeChanges := collectDataTypes state view
        dataItemChanges := collectDataItems state view
        funcSigChanges := collectFuncSigs state view
        newSymbols := collectNewSymbols state view
        newParams := collectNewParams state view
        newEquateRefs := collectNewEquateRefs state view } :=
  if_neg imported

theorem checkedIn_of_success {conn : GhidraConnection} {comment : String} {send : Json → Except String Json}
    (succeeded : (conn.checkin view (conn.checkinState.collectCheckinChanges view) comment send).1.success =
      true) :
    CheckedIn conn.checkinState view
      (conn.checkin view (conn.checkinState.collectCheckinChanges view) comment send).2.checkinState := by
  rcases CheckinAtomicity.checkin_cases conn view (conn.checkinState.collectCheckinChanges view) comment send with
    ⟨failed, _⟩ | ⟨_, imported, types, same, after⟩
  · rw [failed] at succeeded
    cases succeeded
  · rw [after, collectCheckinChanges_of_imported imported]
    exact
      { imported, dataTypes := ⟨types, same, rfl⟩
        sameItem := rfl, sameRebase := rfl, keys := rfl, names := rfl, commentKeys := rfl, comments := rfl
        paramKeys := rfl, localKeys := rfl, paramNames := rfl, paramTypes := rfl, newParams := rfl
        equateValues := rfl, equateNames := rfl, equateRefs := rfl, bookmarks := rfl, dataItems := rfl
        conventions := rfl, returns := rfl }

/-- The collection after the check-in. -/
theorem CheckedIn.collected (moved : CheckedIn state view next) :
    collectCheckinChanges next view =
      { renames := collectRenames next view
        comments := collectComments next view
        equateRenames := collectEquateRenames next view
        bookmarkChanges := collectBookmarks next view
        paramRenames := collectParamRenames next view
        dataTypeChanges := collectDataTypes next view
        dataItemChanges := collectDataItems next view
        funcSigChanges := collectFuncSigs next view
        newSymbols := collectNewSymbols next view
        newParams := collectNewParams next view
        newEquateRefs := collectNewEquateRefs next view } :=
  collectCheckinChanges_of_imported (moved.sameItem ▸ moved.imported)

/-! ## Symbols -/

theorem renameAt_eq_some {addr : UInt64} {key : Int64} {r : SymbolRename} :
    renameAt state view addr key = some r ↔
      ∃ sym, view.getSymbolByAddress addr = some sym ∧ sym.name ≠ textAt state.addrToOriginalName addr ∧
        r = ⟨key, addr, textAt state.addrToOriginalName addr, sym.name⟩ := by
  unfold renameAt
  cases view.getSymbolByAddress addr with
  | none => simp
  | some sym => by_cases same : sym.name = textAt state.addrToOriginalName addr <;> simp [same, eq_comm]

theorem mem_collectRenames {r : SymbolRename} :
    r ∈ collectRenames state view ↔
      state.addrToKey.lookup r.addr = some r.key ∧ renameAt state view r.addr r.key = some r := by
  unfold collectRenames
  rw [List.mem_filterMap]
  constructor
  · rintro ⟨⟨addr, key⟩, held, made⟩
    have shape := renameAt_eq_some.mp made
    obtain ⟨_, _, _, rfl⟩ := shape
    exact ⟨Table.mem_items.mp held, made⟩
  · rintro ⟨held, made⟩
    exact ⟨(r.addr, r.key), Table.mem_items.mpr held, made⟩

theorem newSymbolFor_eq_some {sym : BNSymbol} {s : NewSymbol} (made : newSymbolFor state sym = some s) :
    s.addr = sym.addr ∧ s.name = sym.name ∧ state.addrToOriginalName.lookup sym.addr ≠ some sym.name := by
  unfold newSymbolFor at made
  split at made
  · cases made
  · split at made
    · cases made
    · split at made
      · cases made
      · rename_i moved
        cases made
        exact ⟨rfl, rfl, moved⟩

theorem newSymbolFor_congr {sym : BNSymbol}
    (same : next.addrToOriginalName.lookup sym.addr = state.addrToOriginalName.lookup sym.addr) :
    newSymbolFor next sym = newSymbolFor state sym := by
  rw [newSymbolFor, newSymbolFor, same]

/-- Each address is decided by the first symbol the view lists there. -/
theorem mem_newSymbolsFrom {seen : List UInt64} {symbols : List BNSymbol} {s : NewSymbol} :
    s ∈ newSymbolsFrom state seen symbols ↔
      s.addr ∉ state.addrToKey ∧ s.addr ∉ seen ∧
        ∃ sym, symbols.find? (fun sym => sym.addr = s.addr) = some sym ∧ newSymbolFor state sym = some s := by
  induction symbols generalizing seen with
  | nil => simp [newSymbolsFrom]
  | cons sym rest ih =>
    rw [newSymbolsFrom]
    split
    · rename_i skipped
      rw [ih]
      refine and_congr_right fun fresh => and_congr_right fun unseen => ?_
      have elsewhere : sym.addr ≠ s.addr := by
        intro same
        rcases skipped with keyed | seenBefore
        · exact fresh (same ▸ keyed)
        · exact unseen (same ▸ seenBefore)
      simp [elsewhere]
    · rename_i looked
      obtain ⟨unkeyed, unseenHere⟩ := not_or.mp looked
      rw [List.mem_append, Option.mem_toList, ih]
      by_cases here : sym.addr = s.addr
      · simp [here, here ▸ unkeyed, here ▸ unseenHere]
      · have otherwise : newSymbolFor state sym ≠ some s := fun made => here (newSymbolFor_eq_some made).1.symm
        simp [here, otherwise, Ne.symm here]

private theorem new_symbol_name_unique {s other : NewSymbol} (sent : s ∈ collectNewSymbols state view)
    (otherSent : other ∈ collectNewSymbols state view) (same : other.addr = s.addr) :
    other.name = s.name := by
  obtain ⟨_, _, sym, found, made⟩ := mem_newSymbolsFrom.mp sent
  obtain ⟨_, _, otherSym, otherFound, otherMade⟩ := mem_newSymbolsFrom.mp otherSent
  rw [same, found, Option.some.injEq] at otherFound
  subst otherFound
  exact (newSymbolFor_eq_some otherMade).2.1.trans (newSymbolFor_eq_some made).2.1.symm

section Names
variable (moved : CheckedIn state view next)
include moved

/-- No keyed address is renamed twice: its name in the view is the baseline now. -/
theorem renames_settled : collectRenames next view = [] := by
  rw [List.eq_nil_iff_forall_not_mem]
  intro r again
  obtain ⟨held, remade⟩ := mem_collectRenames.mp again
  obtain ⟨sym, found, differs, shape⟩ := renameAt_eq_some.mp remade
  rw [moved.keys] at held
  have keyed : r.addr ∈ state.addrToKey := AList.lookup_isSome.mp (by simp [held])
  have apart : ∀ s ∈ collectNewSymbols state view, s.addr ≠ r.addr := fun s member same =>
    (mem_newSymbolsFrom.mp member).1 (same ▸ keyed)
  have renamedTo : ∀ other ∈ collectRenames state view, other.addr = r.addr → other.newName = sym.name := by
    intro other member same
    obtain ⟨otherSym, otherFound, _, otherShape⟩ := renameAt_eq_some.mp (mem_collectRenames.mp member).2
    rw [same, found, Option.some.injEq] at otherFound
    rw [otherFound, otherShape]
  apply differs
  rw [moved.names, textAt, Table.lookup_writeAll_of_not_mem apart]
  by_cases unmoved : sym.name = textAt state.addrToOriginalName r.addr
  · have quiet : ∀ other ∈ collectRenames state view, other.addr ≠ r.addr := by
      intro other member same
      obtain ⟨otherSym, otherFound, otherMoved, _⟩ := renameAt_eq_some.mp (mem_collectRenames.mp member).2
      rw [same, found, Option.some.injEq] at otherFound
      exact otherMoved (by rw [← otherFound, same, unmoved])
    rw [Table.lookup_writeAll_of_not_mem quiet]
    exact unmoved
  · have sent : ⟨r.key, r.addr, textAt state.addrToOriginalName r.addr, sym.name⟩ ∈ collectRenames state view :=
      mem_collectRenames.mpr ⟨held, renameAt_eq_some.mpr ⟨sym, found, unmoved, rfl⟩⟩
    rw [Table.lookup_writeAll_of_mem sent renamedTo]
    rfl

theorem new_symbols_settled : collectNewSymbols next view = [] := by
  rw [List.eq_nil_iff_forall_not_mem]
  intro s again
  obtain ⟨unkeyed, _, sym, found, remade⟩ := mem_newSymbolsFrom.mp again
  rw [moved.keys] at unkeyed
  obtain ⟨sameAddr, sameName, differs⟩ := newSymbolFor_eq_some remade
  by_cases sent : s ∈ collectNewSymbols state view
  · have written : next.addrToOriginalName.lookup s.addr = some s.name := by
      rw [moved.names]
      exact Table.lookup_writeAll_of_mem sent fun other member same =>
        new_symbol_name_unique sent member same
    rw [sameAddr, sameName] at written
    exact differs written
  · have apart : ∀ r ∈ collectRenames state view, r.addr ≠ sym.addr := by
      intro r member same
      have keyed : r.addr ∈ state.addrToKey :=
        AList.lookup_isSome.mp (by simp [(mem_collectRenames.mp member).1])
      exact unkeyed (by rwa [sameAddr, ← same])
    -- Nothing is written at an address whose first symbol was not new.
    have quiet : ∀ other ∈ collectNewSymbols state view, other.addr ≠ sym.addr := by
      intro other member same
      obtain ⟨fresh, unseen, first, otherFound, made⟩ := mem_newSymbolsFrom.mp member
      rw [same, ← sameAddr, found, Option.some.injEq] at otherFound
      subst otherFound
      have kept : next.addrToOriginalName.lookup sym.addr = some other.name := by
        rw [moved.names, ← same]
        exact Table.lookup_writeAll_of_mem member fun another held equal =>
          new_symbol_name_unique member held equal
      exact differs (by rw [kept, (newSymbolFor_eq_some made).2.1])
    have unchanged : next.addrToOriginalName.lookup sym.addr = state.addrToOriginalName.lookup sym.addr := by
      rw [moved.names, Table.lookup_writeAll_of_not_mem quiet, Table.lookup_writeAll_of_not_mem apart]
    rw [newSymbolFor_congr unchanged] at remade
    exact sent (mem_newSymbolsFrom.mpr ⟨unkeyed, List.not_mem_nil, sym, found, remade⟩)

end Names

/-! ## Equates -/

theorem mem_collectEquateRenames {r : EquateRename} :
    r ∈ collectEquateRenames state view ↔
      ∃ name, state.equateOriginalNameById.lookup r.id = some name ∧ equateLabel view r.id = some r.name ∧
        r.name ≠ name := by
  unfold collectEquateRenames
  rw [List.mem_filterMap]
  constructor
  · rintro ⟨⟨id, name⟩, held, made⟩
    cases label : equateLabel view id with
    | none => simp [label] at made
    | some text =>
      by_cases same : text = name
      · simp [label, same] at made
      · simp only [label, Option.bind_some, if_neg same, Option.some.injEq] at made
        subst made
        exact ⟨name, Table.mem_items.mp held, label, same⟩
  · rintro ⟨name, held, label, moved⟩
    exact ⟨(r.id, name), Table.mem_items.mpr held, by simp [label, moved]⟩

private theorem equate_rename_unique {r other : EquateRename} (label : equateLabel view r.id = some r.name)
    (member : other ∈ collectEquateRenames state view) (same : other.id = r.id) : other.name = r.name := by
  obtain ⟨_, _, otherLabel, _⟩ := mem_collectEquateRenames.mp member
  rw [same, label, Option.some.injEq] at otherLabel
  exact otherLabel.symm

section EquateNames
variable (moved : CheckedIn state view next)
include moved

theorem renamed_equate_lookup {r : EquateRename} (sent : r ∈ collectEquateRenames state view) :
    next.equateOriginalNameById.lookup r.id = some r.name := by
  obtain ⟨_, _, label, _⟩ := mem_collectEquateRenames.mp sent
  rw [moved.equateNames]
  exact Table.lookup_writeAll_of_mem sent fun other member same => equate_rename_unique label member same

/-- The label of an equate's type is its baseline name now. -/
theorem equate_renames_settled : collectEquateRenames next view = [] := by
  rw [List.eq_nil_iff_forall_not_mem]
  intro r again
  obtain ⟨name, held, label, renamed⟩ := mem_collectEquateRenames.mp again
  by_cases sent : r ∈ collectEquateRenames state view
  · rw [renamed_equate_lookup moved sent, Option.some.injEq] at held
    exact renamed held
  · have quiet : ∀ other ∈ collectEquateRenames state view, other.id ≠ r.id := by
      rintro ⟨id, newName⟩ member rfl
      obtain rfl := equate_rename_unique label member rfl
      exact sent member
    rw [moved.equateNames, Table.lookup_writeAll_of_not_mem quiet] at held
    exact sent (mem_collectEquateRenames.mpr ⟨name, held, label, renamed⟩)

end EquateNames

/-- The references a table of rosters holds for an equate. -/
def refsOf (refs : Table Int64 (Roster (UInt64 × Int32))) (id : Int64) : Roster (UInt64 × Int32) :=
  (refs.lookup id).getD ∅

theorem mem_refsOf_insert {refs : Table Int64 (Roster (UInt64 × Int32))} {id probe : Int64}
    {addr : UInt64} {opIndex : Int32} {ref : UInt64 × Int32} :
    ref ∈ refsOf (insertEquateRef refs id addr opIndex) probe ↔
      (probe = id ∧ ref = (addr, opIndex)) ∨ ref ∈ refsOf refs probe := by
  unfold refsOf insertEquateRef
  rw [Table.lookup_set]
  by_cases same : probe = id
  · subst same
    simp
  · simp [same]

theorem mem_refsOf_foldl {rebase : UInt64} {added : List NewEquateRef}
    {refs : Table Int64 (Roster (UInt64 × Int32))} {id : Int64} {ref : UInt64 × Int32} :
    ref ∈ refsOf (added.foldl
        (fun refs r => insertEquateRef refs r.equateId (r.addr - rebase) r.opIndex) refs) id ↔
      (∃ r ∈ added, r.equateId = id ∧ (r.addr - rebase, r.opIndex) = ref) ∨ ref ∈ refsOf refs id := by
  induction added generalizing refs with
  | nil => simp
  | cons r rest ih =>
    rw [List.foldl_cons, ih, mem_refsOf_insert]
    simp only [List.mem_cons, exists_eq_or_imp, eq_comm (a := id), eq_comm (a := ref)]
    exact or_left_comm.trans or_assoc.symm

/-- The equate is shown at this operand, and the instruction is a reference
listed under this type name. -/
def ShownUnder (state : CheckinState) (view : BinaryView) (id : Int64) (name : String) (addr : UInt64)
    (opIndex : Int32) : Prop :=
  ∃ ref ∈ (view.typeReferences.lookup name).getD [], ref.addr = addr ∧
    ∃ func, ref.func.bind view.functionAt = some func ∧ opIndex ∈ ([0, 1, 2, 3] : List Int32) ∧
      showsEquate func id ((state.equateValueById.lookup id).getD 0) addr opIndex = true

private theorem mem_equateRefsAt {id : Int64} {ref : TypeReference} {r : NewEquateRef} :
    r ∈ equateRefsAt state view id ref ↔
      r.equateId = id ∧ ref.addr = r.addr ∧
        (∃ func, ref.func.bind view.functionAt = some func ∧ r.opIndex ∈ ([0, 1, 2, 3] : List Int32) ∧
          showsEquate func id ((state.equateValueById.lookup id).getD 0) r.addr r.opIndex = true) ∧
        (r.addr - rebase state view, r.opIndex) ∉ refsOf state.equateRefsByEquateId id := by
  unfold equateRefsAt
  cases found : ref.func.bind view.functionAt with
  | none => simp
  | some func =>
    simp only [List.mem_map, List.mem_filter, Bool.and_eq_true, decide_eq_true_eq, Option.some.injEq,
      exists_eq_left']
    constructor
    · rintro ⟨opIdx, ⟨probed, shown, fresh⟩, rfl⟩
      exact ⟨rfl, rfl, ⟨probed, shown⟩, fresh⟩
    · rintro ⟨sameId, sameAddr, ⟨probed, shown⟩, fresh⟩
      refine ⟨r.opIndex, ⟨probed, ?_, ?_⟩, ?_⟩
      · rw [sameAddr]
        exact shown
      · rw [sameAddr]
        exact fresh
      · rw [← sameId, sameAddr]

/-- The references of an equate are looked up under its baseline name. -/
theorem mem_collectNewEquateRefs {r : NewEquateRef} :
    r ∈ collectNewEquateRefs state view ↔
      ∃ name, state.equateOriginalNameById.lookup r.equateId = some name ∧
        view.getTypeById (equateTypeId r.equateId) ≠ none ∧
        ShownUnder state view r.equateId name r.addr r.opIndex ∧
        (r.addr - rebase state view, r.opIndex) ∉ refsOf state.equateRefsByEquateId r.equateId := by
  unfold collectNewEquateRefs
  rw [List.mem_flatMap]
  constructor
  · rintro ⟨⟨id, name⟩, held, made⟩
    split at made
    · cases made
    · rename_i typed
      obtain ⟨ref, listed, probed⟩ := List.mem_flatMap.mp made
      obtain ⟨rfl, here, shown, fresh⟩ := mem_equateRefsAt.mp probed
      refine ⟨name, Table.mem_items.mp held, ?_, ⟨ref, listed, here, shown⟩, fresh⟩
      simpa using typed
  · rintro ⟨name, held, typed, ⟨ref, listed, here, shown⟩, fresh⟩
    refine ⟨(r.equateId, name), Table.mem_items.mpr held, ?_⟩
    rw [if_neg (by simpa using typed)]
    exact List.mem_flatMap.mpr ⟨ref, listed, mem_equateRefsAt.mpr ⟨rfl, here, shown, fresh⟩⟩

section Refs
variable (moved : CheckedIn state view next)
include moved

theorem equate_ref_not_found_again {r : NewEquateRef} (sent : r ∈ collectNewEquateRefs state view) :
    r ∉ collectNewEquateRefs next view := by
  intro again
  obtain ⟨_, _, _, _, missing⟩ := mem_collectNewEquateRefs.mp again
  rw [moved.sameRebase, moved.equateRefs, mem_refsOf_foldl] at missing
  exact missing (.inl ⟨r, sent, rfl, rfl⟩)

/-- A reference shown under the baseline name is in the baseline after the move. -/
private theorem recorded_of_shown {id : Int64} {name : String} {addr : UInt64} {opIndex : Int32}
    (held : state.equateOriginalNameById.lookup id = some name)
    (typed : view.getTypeById (equateTypeId id) ≠ none)
    (shown : ShownUnder state view id name addr opIndex) :
    (addr - rebase next view, opIndex) ∈ refsOf next.equateRefsByEquateId id := by
  rw [moved.sameRebase, moved.equateRefs, mem_refsOf_foldl]
  by_cases known : (addr - rebase state view, opIndex) ∈ refsOf state.equateRefsByEquateId id
  · exact .inr known
  · exact .inl ⟨⟨id, addr, opIndex⟩, mem_collectNewEquateRefs.mpr ⟨name, held, typed, shown, known⟩, rfl, rfl⟩

/-- Every reference to a renamed equate that is listed under its new name was in
the baseline, or was also listed under its old name. -/
def RenamedRefsKnown (state : CheckinState) (view : BinaryView) : Prop :=
  ∀ id name label, state.equateOriginalNameById.lookup id = some name → equateLabel view id = some label →
    label ≠ name → ∀ addr opIndex, ShownUnder state view id label addr opIndex →
      (addr - rebase state view, opIndex) ∈ refsOf state.equateRefsByEquateId id ∨
        ShownUnder state view id name addr opIndex

/-- A rename moves the name the references are looked up under, so the next
collection reads another list of references than this one did. -/
theorem equate_refs_settled_iff :
    collectNewEquateRefs next view = [] ↔ RenamedRefsKnown state view := by
  have sameShown (id : Int64) (name : String) (addr : UInt64) (opIndex : Int32) :
      ShownUnder next view id name addr opIndex ↔ ShownUnder state view id name addr opIndex := by
    rw [ShownUnder, ShownUnder, moved.equateValues]
  rw [List.eq_nil_iff_forall_not_mem]
  constructor
  · intro settled id name label held labelled renamed addr opIndex shown
    have sent : ⟨id, label⟩ ∈ collectEquateRenames state view :=
      mem_collectEquateRenames.mpr ⟨name, held, labelled, renamed⟩
    have heldNext := renamed_equate_lookup moved sent
    have typed : view.getTypeById (equateTypeId id) ≠ none := by
      intro missing
      simp [equateLabel, missing] at labelled
    have recorded : (addr - rebase next view, opIndex) ∈ refsOf next.equateRefsByEquateId id := by
      by_contra missing
      exact settled ⟨id, addr, opIndex⟩ (mem_collectNewEquateRefs.mpr
        ⟨label, heldNext, typed, (sameShown ..).mpr shown, missing⟩)
    rw [moved.sameRebase, moved.equateRefs, mem_refsOf_foldl] at recorded
    rcases recorded with ⟨⟨_, addr', opIndex'⟩, member, rfl, same⟩ | known
    · obtain ⟨sameAddr, rfl⟩ := Prod.mk.injEq .. ▸ same
      obtain ⟨name', held', _, shown', _⟩ := mem_collectNewEquateRefs.mp member
      rw [held, Option.some.injEq] at held'
      obtain rfl := (UInt64.sub_left_inj _).mp sameAddr
      exact .inr (held' ▸ shown')
    · exact .inl known
  · intro knownRefs r again
    obtain ⟨name, heldNext, typed, shown, missing⟩ := mem_collectNewEquateRefs.mp again
    rw [sameShown] at shown
    by_cases sent : ∃ other ∈ collectEquateRenames state view, other.id = r.equateId
    · obtain ⟨⟨id, label⟩, member, rfl⟩ := sent
      obtain ⟨old, held, labelled, renamed⟩ := mem_collectEquateRenames.mp member
      rw [renamed_equate_lookup moved member, Option.some.injEq] at heldNext
      subst heldNext
      rcases knownRefs _ _ _ held labelled renamed _ _ shown with known | shownBefore
      · rw [moved.sameRebase, moved.equateRefs, mem_refsOf_foldl] at missing
        exact missing (.inr known)
      · exact missing (recorded_of_shown moved held typed shownBefore)
    · have quiet : ∀ other ∈ collectEquateRenames state view, other.id ≠ r.equateId := by simpa using sent
      rw [moved.equateNames, Table.lookup_writeAll_of_not_mem quiet] at heldNext
      exact missing (recorded_of_shown moved heldNext typed shown)

end Refs

/-! ## Data items -/

/-- The additions and the deletions of `collectDataItems`. -/
def addedItems (state : CheckinState) (view : BinaryView) : List DataItemChange :=
  view.dataVariables.items.filterMap fun entry => dataItemAdd state view entry.1 entry.2

def deletedItems (state : CheckinState) (view : BinaryView) : List DataItemChange :=
  ((state.ghidraDataItemAddrs.list.map (· + rebase state view)).filter fun bnAddr =>
    !stillPresent view bnAddr).map fun bnAddr => ⟨.delete, bnAddr, ""⟩

theorem collectDataItems_eq : collectDataItems state view = addedItems state view ++ deletedItems state view :=
  rfl

theorem mem_addedItems {di : DataItemChange} :
    di ∈ addedItems state view ↔
      ∃ dv, view.dataVariables.lookup di.addr = some dv ∧ dv.autoDiscovered = false ∧ typeText view dv.type ≠ "" ∧
        di.addr - rebase state view ∉ state.ghidraDataItemAddrs ∧ di = ⟨.add, di.addr, typeText view dv.type⟩ := by
  unfold addedItems
  rw [List.mem_filterMap]
  constructor
  · rintro ⟨⟨bnAddr, dv⟩, listed, made⟩
    simp only [dataItemAdd] at made
    split at made
    · cases made
    · rename_i kept
      cases made
      simp only [not_or, Bool.not_eq_true] at kept
      exact ⟨dv, Table.mem_items.mp listed, kept.1, kept.2.2, kept.2.1, rfl⟩
  · rintro ⟨dv, listed, defined, nonempty, fresh, shape⟩
    refine ⟨(di.addr, dv), Table.mem_items.mpr listed, ?_⟩
    rw [shape]
    simp [dataItemAdd, defined, nonempty, fresh]

theorem mem_deletedItems {di : DataItemChange} :
    di ∈ deletedItems state view ↔
      di.addr - rebase state view ∈ state.ghidraDataItemAddrs ∧ stillPresent view di.addr = false ∧
        di = ⟨.delete, di.addr, ""⟩ := by
  unfold deletedItems
  simp only [List.mem_map, List.mem_filter, Bool.not_eq_true']
  constructor
  · rintro ⟨_, ⟨⟨addr, held, rfl⟩, absent⟩, rfl⟩
    refine ⟨?_, absent, rfl⟩
    rw [UInt64.add_sub_cancel]
    exact held
  · rintro ⟨held, absent, shape⟩
    refine ⟨di.addr, ⟨⟨_, held, ?_⟩, absent⟩, shape.symm⟩
    exact UInt64.sub_add_cancel ..

private theorem mem_recorded_items {addr : UInt64} (moved : CheckedIn state view next) :
    addr ∈ next.ghidraDataItemAddrs ↔
      (∀ gone ∈ deletedItems state view, gone.addr - rebase state view ≠ addr) ∧
        ((∃ new ∈ addedItems state view, new.addr - rebase state view = addr) ∨
          addr ∈ state.ghidraDataItemAddrs) := by
  have erases : ∀ gone ∈ deletedItems state view, ∀ current,
      recordDataItem (rebase state view) current gone = current.erase (gone.addr - rebase state view) := by
    intro gone member current
    obtain ⟨_, _, shape⟩ := mem_deletedItems.mp member
    rw [shape]
    rfl
  have inserts : ∀ new ∈ addedItems state view, ∀ current,
      recordDataItem (rebase state view) current new = current.insert (new.addr - rebase state view) := by
    intro new member current
    obtain ⟨_, _, _, _, _, shape⟩ := mem_addedItems.mp member
    rw [shape]
    rfl
  rw [moved.dataItems, collectDataItems_eq, List.foldl_append, Roster.mem_foldl_erase erases,
    Roster.mem_foldl_insert inserts]

/-- After the move the baseline holds every address the view defines with a type
text, and of the addresses it held before only those the view still defines. -/
theorem data_items_settled (moved : CheckedIn state view next) :
    collectDataItems next view = [] := by
  rw [List.eq_nil_iff_forall_not_mem]
  intro di again
  rcases List.mem_append.mp again with readded | redeleted
  · obtain ⟨dv, listed, defined, nonempty, missing, shape⟩ := mem_addedItems.mp readded
    have present : stillPresent view di.addr = true := by simp [stillPresent, listed, defined]
    rw [moved.sameRebase, mem_recorded_items moved] at missing
    refine missing ⟨?_, ?_⟩
    · intro gone member same
      obtain ⟨_, absent, _⟩ := mem_deletedItems.mp member
      rw [(UInt64.sub_left_inj _).mp same, present] at absent
      cases absent
    · by_cases fresh : di.addr - rebase state view ∈ state.ghidraDataItemAddrs
      · exact .inr fresh
      · exact .inl ⟨di, mem_addedItems.mpr ⟨dv, listed, defined, nonempty, fresh, shape⟩, rfl⟩
  · obtain ⟨held, absent, shape⟩ := mem_deletedItems.mp redeleted
    rw [moved.sameRebase, mem_recorded_items moved] at held
    obtain ⟨kept, ⟨new, added, same⟩ | before⟩ := held
    · obtain ⟨dv, listed, defined, _⟩ := mem_addedItems.mp added
      rw [(UInt64.sub_left_inj _).mp same] at listed
      simp [stillPresent, listed, defined] at absent
    · exact kept di (mem_deletedItems.mpr ⟨before, absent, shape⟩) rfl

/-! ## Data types -/

theorem describeType_name {name : String} {definition : TypeDefinition} {change : DataTypeChange}
    (described : describeType view name definition = some change) : change.name = name := by
  unfold describeType at described
  cases definition with
  | other type => cases described
  | composite isUnion width members =>
    dsimp only at described
    split at described <;> cases described
    rfl
  | enumeration width members =>
    dsimp only at described
    split at described <;> cases described
    rfl
  | typedef target width =>
    dsimp only at described
    split at described <;> cases described
    rfl

/-- An edit is the description of the type with its operation and id filled in. -/
theorem typeChange_eq_some {name : String} {registered : RegisteredType} {dt : DataTypeChange}
    (made : typeChange state view name registered = some dt) :
    dt.op ≠ .delete ∧ dt.name = name ∧
      ∃ change, describeType view name registered.definition = some change ∧
        dt = { change with op := dt.op, ghidraId := dt.ghidraId } ∧
        ∀ base, state.ghidraTypesByName.lookup name = some base →
          typeDiffers registered.definition change base = true := by
  unfold typeChange at made
  split at made
  · cases made
  · split at made
    · cases made
    · cases described : describeType view name registered.definition with
      | none => simp [described] at made
      | some change =>
        have named := describeType_name described
        rw [described, Option.bind_some] at made
        cases held : state.ghidraTypesByName.lookup name with
        | none =>
          rw [held] at made
          cases made
          exact ⟨ChangeOp.noConfusion, named, change, rfl, rfl, by simp⟩
        | some base =>
          rw [held] at made
          dsimp only at made
          split at made
          · rename_i differs
            cases made
            refine ⟨ChangeOp.noConfusion, named, change, rfl, rfl, ?_⟩
            rintro other ⟨⟩
            exact differs
          · cases made

/-- An entry is the edit of a listed type or the deletion of an unlisted one. -/
theorem mem_collectDataTypes {dt : DataTypeChange} (member : dt ∈ collectDataTypes state view) :
    (∃ registered, view.types.lookup dt.name = some registered ∧
      typeChange state view dt.name registered = some dt) ∨
    (dt.op = .delete ∧ dt.name ∉ view.types ∧
      ∃ base, state.ghidraTypesByName.lookup dt.name = some base ∧
        dt = { op := .delete, kind := base.kind, name := dt.name, ghidraId := base.id }) := by
  revert dt
  unfold collectDataTypes
  apply List.foldlRecOn state.ghidraTypesByName.items (queueTypeDeletion view)
    (motive := fun queued : List DataTypeChange => ∀ dt ∈ queued,
      (∃ registered, view.types.lookup dt.name = some registered ∧
        typeChange state view dt.name registered = some dt) ∨
      (dt.op = .delete ∧ dt.name ∉ view.types ∧
        ∃ base, state.ghidraTypesByName.lookup dt.name = some base ∧
          dt = { op := .delete, kind := base.kind, name := dt.name, ghidraId := base.id }))
  · intro dt member
    obtain ⟨⟨name, registered⟩, held, made⟩ := List.mem_filterMap.mp member
    obtain ⟨_, same, _⟩ := typeChange_eq_some made
    subst same
    exact .inl ⟨registered, Table.mem_items.mp held, made⟩
  · rintro queued shaped ⟨name, base⟩ held dt member
    rcases List.mem_append.mp member with before | here
    · exact shaped dt before
    · have made := Option.mem_toList.mp here
      simp only [typeDeletion] at made
      split at made
      · cases made
      · rename_i gone
        cases made
        exact .inr ⟨rfl, fun listed => gone (.inl listed), base, Table.mem_items.mp held, rfl⟩

private theorem mem_foldl_queueTypeDeletion {entries : List (String × GhidraDataType)}
    {queued : List DataTypeChange} {dt : DataTypeChange} (member : dt ∈ queued) :
    dt ∈ entries.foldl (queueTypeDeletion view) queued := by
  induction entries generalizing queued with
  | nil => exact member
  | cons entry rest ih => exact ih (List.mem_append_left _ member)

theorem mem_collectDataTypes_of_listed {name : String} {registered : RegisteredType} {dt : DataTypeChange}
    (listed : view.types.lookup name = some registered) (made : typeChange state view name registered = some dt) :
    dt ∈ collectDataTypes state view :=
  mem_foldl_queueTypeDeletion (List.mem_filterMap.mpr ⟨(name, registered), Table.mem_items.mpr listed, made⟩)

/-- A baseline type the view does not list is queued under its name. -/
theorem exists_deletion {name : String} {base : GhidraDataType} (unlisted : name ∉ view.types)
    (held : state.ghidraTypesByName.lookup name = some base) :
    ∃ dt ∈ collectDataTypes state view, dt.name = name := by
  obtain ⟨before, after, split⟩ := List.append_of_mem (Table.mem_items.mpr held)
  rw [collectDataTypes, split, List.foldl_append, List.foldl_cons]
  generalize before.foldl (queueTypeDeletion view) (collectTypeEdits state view) = queued
  by_cases already : ∃ dt ∈ queued, dt.name = name
  · obtain ⟨dt, member, named⟩ := already
    exact ⟨dt, mem_foldl_queueTypeDeletion (List.mem_append_left _ member), named⟩
  · have deletes : typeDeletion view queued name base =
        some { op := .delete, kind := base.kind, name, ghidraId := base.id } := by
      rw [typeDeletion, if_neg]
      simpa [unlisted] using already
    refine ⟨_, mem_foldl_queueTypeDeletion (List.mem_append_right _ (Option.mem_toList.mpr deletes)), rfl⟩

theorem data_type_unique {dt other : DataTypeChange} (member : dt ∈ collectDataTypes state view)
    (otherMember : other ∈ collectDataTypes state view) (same : other.name = dt.name) : other = dt := by
  rcases mem_collectDataTypes member with ⟨registered, listed, made⟩ | ⟨_, unlisted, base, held, shape⟩
  · have present : dt.name ∈ view.types := AList.lookup_isSome.mp (by simp [listed])
    rcases mem_collectDataTypes otherMember with ⟨registered', listed', made'⟩ | ⟨_, unlisted', _⟩
    · rw [same, listed, Option.some.injEq] at listed'
      rw [same, ← listed', made, Option.some.injEq] at made'
      exact made'.symm
    · exact absurd present (same ▸ unlisted')
  · rcases mem_collectDataTypes otherMember with ⟨registered', listed', _⟩ | ⟨_, _, base', held', shape'⟩
    · have present : other.name ∈ view.types := AList.lookup_isSome.mp (by simp [listed'])
      exact absurd present (same ▸ unlisted)
    · rw [same, held, Option.some.injEq] at held'
      rw [shape', shape, same, held']

/-- The last change of a name decides its baseline. -/
theorem lookup_recordDataTypes {changes : List DataTypeChange} {types : Table String GhidraDataType}
    {dt : DataTypeChange} (member : dt ∈ changes)
    (unique : ∀ other ∈ changes, other.name = dt.name → other = dt) :
    ((changes.foldl recordDataType types).lookup dt.name = none ∧ dt.op = .delete) ∨
      ((∃ old, (changes.foldl recordDataType types).lookup dt.name = some (storedType old dt)) ∧
        dt.op ≠ .delete) := by
  induction changes using List.reverseRecOn with
  | nil => cases member
  | append_singleton front last ih =>
    rw [List.foldl_append, List.foldl_cons, List.foldl_nil]
    by_cases same : last.name = dt.name
    · have equal := unique last (by simp) same
      subst equal
      rw [recordDataType]
      by_cases deletes : last.op = .delete
      · exact .inl ⟨by simp [deletes], deletes⟩
      · refine .inr ⟨⟨((front.foldl recordDataType types).lookup last.name).getD {}, ?_⟩, deletes⟩
        rw [if_neg deletes, Table.lookup_set, if_pos rfl]
    · have before : dt ∈ front := by
        rcases List.mem_append.mp member with front | here
        · exact front
        · exact absurd (congrArg DataTypeChange.name (List.mem_singleton.mp here)).symm same
      have kept : (recordDataType (front.foldl recordDataType types) last).lookup dt.name =
          (front.foldl recordDataType types).lookup dt.name := by
        unfold recordDataType
        split
        · rw [Table.lookup_erase_eq, if_neg (Ne.symm same)]
        · rw [Table.lookup_set, if_neg (Ne.symm same)]
      rw [kept]
      exact ih before fun other held => unique other (List.mem_append_left _ held)

theorem lookup_recordDataTypes_of_not_mem {changes : List DataTypeChange} {types : Table String GhidraDataType}
    {name : String} (absent : ∀ dt ∈ changes, dt.name ≠ name) :
    (changes.foldl recordDataType types).lookup name = types.lookup name := by
  induction changes generalizing types with
  | nil => rfl
  | cons dt rest ih =>
    have other : name ≠ dt.name := Ne.symm (absent dt List.mem_cons_self)
    rw [List.foldl_cons, ih fun later member => absent later (List.mem_cons_of_mem dt member), recordDataType]
    split
    · rw [Table.lookup_erase_eq, if_neg other]
    · rw [Table.lookup_set, if_neg other]

private theorem listDiffers_map_right {A B : Type} (differs : A → B → Bool) (g : A → B) (xs : List A)
    (same : ∀ x ∈ xs, differs x (g x) = false) : listDiffers differs xs (xs.map g) = false := by
  have zipped : xs.zip (xs.map g) = xs.map fun x => (x, g x) := by
    induction xs with
    | nil => rfl
    | cons x rest ih =>
      simp [ih fun y member => same y (List.mem_cons_of_mem x member)]
  unfold listDiffers
  rw [zipped]
  simpa using same

/-- A type shows no difference from what was just stored for it. -/
theorem stored_type_same {name : String} {definition : TypeDefinition} {change dt : DataTypeChange}
    (described : describeType view name definition = some change)
    (shape : dt = { change with op := dt.op, ghidraId := dt.ghidraId }) (old : GhidraDataType) :
    typeDiffers definition change (storedType old dt) = false := by
  have members : dt.members = change.members := by rw [shape]
  have values : dt.values = change.values := by rw [shape]
  have underlying : dt.underlyingTypeName = change.underlyingTypeName := by rw [shape]
  unfold typeDiffers storedType
  cases definition with
  | composite isUnion width fields =>
    simp only [members]
    exact listDiffers_map_right _ _ _ fun m _ => by simp [memberDiffers]
  | enumeration width fields =>
    simp only [values]
    exact listDiffers_map_right _ _ _ fun v _ => by simp [valueDiffers]
  | typedef target width => simp [underlying]
  | other type => simp [underlying]

private theorem typeDiffers_id {definition : TypeDefinition} {change : DataTypeChange} {base : GhidraDataType} :
    typeDiffers definition change { base with id := 0 } = typeDiffers definition change base := by
  cases definition <;> rfl

/-- Whether a type is sent does not depend on the ids of the baseline. -/
private theorem typeChange_of_same {name : String} {registered : RegisteredType} {dt : DataTypeChange}
    (made : typeChange next view name registered = some dt)
    (same : (next.ghidraTypesByName.lookup name).map (fun base => { base with id := 0 }) =
      (state.ghidraTypesByName.lookup name).map (fun base => { base with id := 0 })) :
    ∃ sent, typeChange state view name registered = some sent := by
  obtain ⟨_, _, change, described, _, differs⟩ := typeChange_eq_some made
  have known : name ∈ next.ghidraTypesByName ↔ name ∈ state.ghidraTypesByName := by
    have sides := congrArg Option.isSome same
    rw [Option.isSome_map, Option.isSome_map] at sides
    rw [← AList.lookup_isSome, ← AList.lookup_isSome, sides]
  unfold typeChange at made ⊢
  split at made
  · cases made
  · rename_i named
    rw [if_neg named]
    split at made
    · cases made
    · rename_i offered
      rw [known] at offered
      rw [if_neg offered, described, Option.bind_some]
      cases held : state.ghidraTypesByName.lookup name with
      | none => exact ⟨_, rfl⟩
      | some base =>
        rw [held] at same
        obtain ⟨base', held', equal⟩ := Option.map_eq_some_iff.mp same
        dsimp only at equal
        have moved : typeDiffers registered.definition change base = true := by
          rw [← typeDiffers_id, ← equal, typeDiffers_id]
          exact differs base' held'
        exact ⟨_, if_pos moved⟩

/-- After the move the baseline has every type of the view as the view shows it
and none the view does not list. -/
theorem data_types_settled (moved : CheckedIn state view next) : collectDataTypes next view = [] := by
  obtain ⟨types, same, stored⟩ := moved.dataTypes
  rw [List.eq_nil_iff_forall_not_mem]
  intro dt again
  by_cases sent : ∃ before ∈ collectDataTypes state view, before.name = dt.name
  · obtain ⟨before, member, named⟩ := sent
    have found := @lookup_recordDataTypes _ types _ member fun other queued equal =>
      data_type_unique member queued equal
    rw [← stored, named] at found
    rcases mem_collectDataTypes again with ⟨registered, listed, remade⟩ | ⟨_, unlisted, base, held, _⟩
    · obtain ⟨_, _, change, described, _, differs⟩ := typeChange_eq_some remade
      have present : dt.name ∈ view.types := AList.lookup_isSome.mp (by simp [listed])
      rcases mem_collectDataTypes member with ⟨registered', listed', made⟩ | ⟨_, unlisted, _⟩
      · rw [named, listed, Option.some.injEq] at listed'
        subst listed'
        obtain ⟨kept, _, change', described', shape, _⟩ := typeChange_eq_some made
        rcases found with ⟨_, deletes⟩ | ⟨⟨old, held⟩, _⟩
        · exact kept deletes
        · rw [named, described, Option.some.injEq] at described'
          subst described'
          have equal := stored_type_same described shape old
          rw [differs _ held] at equal
          cases equal
      · exact unlisted (named ▸ present)
    · rcases mem_collectDataTypes member with ⟨registered, listed, _⟩ | ⟨deletes, _⟩
      · rw [named] at listed
        exact unlisted (AList.lookup_isSome.mp (by simp [listed]))
      · rcases found with ⟨missing, _⟩ | ⟨_, kept⟩
        · rw [held] at missing
          cases missing
        · exact kept deletes
  · have quiet : ∀ before ∈ collectDataTypes state view, before.name ≠ dt.name := by simpa using sent
    have unmoved : next.ghidraTypesByName.lookup dt.name = types.lookup dt.name := by
      rw [stored]
      exact lookup_recordDataTypes_of_not_mem quiet
    rcases mem_collectDataTypes again with ⟨registered, listed, remade⟩ | ⟨_, unlisted, base, held, _⟩
    · obtain ⟨before, made⟩ := @typeChange_of_same state _ _ _ _ _ remade (by rw [unmoved]; exact same dt.name)
      exact quiet before (mem_collectDataTypes_of_listed listed made) (typeChange_eq_some made).2.1
    · have known := same dt.name
      rw [← unmoved, held] at known
      obtain ⟨base', held', _⟩ := Option.map_eq_some_iff.mp known.symm
      obtain ⟨before, member, named⟩ := exists_deletion unlisted held'
      exact quiet before member named

/-! ## Function signatures -/

/-- The fields a signature change carries differ from the baselines of its key. -/
def SigDiffers (state : CheckinState) (c : FuncSigChange) : Prop :=
  (c.callingConvention ≠ "" ∨ c.returnTypeName ≠ "") ∧
    (c.callingConvention ≠ "" → state.funcOriginalCC.lookup c.key ≠ some c.callingConvention) ∧
    (c.returnTypeName ≠ "" → state.funcOriginalRetType.lookup c.key ≠ some c.returnTypeName)

theorem sigChange_eq_some {key : Int64} {convention returnType : String} {c : FuncSigChange}
    (made : sigChange key convention returnType = some c)
    (conventionMoved : convention ≠ "" → state.funcOriginalCC.lookup key ≠ some convention)
    (returnMoved : returnType ≠ "" → state.funcOriginalRetType.lookup key ≠ some returnType) :
    c.key = key ∧ SigDiffers state c := by
  unfold sigChange at made
  split at made
  · rename_i nonempty
    cases made
    exact ⟨rfl, nonempty, conventionMoved, returnMoved⟩
  · cases made

theorem recordedConvention_moved {key : Int64} {origCC : String} {func : BNFunction}
    (held : state.funcOriginalCC.lookup key = some origCC) (nonempty : recordedConvention origCC func ≠ "") :
    state.funcOriginalCC.lookup key ≠ some (recordedConvention origCC func) := by
  unfold recordedConvention at nonempty ⊢
  dsimp only at nonempty ⊢
  split at nonempty
  · rename_i differs
    rw [if_pos differs, held, ne_eq, Option.some.injEq]
    exact fun same => differs.2 (by rw [← same])
  · simp at nonempty

theorem recordedReturn_moved {key : Int64} {func : BNFunction}
    (nonempty : recordedReturn state view key func ≠ "") :
    state.funcOriginalRetType.lookup key ≠ some (recordedReturn state view key func) := by
  unfold recordedReturn at nonempty ⊢
  cases held : state.funcOriginalRetType.lookup key with
  | none => simp [held] at nonempty
  | some origRet =>
    simp only [held] at nonempty ⊢
    split at nonempty
    · rename_i differs
      rw [if_pos differs, ne_eq, Option.some.injEq]
      exact fun same => differs.2 (by rw [← same])
    · simp at nonempty

theorem typedConvention_moved {key : Int64} {func : BNFunction}
    (nonempty : typedConvention state key func ≠ "") :
    state.funcOriginalCC.lookup key ≠ some (typedConvention state key func) := by
  unfold typedConvention at nonempty ⊢
  cases chosen : func.callingConvention with
  | none => simp [chosen] at nonempty
  | some curCC =>
    cases held : state.funcOriginalCC.lookup key with
    | none => simp
    | some origCC =>
      simp only [chosen, held] at nonempty ⊢
      split at nonempty
      · rename_i differs
        rw [if_pos differs, ne_eq, Option.some.injEq]
        exact fun same => differs (by rw [← same])
      · simp at nonempty

theorem typedReturn_moved {key : Int64} {func : BNFunction} (nonempty : typedReturn state view key func ≠ "") :
    state.funcOriginalRetType.lookup key ≠ some (typedReturn state view key func) := by
  unfold typedReturn at nonempty ⊢
  cases chosen : func.returnType with
  | none => simp [chosen] at nonempty
  | some ret =>
    cases held : state.funcOriginalRetType.lookup key with
    | none => simp
    | some origRet =>
      simp only [chosen, held] at nonempty ⊢
      split at nonempty
      · rename_i differs
        rw [if_pos differs, ne_eq, Option.some.injEq]
        exact fun same => differs (by rw [← same])
      · simp at nonempty

private theorem sigWithConvention_eq_some {key : Int64} {origCC : String} {c : FuncSigChange}
    (held : state.funcOriginalCC.lookup key = some origCC)
    (made : sigWithConvention state view key origCC = some c) : c.key = key ∧ SigDiffers state c := by
  unfold sigWithConvention at made
  obtain ⟨func, _, made⟩ := Option.bind_eq_some_iff.mp made
  split at made
  · cases made
  · exact sigChange_eq_some made (recordedConvention_moved held) recordedReturn_moved

/-- Every queued change differs from its baselines, and no key is queued twice. -/
structure SigQueue (state : CheckinState) (queued : List FuncSigChange) : Prop where
  differs : ∀ c ∈ queued, SigDiffers state c
  distinct : queued.Pairwise fun first second => first.key ≠ second.key

theorem sig_eq_of_key {queued : List FuncSigChange}
    (distinct : queued.Pairwise fun first second => first.key ≠ second.key) {c other : FuncSigChange}
    (member : c ∈ queued) (otherMember : other ∈ queued) (same : other.key = c.key) : other = c := by
  have symmetric : Std.Symm fun first second : FuncSigChange => first.key ≠ second.key :=
    ⟨fun _ _ apart => Ne.symm apart⟩
  by_contra different
  exact distinct.forall otherMember member different same

/-- The first loop takes each recorded convention once. -/
private theorem sigQueue_recorded :
    SigQueue state (state.funcOriginalCC.items.filterMap fun entry =>
      sigWithConvention state view entry.1 entry.2) := by
  constructor
  · intro c member
    obtain ⟨⟨key, origCC⟩, held, made⟩ := List.mem_filterMap.mp member
    exact (sigWithConvention_eq_some (Table.mem_items.mp held) made).2
  · have held : ∀ entry ∈ state.funcOriginalCC.items, state.funcOriginalCC.lookup entry.1 = some entry.2 :=
      fun _ member => Table.mem_items.mp member
    rw [List.pairwise_filterMap]
    refine state.funcOriginalCC.items_pairwise.imp_of_mem ?_
    intro first second firstMember secondMember apart c made other otherMade
    rw [(sigWithConvention_eq_some (held first firstMember) made).1,
      (sigWithConvention_eq_some (held second secondMember) otherMade).1]
    exact apart

/-- A change under a key that is not queued yet. -/
private theorem SigQueue.append {queued : List FuncSigChange} {new : FuncSigChange} (sound : SigQueue state queued)
    (unqueued : ∀ c ∈ queued, c.key ≠ new.key) (newDiffers : SigDiffers state new) :
    SigQueue state (queued ++ [new]) := by
  constructor
  · intro c member
    rcases List.mem_append.mp member with before | here
    · exact sound.differs c before
    · exact List.mem_singleton.mp here ▸ newDiffers
  · refine List.pairwise_append.mpr ⟨sound.distinct, List.pairwise_singleton _ _, ?_⟩
    intro c member other single
    rw [List.mem_singleton.mp single]
    exact unqueued c member

/-- The second loop takes a function whose key is not queued yet. -/
private theorem SigQueue.step {queued : List FuncSigChange} (sound : SigQueue state queued) (func : BNFunction) :
    SigQueue state (queueSigOfFunction state view queued func) := by
  unfold queueSigOfFunction
  split
  · exact sound
  · cases held : state.addrToKey.lookup func.start with
    | none => exact sound
    | some key =>
      dsimp only
      split
      · exact sound
      · rename_i fresh
        have unqueued : ∀ c ∈ queued, c.key ≠ key := by simpa using fresh
        cases made : sigOfFunction state view key func with
        | none =>
          rw [Option.toList_none, List.append_nil]
          exact sound
        | some new =>
          obtain ⟨newKey, newDiffers⟩ := sigChange_eq_some made typedConvention_moved typedReturn_moved
          exact sound.append (newKey.symm ▸ unqueued) newDiffers

theorem collectFuncSigs_spec : SigQueue state (collectFuncSigs state view) :=
  List.foldlRecOn view.functions (queueSigOfFunction state view) (motive := SigQueue state) sigQueue_recorded
    fun _ sound func _ => sound.step func

theorem func_sig_not_found_again {c : FuncSigChange} (moved : CheckedIn state view next)
    (sent : c ∈ collectFuncSigs state view) :
    c ∉ collectFuncSigs next view := by
  intro again
  obtain ⟨nonempty, conventionMoved, returnMoved⟩ := (@collectFuncSigs_spec next view).differs c again
  rcases nonempty with convention | returnType
  · have member : c ∈ (collectFuncSigs state view).filter fun fs => fs.callingConvention ≠ "" :=
      List.mem_filter.mpr ⟨sent, by simpa using convention⟩
    have written : next.funcOriginalCC.lookup c.key = some c.callingConvention := by
      rw [moved.conventions]
      exact Table.lookup_writeAll_of_mem member fun other held same =>
        congrArg FuncSigChange.callingConvention
          (sig_eq_of_key collectFuncSigs_spec.distinct sent (List.mem_of_mem_filter held) same)
    exact conventionMoved convention written
  · have member : c ∈ (collectFuncSigs state view).filter fun fs => fs.returnTypeName ≠ "" :=
      List.mem_filter.mpr ⟨sent, by simpa using returnType⟩
    have written : next.funcOriginalRetType.lookup c.key = some c.returnTypeName := by
      rw [moved.returns]
      exact Table.lookup_writeAll_of_mem member fun other held same =>
        congrArg FuncSigChange.returnTypeName
          (sig_eq_of_key collectFuncSigs_spec.distinct sent (List.mem_of_mem_filter held) same)
    exact returnMoved returnType written

end GhidraBridge.BaselineMoves
