import GhidraBridge.AddressAcceptance
import GhidraBridge.CheckinRetention
import GhidraBridge.DataItemBaseline
import GhidraBridge.ImportPreserves
import GhidraBridge.ImportRoundTrip
import GhidraBridge.Reimport

/-! The way of an address through both programs: written by the exporter, read and
moved to the view's base by the import, moved back by the check-in, written again
and read by the server. -/
namespace GhidraBridge.AddressTransport
open Lib ProgramApplier DatabaseExporter DbExportJson ImportRoundTrip

/-- Where the import puts a Ghidra address: the exporter's text, read and moved. -/
def placed (shift : UInt64) (a : Int64) : UInt64 := parseHexAddr (addrHex a) + shift

/-- The address the server reads from a member of an entry. -/
def serverAddress (entry : Json) (key : String) : Option UInt64 :=
  (entry.get? key).bind fun member => member.getAsString.bind parseHexLong

/-- The server reads exactly the Ghidra address that the import puts at `addr`. -/
def Returns (shift addr : UInt64) (entry : Json) (key : String) : Prop :=
  ∀ a : Int64, serverAddress entry key = some a.toUInt64 ↔ addr = placed shift a

/-! ## The import, with its addresses moved beforehand -/

section Moved
variable (shift : UInt64)

def movedSymbol (sym : GhidraSymbol) : GhidraSymbol := { sym with addr := sym.addr + shift }

def movedComment (comm : GhidraComment) : GhidraComment := { comm with addr := comm.addr + shift }

def movedEquateRef (ref : GhidraEquateRef) : GhidraEquateRef := { ref with addr := ref.addr + shift }

def movedEquate (eq : GhidraEquate) : GhidraEquate := { eq with refs := eq.refs.map (movedEquateRef shift) }

def movedBookmark (bm : GhidraBookmark) : GhidraBookmark := { bm with addr := bm.addr + shift }

def movedParameter (param : GhidraParameter) : GhidraParameter := { param with funcAddr := param.funcAddr + shift }

def movedDataItem (item : GhidraDataItem) : GhidraDataItem := { item with addr := item.addr + shift }

def movedMemoryBlock (mb : GhidraMemoryBlock) : GhidraMemoryBlock := { mb with addr := mb.addr + shift }

/-- The export with every address at its place in a view of the given base. -/
def moved (start : UInt64) (data : GhidraDbExport) : GhidraDbExport :=
  { data with
    symbols := data.symbols.map (movedSymbol shift)
    comments := data.comments.map (movedComment shift)
    equates := data.equates.map (movedEquate shift)
    bookmarks := data.bookmarks.map (movedBookmark shift)
    parameters := data.parameters.map (movedParameter shift)
    dataItems := data.dataItems.map (movedDataItem shift)
    memoryBlocks := data.memoryBlocks.map (movedMemoryBlock shift)
    imageBase := start }

end Moved

/-- The import state under another image base; nothing in the import reads it. -/
def atBase (base : UInt64) (s : ImportState) : ImportState := { s with result := { s.result with imageBase := base } }

section Bodies
variable (shift base : UInt64)

theorem applyMemoryBlock_moved (s : ImportState) (mb : GhidraMemoryBlock) :
    SyncEngine.applyMemoryBlock 0 (atBase base s) (movedMemoryBlock shift mb) =
      atBase base (SyncEngine.applyMemoryBlock shift s mb) := by
  simp only [SyncEngine.applyMemoryBlock, movedMemoryBlock, UInt64.add_zero]
  by_cases skipped : mb.size = 0 ∨ mb.overlay
  · rw [if_pos skipped, if_pos skipped]
  · rw [if_neg skipped, if_neg skipped]
    rfl

theorem applySymbol_moved (s : ImportState) (sym : GhidraSymbol) :
    SyncEngine.applySymbol 0 (atBase base s) (movedSymbol shift sym) =
      atBase base (SyncEngine.applySymbol shift s sym) := by
  simp only [SyncEngine.applySymbol, movedSymbol, UInt64.add_zero]
  rfl

theorem applyAddressComment_atBase (caddr : UInt64) (comm : GhidraComment) (s : ImportState) :
    SyncEngine.applyAddressComment caddr comm (atBase base s) =
      atBase base (SyncEngine.applyAddressComment caddr comm s) := by
  unfold SyncEngine.applyAddressComment
  by_cases empty : comm.merged = ""
  · simp only [if_pos empty]
  · simp only [if_neg empty]
    rfl

theorem applyPlateComment_atBase (caddr : UInt64) (comm : GhidraComment) (s : ImportState) :
    SyncEngine.applyPlateComment caddr comm (atBase base s) =
      atBase base (SyncEngine.applyPlateComment caddr comm s) := by
  unfold SyncEngine.applyPlateComment
  by_cases empty : comm.plate = ""
  · simp only [if_pos empty]
  · simp only [if_neg empty]
    have sameView : (atBase base s).view = s.view := rfl
    rw [sameView]
    cases s.view.functionAt caddr <;> rfl

theorem applyComment_moved (s : ImportState) (comm : GhidraComment) :
    SyncEngine.applyComment 0 (atBase base s) (movedComment shift comm) =
      atBase base (SyncEngine.applyComment shift s comm) := by
  have keyed : ({ atBase base s with
        result := SyncEngine.recordCommentKey (comm.addr + shift) comm (atBase base s).result } : ImportState) =
      atBase base { s with result := SyncEngine.recordCommentKey (comm.addr + shift) comm s.result } := by
    unfold SyncEngine.recordCommentKey
    by_cases unkeyed : comm.encodedKey = ""
    · simp only [if_pos unkeyed]
    · simp only [if_neg unkeyed]
      rfl
  have here : (movedComment shift comm).addr + 0 = comm.addr + shift := UInt64.add_zero _
  calc SyncEngine.applyComment 0 (atBase base s) (movedComment shift comm)
      = SyncEngine.applyPlateComment (comm.addr + shift) comm
          (SyncEngine.applyAddressComment (comm.addr + shift) comm
            { atBase base s with
              result := SyncEngine.recordCommentKey (comm.addr + shift) comm (atBase base s).result }) := by
        unfold SyncEngine.applyComment
        rw [here]
        rfl
    _ = atBase base (SyncEngine.applyComment shift s comm) := by
        rw [keyed, applyAddressComment_atBase, applyPlateComment_atBase]
        rfl

theorem applyFuncFlags_atBase (s : ImportState) (ff : GhidraFuncFlags) :
    SyncEngine.applyFuncFlags (atBase base s) ff = atBase base (SyncEngine.applyFuncFlags s ff) := by
  unfold SyncEngine.applyFuncFlags
  have sameKeys : (atBase base s).keyToAddr = s.keyToAddr := rfl
  have sameView : (atBase base s).view = s.view := rfl
  rw [sameKeys, sameView]
  cases s.keyToAddr.lookup ff.key with
  | none => rfl
  | some addr =>
    dsimp only
    by_cases missing : (s.view.functionAt addr).isNone = true
    · rw [if_pos missing, if_pos missing]
    · rw [if_neg missing, if_neg missing]
      rfl

theorem bindEquate_moved (eq : GhidraEquate) (view : BinaryView) (ref : GhidraEquateRef) :
    SyncEngine.bindEquate 0 (movedEquate shift eq) view (movedEquateRef shift ref) =
      SyncEngine.bindEquate shift eq view ref := by
  simp only [SyncEngine.bindEquate, movedEquateRef, movedEquate, UInt64.add_zero]

theorem applyEquate_moved (view : BinaryView) (eq : GhidraEquate) :
    SyncEngine.applyEquate 0 view (movedEquate shift eq) = SyncEngine.applyEquate shift view eq := by
  have bound (defined : BinaryView) :
      (movedEquate shift eq).refs.foldl (SyncEngine.bindEquate 0 (movedEquate shift eq)) defined =
        eq.refs.foldl (SyncEngine.bindEquate shift eq) defined := by
    rw [movedEquate, List.foldl_map]
    exact congrArg (List.foldl · defined eq.refs) (funext₂ (bindEquate_moved shift eq))
  have refless : (movedEquate shift eq).refs = [] ↔ eq.refs = [] := List.map_eq_nil_iff
  simp only [SyncEngine.applyEquate, bound, refless]
  rfl

theorem applyBookmark_moved (view : BinaryView) (bm : GhidraBookmark) :
    SyncEngine.applyBookmark 0 view (movedBookmark shift bm) = SyncEngine.applyBookmark shift view bm := by
  simp only [SyncEngine.applyBookmark, movedBookmark, UInt64.add_zero]

theorem applyParameter_moved (view : BinaryView) (param : GhidraParameter) :
    SyncEngine.applyParameter 0 view (movedParameter shift param) = SyncEngine.applyParameter shift view param := by
  simp only [SyncEngine.applyParameter, movedParameter, UInt64.add_zero]
  rfl

theorem applyDataItem_moved (dataTypes : List GhidraDataType) (known : Table String BNType) (view : BinaryView)
    (item : GhidraDataItem) :
    SyncEngine.applyDataItem 0 dataTypes known view (movedDataItem shift item) =
      SyncEngine.applyDataItem shift dataTypes known view item := by
  simp only [SyncEngine.applyDataItem, movedDataItem, UInt64.add_zero]
  rfl

end Bodies

/-- A fold whose steps on moved records are the original steps seen under `h`. -/
private theorem foldl_moved {S A : Type} {f g : S → A → S} {m : A → A} {h : S → S}
    (body : ∀ s x, g (h s) (m x) = h (f s x)) (items : List A) (s : S) :
    (items.map m).foldl g (h s) = h (items.foldl f s) := by
  rw [List.foldl_map]
  exact List.foldl_hom h fun s x => body s x

private theorem foldl_moved_id {S A : Type} {f g : S → A → S} {m : A → A}
    (body : ∀ s x, g s (m x) = f s x) (items : List A) (s : S) : (items.map m).foldl g s = items.foldl f s :=
  foldl_moved (h := id) body items s

section Run
variable (view : BinaryView) (data : GhidraDbExport)

/-- The export with its addresses at their places in the view. -/
def placedExport : GhidraDbExport := moved (SyncEngine.rebaseOf view data) view.start data

theorem rebaseOf_placedExport : SyncEngine.rebaseOf view (placedExport view data) = 0 := UInt64.sub_self view.start

theorem applyMapped_moved :
    SyncEngine.applyMapped view (placedExport view data) = atBase view.start (SyncEngine.applyMapped view data) := by
  have begun : ({ view, result := { imageBase := view.start } } : ImportState) =
      atBase view.start { view, result := { imageBase := data.imageBase } } := rfl
  unfold SyncEngine.applyMapped
  rw [rebaseOf_placedExport]
  dsimp only [placedExport, moved]
  rw [begun, foldl_moved (applyMemoryBlock_moved _ _), foldl_moved (applySymbol_moved _ _),
    foldl_moved (applyComment_moved _ _)]
  exact List.foldl_hom (atBase view.start) fun s ff => applyFuncFlags_atBase view.start s ff

theorem applyTyped_moved (shift start : UInt64) (mapped : BinaryView) :
    SyncEngine.applyTyped 0 (moved shift start data) mapped = SyncEngine.applyTyped shift data mapped := by
  unfold SyncEngine.applyTyped
  dsimp only [moved]
  rw [foldl_moved_id (applyEquate_moved shift), foldl_moved_id (applyBookmark_moved shift),
    foldl_moved_id (applyParameter_moved shift)]

/-- Importing is placing: the import at another base does what the import of the
moved export does at the base it was moved to. -/
theorem applyToView_moved :
    (SyncEngine.applyToView view (placedExport view data)).1 = (SyncEngine.applyToView view data).1 := by
  unfold SyncEngine.applyToView
  rw [rebaseOf_placedExport, applyMapped_moved]
  dsimp only [placedExport]
  rw [applyTyped_moved]
  dsimp only [moved, atBase]
  rw [foldl_moved_id (applyDataItem_moved (SyncEngine.rebaseOf view data) _ _)]

end Run

/-! ## Where the records land -/

section Places
open SyncEngine SymbolImport ImportPreserves WritebackMaps FunctionPasses CheckinState
variable (view : BinaryView) (data : GhidraDbExport)

/-- What the import shows at an address of the view comes from the records whose address
is placed there, category by category. A plate and a parameter go to the first function of
their place, and a reference of an equate to every function around it. -/
structure RecordsPlaced : Prop where
  symbols : ∀ addr, (applyToView view data).1.shownName addr =
    ((data.symbols.filter fun sym => sym.addr + rebaseOf view data = addr).map GhidraSymbol.name).foldl
      (Settle.write isChosenName) (view.shownName addr)
  symbolKeys : ∀ addr, addr ∈ (applyToView view data).2.addrToKey ↔
    ∃ sym ∈ data.symbols, sym.addr + rebaseOf view data = addr
  starts : ∀ addr, ((applyToView view data).1.functionAt (addr + rebaseOf view data)).isSome = true ↔
    (view.functionAt (addr + rebaseOf view data)).isSome = true ∨
      ∃ sym ∈ data.symbols, Creates view sym ∧ sym.addr = addr
  comments : ∀ addr, (applyToView view data).1.getCommentForAddress addr =
    if view.getCommentForAddress addr = "" then
      (((data.comments.filter fun comm => comm.merged ≠ "").filter fun comm =>
        comm.addr + rebaseOf view data = addr).map GhidraComment.merged).head?.getD ""
    else view.getCommentForAddress addr
  plates : (applyToView view data).1.functions.map BNFunction.comment =
    (Lib.Leads.leads BNFunction.start [] (afterSymbols view data).view.functions).map fun entry =>
      (data.comments.filter fun comm => entry.1 && comm.addr + rebaseOf view data = entry.2.start).foldl
        (fun text comm => plateText text comm.plate) entry.2.comment
  equateRefs : (applyToView view data).1.functions.map BNFunction.displayTypes =
    (afterSymbols view data).view.functions.map fun func =>
      func.displayTypes.writeAll
        (fun site => (site.2.addr + rebaseOf view data, site.1.value.toUInt64, site.2.opIndex.toInt64.toUInt64))
        siteType ((data.equates.flatMap sitesOf).filter fun site => func.contains (site.2.addr + rebaseOf view data))
  bookmarks : (applyToView view data).1.dataTags = view.dataTags ++ data.bookmarks.map fun bm =>
    ⟨bm.addr + rebaseOf view data, some ("Ghidra: " ++ bm.type), bookmarkTagData bm.category bm.comment⟩
  parameters : (applyToView view data).1.functions.map BNFunction.vars =
    (Lib.Leads.leads BNFunction.start [] (afterSymbols view data).view.functions).map fun entry =>
      (data.parameters.filter fun param => entry.1 && param.funcAddr + rebaseOf view data = entry.2.start).foldl
        (nameVariable (beforeParameters view data) entry.2.parameterVariables) entry.2.vars
  dataItems : ∀ addr, stillPresent (applyToView view data).1 addr = true ↔
    (∃ item ∈ data.dataItems,
        item.addr + rebaseOf view data = addr ∧ DataItemBaseline.TypeArrives view data item.typeId) ∨
      stillPresent view addr = true

/-- A field of the functions is, function by function, what the passes make of it. -/
theorem functions_field {B : Type} (field : BNFunction → B) :
    (applyToView view data).1.functions.map field =
      (Lib.Leads.leads BNFunction.start [] (afterSymbols view data).view.functions).map fun entry =>
        field (passed (rebaseOf view data) (afterComments view data).keyToAddr data (beforeParameters view data)
          (afterItems view data) entry.1 entry.2) := by
  rw [applyToView_functions, Lib.Leads.each, List.map_map]
  rfl

theorem reaching_some {R : Type} (place : R → UInt64) (records : List R) (lead : Bool) (start : UInt64) :
    reaching (fun r => some (place r)) records lead start =
      records.filter fun r => lead && decide (place r = start) := by
  simp only [reaching, Option.some.injEq]

theorem records_placed : RecordsPlaced view data where
  symbols := applyToView_shownName view data
  symbolKeys _ := mem_addrToKey view data
  starts addr := by
    rw [Reimport.functionAt_applyToView]
    exact afterSymbols_functionAt view data addr
  comments := applyToView_getCommentForAddress view data
  plates := by
    simp only [functions_field, passed, signed, named, sited, tagged, plated, platesOf, reaching_some]
  equateRefs := by
    have walked := congrArg (List.map fun func : BNFunction =>
        func.displayTypes.writeAll (siteKey (rebaseOf view data)) siteType
          ((data.equates.flatMap sitesOf).filter fun site => func.contains (site.2.addr + rebaseOf view data)))
      (@Lib.Leads.leads_map BNFunction UInt64 _ BNFunction.start [] (afterSymbols view data).view.functions)
    rw [functions_field]
    refine Eq.trans ?_ walked
    rw [List.map_map]
    rfl
  bookmarks := Reimport.applyToView_dataTags view data
  parameters := by
    simp only [functions_field, passed, signed, named, sited, tagged, plated, parametersOf, reaching_some]
  dataItems := DataItemBaseline.imported_present_iff view data

end Places

/-! ## The way back -/

theorem placed_eq (shift : UInt64) (a : Int64) : placed shift a = a.toUInt64 + shift := by
  unfold placed addrHex
  rw [parseHexAddr_toHex]

theorem returns_of_va {shift addr : UInt64} {entry : Json} {key : String}
    (held : entry.get? key = some (vaJson shift addr)) : Returns shift addr entry key := by
  intro a
  have read : serverAddress entry key = some (addr - shift) := by
    rw [serverAddress, held]
    exact AddressAcceptance.va_read shift addr
  rw [read, Option.some.injEq, placed_eq, UInt64.sub_eq_iff_eq_add]

section Sources
variable {state : CheckinState} {view : BinaryView}
open CheckinState BaselineMoves CommentEdits CheckinRetention

theorem newSymbol_source {s : NewSymbol} (sent : s ∈ collectNewSymbols state view) :
    ∃ sym ∈ view.symbols, sym.addr = s.addr := by
  obtain ⟨_, _, sym, found, made⟩ := mem_newSymbolsFrom.mp sent
  exact ⟨sym, List.mem_of_find?_eq_some found, (newSymbolFor_eq_some made).1.symm⟩

theorem comment_source {c : CommentChange} (sent : c ∈ collectComments state view) :
    view.getCommentForAddress c.addr ≠ "" ∨ ∃ func ∈ view.functions, func.start = c.addr := by
  obtain ⟨_, edit⟩ := mem_collectComments.mp sent
  rcases Option.or_eq_some_iff.mp edit with here | ⟨_, inFunction⟩
  · left
    intro empty
    simp [addressEdit, empty] at here
  · right
    obtain ⟨func, found, _⟩ := Option.map_eq_some_iff.mp inFunction
    have edited := List.find?_some found
    simp only [editedAt, Bool.and_eq_true, decide_eq_true_eq] at edited
    exact ⟨func, List.mem_of_find?_eq_some found, edited.1.1⟩

theorem equateRef_source {r : NewEquateRef} (sent : r ∈ collectNewEquateRefs state view) :
    ∃ name, ∃ ref ∈ (view.typeReferences.lookup name).getD [], ref.addr = r.addr := by
  obtain ⟨name, _, _, ⟨ref, listed, here, _⟩, _⟩ := mem_collectNewEquateRefs.mp sent
  exact ⟨name, ref, listed, here⟩

theorem bookmark_source {b : BookmarkChange} (sent : b ∈ collectBookmarks state view) :
    (∃ tag ∈ view.dataTags, tag.addr = b.addr) ∨
      ∃ k ∈ state.ghidraBookmarkKeys, k.addr + rebase state view = b.addr := by
  rcases mem_collectBookmarks.mp sent with ⟨k, current, _, rfl⟩ | ⟨k, held, _, rfl⟩
  · left
    obtain ⟨tag, listed, shown⟩ := List.mem_filterMap.mp (Roster.mem_ofList.mp current)
    obtain ⟨typeName, _, made⟩ := Option.bind_eq_some_iff.mp shown
    split at made
    · cases made
      exact ⟨tag, listed, (UInt64.sub_add_cancel ..).symm⟩
    · cases made
  · exact .inr ⟨k, held, rfl⟩

theorem newParam_source {p : NewParam} (sent : p ∈ collectNewParams state view) :
    ∃ func ∈ view.functions, func.start = p.funcAddr := by
  rcases List.mem_append.mp (List.mem_of_mem_filter sent) with argument | register
  · obtain ⟨func, listed, inside⟩ := List.mem_flatMap.mp argument
    obtain ⟨_, _, made⟩ := List.mem_filterMap.mp inside
    simp only [newParamOf] at made
    split at made
    · cases made
    · cases made
      exact ⟨func, listed, rfl⟩
  · obtain ⟨func, listed, inside⟩ := List.mem_flatMap.mp register
    obtain ⟨_, _, made⟩ := List.mem_filterMap.mp inside
    simp only [newRegLocalOf] at made
    split at made
    · cases made
    · cases made
      exact ⟨func, listed, rfl⟩

theorem dataItem_source {d : DataItemChange} (sent : d ∈ collectDataItems state view) :
    d.addr ∈ view.dataVariables ∨ ∃ g ∈ state.ghidraDataItemAddrs, g + rebase state view = d.addr := by
  rw [collectDataItems_eq, List.mem_append, mem_addedItems, mem_deletedItems] at sent
  rcases sent with ⟨dv, listed, _⟩ | ⟨held, _⟩
  · left
    rw [← AList.lookup_isSome, listed]
    rfl
  · exact .inr ⟨_, held, UInt64.sub_add_cancel ..⟩

end Sources

/-- Every record of an export is read as it was written, its address with it. -/
structure RecordsRead : Prop where
  symbols : ∀ s, symbol (symbolEntry s).dropNulls = .ok s
  comments : ∀ c, comment (commentEntry c).dropNulls = .ok c
  equateRefs : ∀ r, equateRef (equateRefEntry r) = .ok r
  bookmarks : ∀ b, bookmark (bookmarkUnder (some b.type) b).dropNulls = .ok b
  parameters : ∀ p, parameter (parameterEntry p).dropNulls = .ok p
  dataItems : ∀ d, dataItem (dataItemEntry d).dropNulls = .ok d

/-- What a check-in of `edited` sends against the baselines of an import of `data`: an
address of the view, or a baseline's address at its place in the view, which the
server reads as the Ghidra address placed there. -/
structure ChangesReturn (data : GhidraDbExport) (state : CheckinState) (edited : BinaryView) : Prop where
  back : ∀ a : Int64, placed (SyncEngine.rebaseOf edited data) a - state.rebase edited = a.toUInt64
  symbols : ∀ s ∈ state.collectNewSymbols edited,
    (∃ sym ∈ edited.symbols, sym.addr = s.addr) ∧
      Returns (SyncEngine.rebaseOf edited data) s.addr (CheckinJson.newSymbolEntry (state.rebase edited) s) "va"
  comments : ∀ c ∈ state.collectComments edited,
    (edited.getCommentForAddress c.addr ≠ "" ∨ ∃ func ∈ edited.functions, func.start = c.addr) ∧
      Returns (SyncEngine.rebaseOf edited data) c.addr
        (CheckinJson.commentEntry (state.rebase edited) state.addrToOriginalFuncComment state.addrToCommentField c) "va"
  equateRefs : ∀ r ∈ state.collectNewEquateRefs edited,
    (∃ name, ∃ ref ∈ (edited.typeReferences.lookup name).getD [], ref.addr = r.addr) ∧
      Returns (SyncEngine.rebaseOf edited data) r.addr (CheckinJson.equateRefEntry (state.rebase edited) r) "va"
  bookmarks : ∀ b ∈ state.collectBookmarks edited,
    ((∃ tag ∈ edited.dataTags, tag.addr = b.addr) ∨
        ∃ bm ∈ data.bookmarks, bm.addr + SyncEngine.rebaseOf edited data = b.addr) ∧
      Returns (SyncEngine.rebaseOf edited data) b.addr (CheckinJson.bookmarkEntry (state.rebase edited) b) "addr"
  newParams : ∀ p ∈ state.collectNewParams edited,
    (∃ func ∈ edited.functions, func.start = p.funcAddr) ∧
      Returns (SyncEngine.rebaseOf edited data) p.funcAddr (CheckinJson.newParamEntry (state.rebase edited) p) "func_va"
  dataItems : ∀ d ∈ state.collectDataItems edited,
    (d.addr ∈ edited.dataVariables ∨
        ∃ item ∈ data.dataItems, item.addr + SyncEngine.rebaseOf edited data = d.addr) ∧
      Returns (SyncEngine.rebaseOf edited data) d.addr (CheckinJson.dataItemEntry (state.rebase edited) d) "addr"

end GhidraBridge.AddressTransport
