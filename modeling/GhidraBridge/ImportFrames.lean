import GhidraBridge.ImportEffects
import GhidraBridge.Lib.Fold

/-! The fields each pass of the import writes, as one equation per step: the view
after the step is the view before it with those fields replaced. What is in a field
after the whole import is then what the last pass that writes it left there. -/
namespace GhidraBridge
open Lib

namespace SyncEngine

theorem getOrCreateTagType_frame (view : BinaryView) (name : String) :
    getOrCreateTagType view name = { view with tagTypes := (getOrCreateTagType view name).tagTypes } := by
  unfold getOrCreateTagType
  split <;> rfl

theorem applyMemoryBlock_frame (rebase : UInt64) (s : ImportState) (mb : GhidraMemoryBlock) :
    (applyMemoryBlock rebase s mb).view =
      { s.view with
        segments := (applyMemoryBlock rebase s mb).view.segments
        sections := (applyMemoryBlock rebase s mb).view.sections } := by
  unfold applyMemoryBlock
  split
  · rfl
  · dsimp only
    split <;> rfl

theorem applySymbol_frame (rebase : UInt64) (s : ImportState) (sym : GhidraSymbol) :
    (applySymbol rebase s sym).view =
      { s.view with
        symbols := (applySymbol rebase s sym).view.symbols
        functions := (applySymbol rebase s sym).view.functions } := by
  unfold applySymbol
  dsimp only
  split <;> split <;> rfl

theorem applyAddressComment_frame (caddr : UInt64) (comm : GhidraComment) (s : ImportState) :
    (applyAddressComment caddr comm s).view =
      { s.view with comments := (applyAddressComment caddr comm s).view.comments } := by
  unfold applyAddressComment
  dsimp only
  split
  · rfl
  · dsimp only
    split <;> rfl

theorem applyPlateComment_frame (caddr : UInt64) (comm : GhidraComment) (s : ImportState) :
    (applyPlateComment caddr comm s).view =
      { s.view with functions := (applyPlateComment caddr comm s).view.functions } := by
  unfold applyPlateComment
  split
  · rfl
  · split
    · rfl
    · dsimp only
      split <;> rfl

theorem applyComment_frame (rebase : UInt64) (s : ImportState) (comm : GhidraComment) :
    (applyComment rebase s comm).view =
      { s.view with
        comments := (applyComment rebase s comm).view.comments
        functions := (applyComment rebase s comm).view.functions } := by
  unfold applyComment
  dsimp only
  rw [applyPlateComment_frame, applyAddressComment_frame]

theorem tagFunction_frame (flag : Bool) (tagType : String) (addr : UInt64) (view : BinaryView) :
    tagFunction flag tagType addr view =
      { view with
        functions := (tagFunction flag tagType addr view).functions
        tagTypes := (tagFunction flag tagType addr view).tagTypes } := by
  unfold tagFunction
  split
  · rw [getOrCreateTagType_frame]
    rfl
  · rfl

theorem applyFuncFlags_frame (s : ImportState) (ff : GhidraFuncFlags) :
    (applyFuncFlags s ff).view =
      { s.view with
        functions := (applyFuncFlags s ff).view.functions
        tagTypes := (applyFuncFlags s ff).view.tagTypes } := by
  unfold applyFuncFlags
  split
  · rfl
  · split
    · rfl
    · dsimp only
      rw [tagFunction_frame ff.isInline, tagFunction_frame ff.noReturn, tagFunction_frame ff.thunk]

theorem foldl_bindEquate_frame (rebase : UInt64) (eq : GhidraEquate) (refs : List GhidraEquateRef)
    (view : BinaryView) :
    refs.foldl (bindEquate rebase eq) view =
      { view with functions := (refs.foldl (bindEquate rebase eq) view).functions } :=
  List.foldlRecOn refs _ (motive := fun v : BinaryView => v = { view with functions := v.functions }) rfl
    fun v same ref _ => by
      rw [same]
      rfl

theorem applyEquate_frame (rebase : UInt64) (view : BinaryView) (eq : GhidraEquate) :
    applyEquate rebase view eq =
      { view with
        functions := (applyEquate rebase view eq).functions
        autoTypes := (applyEquate rebase view eq).autoTypes } := by
  unfold applyEquate
  split
  · rfl
  · dsimp only
    split
    · rfl
    · rw [foldl_bindEquate_frame]
      rfl

theorem applyBookmark_frame (rebase : UInt64) (view : BinaryView) (bm : GhidraBookmark) :
    applyBookmark rebase view bm =
      { view with
        tagTypes := (applyBookmark rebase view bm).tagTypes
        dataTags := (applyBookmark rebase view bm).dataTags } := by
  unfold applyBookmark
  dsimp only
  rw [getOrCreateTagType_frame]
  rfl

theorem applyParameter_frame (rebase : UInt64) (view : BinaryView) (param : GhidraParameter) :
    applyParameter rebase view param =
      { view with functions := (applyParameter rebase view param).functions } := by
  unfold applyParameter
  dsimp only
  repeat' split
  all_goals rfl

theorem applyDataType_frame (view : BinaryView) (dt : GhidraDataType) :
    applyDataType view dt = { view with autoTypes := (applyDataType view dt).autoTypes } := by
  rw [applyDataType_eq]
  split <;> rfl

theorem applyDataItem_frame (rebase : UInt64) (dataTypes : List GhidraDataType) (known : Table String BNType)
    (view : BinaryView) (item : GhidraDataItem) :
    applyDataItem rebase dataTypes known view item =
      { view with dataVariables := (applyDataItem rebase dataTypes known view item).dataVariables } := by
  unfold applyDataItem
  split
  · rfl
  · split <;> rfl

theorem applyFuncSig_frame (keyToAddr : Table Int64 UInt64) (view : BinaryView) (sig : GhidraFuncSig) :
    applyFuncSig keyToAddr view sig =
      { view with functions := (applyFuncSig keyToAddr view sig).functions } := by
  have convention (addr : UInt64) (name : String) (view : BinaryView) :
      applyConvention addr name view = { view with functions := (applyConvention addr name view).functions } := by
    unfold applyConvention
    repeat' split
    all_goals rfl
  have returnType (addr : UInt64) (name : String) (view : BinaryView) :
      applyReturnType addr name view = { view with functions := (applyReturnType addr name view).functions } := by
    unfold applyReturnType
    repeat' split
    all_goals rfl
  unfold applyFuncSig
  split
  · rfl
  · rw [returnType, convention]

/-! ## The whole import, up to its later passes -/

section
variable (view : BinaryView) (data : GhidraDbExport)

/-- The import once the memory blocks are mapped. -/
def afterBlocks : ImportState :=
  data.memoryBlocks.foldl (applyMemoryBlock (rebaseOf view data)) { view, result := { imageBase := data.imageBase } }

/-- The import once the symbols are named. -/
def afterSymbols : ImportState := data.symbols.foldl (applySymbol (rebaseOf view data)) (afterBlocks view data)

/-- The import once the comments are shown. -/
def afterComments : ImportState :=
  data.comments.foldl (applyComment (rebaseOf view data)) (afterSymbols view data)

theorem applyMapped_eq : applyMapped view data = data.funcFlags.foldl applyFuncFlags (afterComments view data) := rfl

/-! Each of these passes as a whole. -/

theorem afterBlocks_frame :
    (afterBlocks view data).view =
      { view with
        segments := (afterBlocks view data).view.segments
        sections := (afterBlocks view data).view.sections } :=
  List.foldlRecOn data.memoryBlocks _
    (motive := fun s : ImportState =>
      s.view = { view with segments := s.view.segments, sections := s.view.sections })
    rfl fun s same mb _ => by rw [applyMemoryBlock_frame, same]

theorem afterSymbols_frame :
    (afterSymbols view data).view =
      { (afterBlocks view data).view with
        symbols := (afterSymbols view data).view.symbols
        functions := (afterSymbols view data).view.functions } :=
  List.foldlRecOn data.symbols _
    (motive := fun s : ImportState =>
      s.view = { (afterBlocks view data).view with symbols := s.view.symbols, functions := s.view.functions })
    rfl fun s same sym _ => by rw [applySymbol_frame, same]

theorem afterComments_frame :
    (afterComments view data).view =
      { (afterSymbols view data).view with
        comments := (afterComments view data).view.comments
        functions := (afterComments view data).view.functions } :=
  List.foldlRecOn data.comments _
    (motive := fun s : ImportState =>
      s.view = { (afterSymbols view data).view with comments := s.view.comments, functions := s.view.functions })
    rfl fun s same comm _ => by rw [applyComment_frame, same]

theorem applyMapped_frame :
    (applyMapped view data).view =
      { (afterComments view data).view with
        functions := (applyMapped view data).view.functions
        tagTypes := (applyMapped view data).view.tagTypes } :=
  List.foldlRecOn data.funcFlags _
    (motive := fun s : ImportState =>
      s.view = { (afterComments view data).view with functions := s.view.functions, tagTypes := s.view.tagTypes })
    rfl fun s same ff _ => by rw [applyFuncFlags_frame, same]

theorem afterTypes_frame :
    afterTypes view data = { beforeTypes view data with autoTypes := (afterTypes view data).autoTypes } :=
  List.foldlRecOn data.dataTypes _
    (motive := fun v : BinaryView => v = { beforeTypes view data with autoTypes := v.autoTypes })
    rfl fun v same dt _ => by rw [applyDataType_frame, same]

theorem afterItems_frame :
    afterItems view data = { afterTypes view data with dataVariables := (afterItems view data).dataVariables } :=
  List.foldlRecOn data.dataItems _
    (motive := fun v : BinaryView => v = { afterTypes view data with dataVariables := v.dataVariables })
    rfl fun v same item _ => by rw [applyDataItem_frame, same]

theorem afterBlocks_symbols : (afterBlocks view data).view.symbols = view.symbols := by rw [afterBlocks_frame]

theorem afterBlocks_functions : (afterBlocks view data).view.functions = view.functions := by rw [afterBlocks_frame]

theorem afterSymbols_comments : (afterSymbols view data).view.comments = view.comments := by
  rw [afterSymbols_frame, afterBlocks_frame]

end

/-- The view less the fields written once the comments are shown. -/
def shown (view : BinaryView) : BinaryView :=
  { view with functions := [], tagTypes := [], dataTags := [], autoTypes := ∅, dataVariables := ∅ }

/-- The passes after the comments leave everything else alone. -/
theorem applyToView_shown (view : BinaryView) (data : GhidraDbExport) :
    shown (applyToView view data).1 = shown (afterComments view data).view := by
  have signed (v : BinaryView) :
      shown (data.funcSigs.foldl (applyFuncSig (applyMapped view data).keyToAddr) v) = shown v :=
    Fold.foldl_keeps (fun v sig => by rw [applyFuncSig_frame]; rfl) data.funcSigs v
  have parameters (v : BinaryView) :
      shown (data.parameters.foldl (applyParameter (rebaseOf view data)) v) = shown v :=
    Fold.foldl_keeps (fun v param => by rw [applyParameter_frame]; rfl) data.parameters v
  have bookmarks (v : BinaryView) :
      shown (data.bookmarks.foldl (applyBookmark (rebaseOf view data)) v) = shown v :=
    Fold.foldl_keeps (fun v bm => by rw [applyBookmark_frame]; rfl) data.bookmarks v
  have equates (v : BinaryView) : shown (data.equates.foldl (applyEquate (rebaseOf view data)) v) = shown v :=
    Fold.foldl_keeps (fun v eq => by rw [applyEquate_frame]; rfl) data.equates v
  calc shown (applyToView view data).1
    _ = shown (afterItems view data) := signed _
    _ = shown (afterTypes view data) := by rw [afterItems_frame]; rfl
    _ = shown (beforeTypes view data) := by rw [afterTypes_frame]; rfl
    _ = _ := parameters _
    _ = _ := bookmarks _
    _ = shown (applyMapped view data).view := equates _
    _ = shown (afterComments view data).view := by rw [applyMapped_frame]; rfl

theorem applyToView_symbols (view : BinaryView) (data : GhidraDbExport) :
    (applyToView view data).1.symbols = (afterSymbols view data).view.symbols := by
  have kept := congrArg BinaryView.symbols (applyToView_shown view data)
  have comments := congrArg BinaryView.symbols (afterComments_frame view data)
  exact kept.trans comments

theorem applyToView_comments (view : BinaryView) (data : GhidraDbExport) :
    (applyToView view data).1.comments = (afterComments view data).view.comments := by
  have kept := congrArg BinaryView.comments (applyToView_shown view data)
  exact kept

end SyncEngine
end GhidraBridge
