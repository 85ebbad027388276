import GhidraBridge.SymbolImport
import GhidraBridge.TypeSettling
import GhidraBridge.VariableSettling
import GhidraBridge.Lib.Front

/-! The same export imported twice. The second import finds what the first one left:
names that were applied, functions that were created, types that are registered.
Most passes write what is there already. The tags of function flags and bookmarks
are added once more, and a type name may resolve to a type that was not there the
first time. -/
namespace GhidraBridge

namespace BinaryView

/-- The symbols at an address, the one shown first. -/
def symbolsAt (view : BinaryView) (addr : UInt64) : List BNSymbol := view.symbols.filter fun sym => sym.addr = addr

theorem getSymbolByAddress_eq_head? (view : BinaryView) (addr : UInt64) :
    view.getSymbolByAddress addr = (view.symbolsAt addr).head? := List.head?_filter.symm

theorem symbolsAt_defineUserSymbol (view : BinaryView) (sym : BNSymbol) (addr : UInt64) :
    (view.defineUserSymbol sym).symbolsAt addr =
      if sym.addr = addr then Lib.Front.bring id (view.symbolsAt addr) sym else view.symbolsAt addr := by
  unfold symbolsAt defineUserSymbol Lib.Front.bring
  rw [List.filter_cons, List.filter_filter, List.filter_filter]
  by_cases here : sym.addr = addr
  · rw [if_pos (decide_eq_true here), if_pos here]
    simp only [id, Bool.and_comm]
  · rw [if_neg (by simpa using here), if_neg here]
    refine List.filter_congr fun other _ => ?_
    by_cases there : other.addr = addr
    · have apart : other ≠ sym := fun same => here (same ▸ there)
      simp [there, apart]
    · simp [there]

end BinaryView

namespace Reimport
open Lib SyncEngine WritebackMaps SymbolImport FunctionPasses TypeSettling VariableSettling

/-! ## Symbols -/

/-- The symbols the records at an address stand for. -/
def symbolsFor (rebase : UInt64) (symbols : List GhidraSymbol) (addr : UInt64) : List BNSymbol :=
  (symbols.filter fun sym => sym.addr + rebase = addr).map fun sym => ⟨symbolType sym.type, sym.name, addr⟩

theorem appliesName_eq (view : BinaryView) (addr : UInt64) (name : String) :
    appliesName view addr name =
      (view.symbolsAt addr).head?.all fun first => !isChosenName first.name || first.name = name := by
  rw [appliesName, BinaryView.getSymbolByAddress_eq_head?]
  cases (view.symbolsAt addr).head? with
  | none => rfl
  | some first =>
    by_cases empty : first.name = "" <;> by_cases auto : isAutoGenName first.name = true <;>
      by_cases same : first.name = name <;> simp [isChosenName, empty, auto, same]

theorem applySymbol_symbolsAt (rebase : UInt64) (s : ImportState) (sym : GhidraSymbol) (addr : UInt64) :
    (applySymbol rebase s sym).view.symbolsAt addr =
      if sym.addr + rebase = addr then
        Front.take id BNSymbol.name isChosenName (s.view.symbolsAt addr) ⟨symbolType sym.type, sym.name, addr⟩
      else s.view.symbolsAt addr := by
  have created (view : BinaryView) : (createMissing rebase view sym).symbolsAt addr = view.symbolsAt addr := by
    rw [createMissing_eq]
    rfl
  rw [applySymbol_view, created, nameSymbol]
  by_cases here : sym.addr + rebase = addr
  · subst here
    rw [if_pos rfl, Front.take, ← appliesName_eq]
    split
    · rw [BinaryView.symbolsAt_defineUserSymbol, if_pos rfl]
    · rfl
  · rw [if_neg here]
    split
    · rw [BinaryView.symbolsAt_defineUserSymbol, if_neg here]
    · rfl

theorem foldl_applySymbol_symbolsAt (rebase : UInt64) (symbols : List GhidraSymbol) (s : ImportState)
    (addr : UInt64) :
    (symbols.foldl (applySymbol rebase) s).view.symbolsAt addr =
      (symbolsFor rebase symbols addr).foldl (Front.take id BNSymbol.name isChosenName) (s.view.symbolsAt addr) := by
  induction symbols generalizing s with
  | nil => rfl
  | cons sym rest ih =>
    rw [List.foldl_cons, ih, applySymbol_symbolsAt, symbolsFor, symbolsFor, List.filter_cons]
    by_cases here : sym.addr + rebase = addr
    · rw [if_pos here, if_pos (decide_eq_true here), List.map_cons, List.foldl_cons]
    · rw [if_neg here, if_neg (by simpa using here)]

section
variable (view : BinaryView) (data : GhidraDbExport)

theorem applyToView_symbolsAt (addr : UInt64) :
    (applyToView view data).1.symbolsAt addr =
      (symbolsFor (rebaseOf view data) data.symbols addr).foldl (Front.take id BNSymbol.name isChosenName)
        (view.symbolsAt addr) := by
  have start : (afterBlocks view data).view.symbolsAt addr = view.symbolsAt addr :=
    congrArg (List.filter _) (afterBlocks_symbols view data)
  have later : (applyToView view data).1.symbolsAt addr = (afterSymbols view data).view.symbolsAt addr :=
    congrArg (List.filter _) (applyToView_symbols view data)
  rw [later, afterSymbols, foldl_applySymbol_symbolsAt, start]

theorem rebaseOf_applyToView : rebaseOf (applyToView view data).1 data = rebaseOf view data := by
  rw [rebaseOf, applyToView_start, rebaseOf]

/-- The second import shows the same symbols in the same order at every address. -/
theorem symbols_settled (addr : UInt64) :
    (applyToView (applyToView view data).1 data).1.symbolsAt addr = (applyToView view data).1.symbolsAt addr := by
  rw [applyToView_symbolsAt, rebaseOf_applyToView, applyToView_symbolsAt, Front.foldl_take_twice]

/-! ## The memory map -/

/-- The blocks that are imported. -/
def Mapped (mb : GhidraMemoryBlock) : Prop := ¬(mb.size = 0 ∨ mb.overlay = true)

instance (mb : GhidraMemoryBlock) : Decidable (Mapped mb) := inferInstanceAs (Decidable (¬_))

def sectionOf (rebase : UInt64) (mb : GhidraMemoryBlock) : BNSection :=
  ⟨if mb.name = "" then "ghidra_" ++ toString (mb.addr + rebase) else mb.name, mb.addr + rebase, mb.size,
    if mb.execute then .readOnlyCode else if mb.write then .readWriteData else .readOnlyData⟩

theorem applyMemoryBlock_sections (rebase : UInt64) (s : ImportState) (mb : GhidraMemoryBlock) :
    (applyMemoryBlock rebase s mb).view.sections =
      if Mapped mb then Front.bring BNSection.name s.view.sections (sectionOf rebase mb) else s.view.sections := by
  unfold applyMemoryBlock
  by_cases mapped : Mapped mb
  · rw [if_neg mapped, if_pos mapped]
    dsimp only
    split <;> rfl
  · rw [if_pos (not_not.mp mapped), if_neg mapped]

theorem foldl_applyMemoryBlock_sections (rebase : UInt64) (blocks : List GhidraMemoryBlock) (s : ImportState) :
    (blocks.foldl (applyMemoryBlock rebase) s).view.sections =
      ((blocks.filter fun mb => Mapped mb).map (sectionOf rebase)).foldl (Front.bring BNSection.name)
        s.view.sections := by
  induction blocks generalizing s with
  | nil => rfl
  | cons mb rest ih =>
    rw [List.foldl_cons, ih, applyMemoryBlock_sections, List.filter_cons]
    by_cases mapped : Mapped mb
    · rw [if_pos mapped, if_pos (decide_eq_true mapped), List.map_cons, List.foldl_cons]
    · rw [if_neg mapped, if_neg (by simpa using mapped)]

theorem applyToView_sections :
    (applyToView view data).1.sections =
      ((data.memoryBlocks.filter fun mb => Mapped mb).map (sectionOf (rebaseOf view data))).foldl
        (Front.bring BNSection.name) view.sections := by
  have kept := congrArg BinaryView.sections (applyToView_shown view data)
  have early : (afterComments view data).view.sections = (afterBlocks view data).view.sections := by
    rw [afterComments_frame, afterSymbols_frame]
  exact (kept.trans early).trans (foldl_applyMemoryBlock_sections _ _ _)

theorem sections_settled :
    (applyToView (applyToView view data).1 data).1.sections = (applyToView view data).1.sections := by
  rw [applyToView_sections, rebaseOf_applyToView, applyToView_sections, Front.foldl_bring_twice]

theorem applyToView_segments : (applyToView view data).1.segments = (afterBlocks view data).view.segments := by
  have kept := congrArg BinaryView.segments (applyToView_shown view data)
  have early : (afterComments view data).view.segments = (afterBlocks view data).view.segments := by
    rw [afterComments_frame, afterSymbols_frame]
  exact kept.trans early

end

/-- The segment a block needs. -/
def segmentOf (rebase : UInt64) (mb : GhidraMemoryBlock) : Segment :=
  ⟨mb.addr + rebase, mb.size, ⟨mb.read, mb.write, mb.execute, mb.execute⟩⟩

/-- An address lies in one of the segments. -/
def covered (segments : List Segment) (addr : UInt64) : Bool :=
  segments.any fun segment => segment.start ≤ addr && addr - segment.start < segment.length

/-- A block adds a segment unless its start is mapped. -/
def addSegment (rebase : UInt64) (segments : List Segment) (mb : GhidraMemoryBlock) : List Segment :=
  if Mapped mb ∧ covered segments (mb.addr + rebase) = false then segments ++ [segmentOf rebase mb] else segments

theorem applyMemoryBlock_segments (rebase : UInt64) (s : ImportState) (mb : GhidraMemoryBlock) :
    (applyMemoryBlock rebase s mb).view.segments = addSegment rebase s.view.segments mb := by
  have unmapped : (s.view.getSegmentAt (mb.addr + rebase)).isNone = true ↔
      covered s.view.segments (mb.addr + rebase) = false := by
    rw [Option.isNone_iff_eq_none, BinaryView.getSegmentAt, List.find?_eq_none, covered, List.any_eq_false]
  by_cases mapped : Mapped mb
  · by_cases free : (s.view.getSegmentAt (mb.addr + rebase)).isNone = true
    · have adds : addSegment rebase s.view.segments mb = s.view.segments ++ [segmentOf rebase mb] :=
        if_pos ⟨mapped, unmapped.mp free⟩
      rw [adds, applyMemoryBlock, if_neg mapped]
      dsimp only
      rw [if_pos free]
      rfl
    · have keeps : addSegment rebase s.view.segments mb = s.view.segments :=
        if_neg fun both => free (unmapped.mpr both.2)
      rw [keeps, applyMemoryBlock, if_neg mapped]
      dsimp only
      rw [if_neg free]
      rfl
  · rw [applyMemoryBlock, if_pos (not_not.mp mapped), addSegment, if_neg fun both => mapped both.1]

theorem foldl_applyMemoryBlock_segments (rebase : UInt64) (blocks : List GhidraMemoryBlock) (s : ImportState) :
    (blocks.foldl (applyMemoryBlock rebase) s).view.segments = blocks.foldl (addSegment rebase) s.view.segments := by
  induction blocks generalizing s with
  | nil => rfl
  | cons mb rest ih => rw [List.foldl_cons, ih, applyMemoryBlock_segments, List.foldl_cons]

/-- Once the blocks are in, the start of each is mapped. -/
theorem covered_after (rebase : UInt64) (blocks : List GhidraMemoryBlock) (segments : List Segment) :
    ∀ mb ∈ blocks, Mapped mb → covered (blocks.foldl (addSegment rebase) segments) (mb.addr + rebase) = true := by
  refine @Fold.foldl_establishes (List Segment) GhidraMemoryBlock (addSegment rebase)
    (fun mb segments => Mapped mb → covered segments (mb.addr + rebase) = true) (fun segments mb mapped => ?_)
    (fun segments mb other held mapped => ?_) blocks segments
  · unfold addSegment
    split
    · have inside : 0 < mb.size := by
        have filled : mb.size ≠ 0 := fun empty => mapped (.inl empty)
        exact UInt64.pos_iff_ne_zero.mpr filled
      rw [covered, List.any_append, Bool.or_eq_true]
      refine .inr ?_
      simp [segmentOf, inside]
    · rename_i added
      by_contra free
      exact added ⟨mapped, by simpa using free⟩
  · unfold addSegment
    split
    · rw [covered, List.any_append, Bool.or_eq_true]
      exact .inl (held mapped)
    · exact held mapped

theorem segments_settled (view : BinaryView) (data : GhidraDbExport) :
    (applyToView (applyToView view data).1 data).1.segments = (applyToView view data).1.segments := by
  rw [applyToView_segments, afterBlocks, foldl_applyMemoryBlock_segments, rebaseOf_applyToView, applyToView_segments,
    afterBlocks, foldl_applyMemoryBlock_segments]
  refine Fold.foldl_fixed fun mb member => ?_
  refine if_neg fun both => ?_
  have mapped := covered_after (rebaseOf view data) data.memoryBlocks view.segments mb member both.1
  rw [mapped] at both
  cases both.2

/-! ## Comments and data tags -/

/-- The address comments after one record. -/
def showText (rebase : UInt64) (comments : Table UInt64 String) (comm : GhidraComment) : Table UInt64 String :=
  if comm.merged ≠ "" ∧ ((comments.lookup (comm.addr + rebase)).getD "" = "" ∨
      (comments.lookup (comm.addr + rebase)).getD "" = comm.merged) then
    comments.set (comm.addr + rebase) comm.merged
  else comments

theorem applyComment_comments (rebase : UInt64) (s : ImportState) (comm : GhidraComment) :
    (applyComment rebase s comm).view.comments = showText rebase s.view.comments comm := by
  rw [applyComment, applyPlateComment_frame]
  unfold applyAddressComment
  by_cases empty : comm.merged = ""
  · rw [if_pos empty, showText, if_neg fun both => both.1 empty]
  · rw [if_neg empty]
    by_cases writes : s.view.getCommentForAddress (comm.addr + rebase) = "" ∨
        s.view.getCommentForAddress (comm.addr + rebase) = comm.merged
    · have shows : showText rebase s.view.comments comm = s.view.comments.set (comm.addr + rebase) comm.merged :=
        if_pos ⟨empty, writes⟩
      rw [shows]
      dsimp only
      rw [if_pos writes]
      rfl
    · have keeps : showText rebase s.view.comments comm = s.view.comments := if_neg fun both => writes both.2
      rw [keeps]
      dsimp only
      rw [if_neg writes]

theorem foldl_applyComment_comments (rebase : UInt64) (comments : List GhidraComment) (s : ImportState) :
    (comments.foldl (applyComment rebase) s).view.comments = comments.foldl (showText rebase) s.view.comments := by
  induction comments generalizing s with
  | nil => rfl
  | cons comm rest ih => rw [List.foldl_cons, ih, applyComment_comments, List.foldl_cons]

/-- Once the records are in, there is a text at the address of each that has one. -/
theorem shown_after (rebase : UInt64) (comments : List GhidraComment) (table : Table UInt64 String) :
    ∀ comm ∈ comments, comm.merged ≠ "" →
      ((comments.foldl (showText rebase) table).lookup (comm.addr + rebase)).getD "" ≠ "" := by
  refine @Fold.foldl_establishes (Table UInt64 String) GhidraComment (showText rebase)
    (fun comm table => comm.merged ≠ "" → (table.lookup (comm.addr + rebase)).getD "" ≠ "")
    (fun table comm filled => ?_) (fun table comm other held filled => ?_) comments table
  · unfold showText
    split
    · rw [Table.lookup_set, if_pos rfl]
      exact filled
    · rename_i keeps
      exact fun empty => keeps ⟨filled, .inl empty⟩
  · unfold showText
    split
    · rename_i writes
      rw [Table.lookup_set]
      split
      · exact writes.1
      · exact held filled
    · exact held filled

theorem showText_fixed {rebase : UInt64} {table : Table UInt64 String} {comm : GhidraComment}
    (shown : comm.merged ≠ "" → (table.lookup (comm.addr + rebase)).getD "" ≠ "") :
    showText rebase table comm = table := by
  unfold showText
  split
  · rename_i writes
    refine Table.set_of_lookup ?_
    rcases writes.2 with empty | same
    · exact absurd empty (shown writes.1)
    · cases held : table.lookup (comm.addr + rebase) with
      | none =>
        rw [held] at same
        exact absurd same.symm writes.1
      | some text =>
        rw [held] at same
        exact congrArg some same
  · rfl

section
variable (view : BinaryView) (data : GhidraDbExport)

theorem applyToView_comments_eq :
    (applyToView view data).1.comments = data.comments.foldl (showText (rebaseOf view data)) view.comments := by
  rw [applyToView_comments, afterComments, foldl_applyComment_comments, afterSymbols_comments]

theorem comments_settled :
    (applyToView (applyToView view data).1 data).1.comments = (applyToView view data).1.comments := by
  rw [applyToView_comments_eq, rebaseOf_applyToView, applyToView_comments_eq]
  exact Fold.foldl_fixed fun comm member => showText_fixed (shown_after _ data.comments view.comments comm member)

def bookmarkTag (rebase : UInt64) (bm : GhidraBookmark) : DataTag :=
  ⟨bm.addr + rebase, some ("Ghidra: " ++ bm.type), bookmarkTagData bm.category bm.comment⟩

theorem applyMapped_dataTags : (applyMapped view data).view.dataTags = view.dataTags := by
  rw [applyMapped_frame, afterComments_frame, afterSymbols_frame, afterBlocks_frame]

/-- Every bookmark adds a tag, whatever tags there are. -/
theorem applyToView_dataTags :
    (applyToView view data).1.dataTags = view.dataTags ++ data.bookmarks.map (bookmarkTag (rebaseOf view data)) := by
  have signed : (applyToView view data).1.dataTags = (afterItems view data).dataTags :=
    Fold.foldl_keeps (fun v sig => by rw [applyFuncSig_frame]) data.funcSigs _
  have types : (afterItems view data).dataTags = (beforeTypes view data).dataTags := by
    rw [afterItems_frame, afterTypes_frame]
  have parameters : (beforeTypes view data).dataTags = (beforeParameters view data).dataTags :=
    Fold.foldl_keeps (fun v param => by rw [applyParameter_frame]) data.parameters _
  have bookmarks (bookmarks : List GhidraBookmark) (v : BinaryView) :
      (bookmarks.foldl (applyBookmark (rebaseOf view data)) v).dataTags =
        v.dataTags ++ bookmarks.map (bookmarkTag (rebaseOf view data)) := by
    induction bookmarks generalizing v with
    | nil => exact (List.append_nil _).symm
    | cons bm rest ih =>
      have added : (applyBookmark (rebaseOf view data) v bm).dataTags =
          v.dataTags ++ [bookmarkTag (rebaseOf view data) bm] := by
        rw [applyBookmark, getOrCreateTagType_frame]
        rfl
      rw [List.foldl_cons, ih, added, List.append_assoc]
      rfl
  have equates : (data.equates.foldl (applyEquate (rebaseOf view data)) (applyMapped view data).view).dataTags =
      (applyMapped view data).view.dataTags :=
    Fold.foldl_keeps (fun v eq => by rw [applyEquate_frame]) data.equates _
  rw [signed, types, parameters, beforeParameters, bookmarks, equates, applyMapped_dataTags]

theorem dataTags_settled_iff :
    (applyToView (applyToView view data).1 data).1.dataTags = (applyToView view data).1.dataTags ↔
      data.bookmarks = [] := by
  rw [applyToView_dataTags, List.append_right_eq_self, List.map_eq_nil_iff]

end

/-! ## One function twice -/

theorem foldl_plateText_of_shown {shown : String} (filled : shown ≠ "") (comments : List GhidraComment) :
    comments.foldl (fun shown comm => plateText shown comm.plate) shown = shown := by
  refine Fold.foldl_fixed fun comm _ => ?_
  unfold plateText
  split
  · rename_i writes
    exact (writes.2.resolve_left filled).symm
  · rfl

theorem foldl_plateText_twice (comments : List GhidraComment) (shown : String) :
    comments.foldl (fun shown comm => plateText shown comm.plate)
        (comments.foldl (fun shown comm => plateText shown comm.plate) shown) =
      comments.foldl (fun shown comm => plateText shown comm.plate) shown := by
  by_cases empty : shown = ""
  · by_cases still : comments.foldl (fun shown comm => plateText shown comm.plate) shown = ""
    · rw [still, ← empty, still, empty]
    · exact foldl_plateText_of_shown still comments
  · rw [foldl_plateText_of_shown empty, foldl_plateText_of_shown empty]

theorem foldl_user_twice (value : GhidraFuncSig → Bool) (sigs : List GhidraFuncSig) (held : Bool) :
    sigs.foldl (fun held sig => value sig || held) (sigs.foldl (fun held sig => value sig || held) held) =
      sigs.foldl (fun held sig => value sig || held) held := by
  have given (held : Bool) : sigs.foldl (fun held sig => value sig || held) held = (sigs.any value || held) := by
    induction sigs generalizing held with
    | nil => rfl
    | cons sig rest ih => rw [List.foldl_cons, ih, List.any_cons, ← Bool.or_assoc, Bool.or_comm (rest.any value)]
  rw [given, given, ← Bool.or_assoc, Bool.or_self]

section
variable {rebase : UInt64} {keys : Table Int64 UInt64} {data : GhidraDbExport} {early again late : BinaryView}

/-- The variables of a function after its parameter and local records. -/
def namedVars (rebase : UInt64) (data : GhidraDbExport) (types : BinaryView) (lead : Bool) (func : BNFunction)
    (vars : Table Variable VariableNameAndType) : Table Variable VariableNameAndType :=
  (parametersOf rebase data lead func.start).foldl (nameVariable types func.parameterVariables) vars

/-- A second pass over a function adds its tags once more and names its variables once
more; the rest is there already. -/
theorem passed_twice (lead : Bool) (func : BNFunction) :
    passed rebase keys data again late lead (passed rebase keys data early late lead func) =
      { passed rebase keys data early late lead func with
        tags := (passed rebase keys data early late lead func).tags ++
          (flagsOf keys data lead func.start).flatMap flagTags
        vars := namedVars rebase data again lead func (namedVars rebase data early lead func func.vars) } := by
  have comment := foldl_plateText_twice (platesOf rebase data lead func.start) func.comment
  have displayTypes := Table.writeAll_twice func.displayTypes (siteKey rebase) siteType
    ((data.equates.flatMap sitesOf).filter fun site => func.contains (site.2.addr + rebase))
  have convention := Fold.foldl_or_twice (newConvention func.conventions) (signaturesOf keys data lead func.start)
    func.callingConvention
  have returns := Fold.foldl_or_twice (newReturnType late) (signaturesOf keys data lead func.start) func.returnType
  have user := foldl_user_twice
    (fun sig => (newReturnType late sig).isSome || (newConvention func.conventions sig).isSome)
    (signaturesOf keys data lead func.start) func.hasUserType
  simp only [Bool.or_assoc] at user
  simp only [passed, signed, named, sited, tagged, plated, BNFunction.mk.injEq, true_and]
  exact ⟨comment, user, convention, returns, rfl, displayTypes⟩

theorem passed_twice_iff (lead : Bool) (func : BNFunction) :
    passed rebase keys data again late lead (passed rebase keys data early late lead func) =
        passed rebase keys data early late lead func ↔
      (flagsOf keys data lead func.start).flatMap flagTags = [] ∧
        namedVars rebase data again lead func (namedVars rebase data early lead func func.vars) =
          namedVars rebase data early lead func func.vars := by
  have vars : (passed rebase keys data early late lead func).vars =
      namedVars rebase data early lead func func.vars := rfl
  rw [passed_twice, ← vars]
  generalize passed rebase keys data early late lead func = once
  cases once
  simp only [BNFunction.mk.injEq, true_and, and_true, List.append_right_eq_self]

end

/-! ## The functions of the view -/

/-- The function of a symbol, by its key: the last function symbol of the key counts. -/
def functionKeys (rebase : UInt64) (symbols : List GhidraSymbol) : Table Int64 UInt64 :=
  Table.writeAll ∅ GhidraSymbol.key (fun sym => sym.addr + rebase) (symbols.filter fun sym => sym.type = .function)

theorem applySymbol_keyToAddr (rebase : UInt64) (s : ImportState) (sym : GhidraSymbol) :
    (applySymbol rebase s sym).keyToAddr =
      if sym.type = .function then s.keyToAddr.set sym.key (sym.addr + rebase) else s.keyToAddr := rfl

theorem applyComment_keyToAddr (rebase : UInt64) (s : ImportState) (comm : GhidraComment) :
    (applyComment rebase s comm).keyToAddr = s.keyToAddr := by
  have addressed (caddr : UInt64) (s : ImportState) : (applyAddressComment caddr comm s).keyToAddr = s.keyToAddr := by
    unfold applyAddressComment
    dsimp only
    split <;> rfl
  have plated (caddr : UInt64) (s : ImportState) : (applyPlateComment caddr comm s).keyToAddr = s.keyToAddr := by
    unfold applyPlateComment
    split
    · rfl
    · split <;> rfl
  rw [applyComment, plated, addressed]

theorem foldl_applySymbol_keyToAddr (rebase : UInt64) (symbols : List GhidraSymbol) (s : ImportState) :
    (symbols.foldl (applySymbol rebase) s).keyToAddr =
      s.keyToAddr.writeAll GhidraSymbol.key (fun sym => sym.addr + rebase)
        (symbols.filter fun sym => sym.type = .function) := by
  induction symbols generalizing s with
  | nil => rfl
  | cons sym rest ih =>
    rw [List.foldl_cons, ih, applySymbol_keyToAddr, List.filter_cons]
    by_cases isFunction : sym.type = .function
    · rw [if_pos isFunction, if_pos (decide_eq_true isFunction), Table.writeAll_cons]
    · rw [if_neg isFunction, if_neg (by simpa using isFunction)]

/-- No function is created where there is one. -/
theorem foldl_applySymbol_functions {rebase : UInt64} {symbols : List GhidraSymbol} {s : ImportState}
    (present : ∀ sym ∈ symbols, Creates s.view sym → (s.view.functionAt (sym.addr + rebase)).isSome = true) :
    (symbols.foldl (applySymbol rebase) s).view.functions = s.view.functions := by
  induction symbols generalizing s with
  | nil => rfl
  | cons sym rest ih =>
    have kept : (applySymbol rebase s sym).view.functions = s.view.functions := by
      rw [applySymbol_functions, createMissing, if_neg]
      rintro ⟨creates, missing⟩
      have there := present sym List.mem_cons_self creates
      rw [Option.isNone_iff_eq_none.mp missing] at there
      cases there
    rw [List.foldl_cons, ih, kept]
    intro other member creates
    rw [Creates, applySymbol_platform] at creates
    rw [BinaryView.functionAt, kept]
    exact present other (List.mem_cons_of_mem sym member) creates

section
variable (view : BinaryView) (data : GhidraDbExport)

theorem afterComments_keyToAddr :
    (afterComments view data).keyToAddr = functionKeys (rebaseOf view data) data.symbols := by
  have blocks : (afterBlocks view data).keyToAddr = ∅ :=
    @Fold.foldl_keeps ImportState GhidraMemoryBlock _ _ (fun s => s.keyToAddr)
      (fun s mb => by unfold applyMemoryBlock; split <;> rfl) data.memoryBlocks _
  have comments : (afterComments view data).keyToAddr = (afterSymbols view data).keyToAddr :=
    @Fold.foldl_keeps ImportState GhidraComment _ _ (fun s => s.keyToAddr)
      (applyComment_keyToAddr _) data.comments _
  rw [comments, afterSymbols, foldl_applySymbol_keyToAddr, blocks]
  rfl

theorem passed_start (rebase : UInt64) (keys : Table Int64 UInt64) (early late : BinaryView) (lead : Bool)
    (func : BNFunction) : (passed rebase keys data early late lead func).start = func.start := rfl

/-- The functions after the first import, by what the export and the view come with. -/
theorem applyToView_functions_eq :
    (applyToView view data).1.functions =
      Leads.each BNFunction.start
        (passed (rebaseOf view data) (functionKeys (rebaseOf view data) data.symbols) data (withEquates data view)
          (withTypes data view))
        (afterSymbols view data).view.functions := by
  rw [applyToView_functions, afterComments_keyToAddr,
    passed_congr _ _ _ (beforeParameters_scope view data) (afterItems_scope view data)]

theorem functionAt_applyToView (addr : UInt64) :
    ((applyToView view data).1.functionAt addr).isSome = ((afterSymbols view data).view.functionAt addr).isSome := by
  refine BinaryView.functionAt_isSome_congr ?_
  rw [applyToView_functions_eq]
  exact Leads.map_key_each (passed_start data _ _ _ _) _

theorem applyToView_platform : (applyToView view data).1.hasDefaultPlatform = view.hasDefaultPlatform := by
  have kept := congrArg BinaryView.hasDefaultPlatform (applyToView_scope view data)
  rw [withTypes_eq] at kept
  exact kept

/-- The second import creates no function. -/
theorem afterSymbols_functions_again :
    (afterSymbols (applyToView view data).1 data).view.functions = (applyToView view data).1.functions := by
  have blocks := afterBlocks_functions (applyToView view data).1 data
  rw [afterSymbols, foldl_applySymbol_functions, blocks]
  intro sym member creates
  rw [Creates, afterBlocks_platform, applyToView_platform] at creates
  rw [BinaryView.functionAt_isSome_congr (congrArg _ blocks), rebaseOf_applyToView, functionAt_applyToView,
    afterSymbols_functionAt]
  exact .inr ⟨sym, member, creates, rfl⟩

/-- The functions after the second import. -/
theorem functions_again :
    (applyToView (applyToView view data).1 data).1.functions =
      Leads.each BNFunction.start
        (passed (rebaseOf view data) (functionKeys (rebaseOf view data) data.symbols) data
          (withEquates data (withTypes data view)) (withTypes data (withTypes data view)))
        (applyToView view data).1.functions := by
  have early : (withEquates data (applyToView view data).1).scope =
      (withEquates data (withTypes data view)).scope := by
    rw [withEquates_scope, applyToView_scope, ← withEquates_scope]
  have late : (withTypes data (applyToView view data).1).scope = (withTypes data (withTypes data view)).scope := by
    rw [withTypes_scope, applyToView_scope, ← withTypes_scope]
  rw [applyToView_functions_eq, rebaseOf_applyToView, afterSymbols_functions_again, passed_congr _ _ _ early late]

end

theorem applySymbol_functionAt_eq (rebase : UInt64) (s : ImportState) (sym : GhidraSymbol) (addr : UInt64) :
    (applySymbol rebase s sym).view.functionAt addr =
      (s.view.functionAt addr).or
        (if Creates s.view sym ∧ sym.addr + rebase = addr then some { s.view.host.analyse addr with start := addr }
        else none) := by
  rw [BinaryView.functionAt, applySymbol_functions, createMissing]
  by_cases creates : Creates s.view sym
  · by_cases missing : (s.view.functionAt (sym.addr + rebase)).isNone = true
    · rw [if_pos ⟨creates, missing⟩, BinaryView.createUserFunction, List.find?_append]
      by_cases here : sym.addr + rebase = addr
      · subst here
        rw [if_pos ⟨creates, rfl⟩]
        simp [BinaryView.functionAt]
      · rw [if_neg fun both => here both.2]
        simp [BinaryView.functionAt, here]
    · rw [if_neg fun both => missing both.2]
      by_cases here : sym.addr + rebase = addr
      · subst here
        cases found : s.view.functionAt (sym.addr + rebase) with
        | none => exact absurd (Option.isNone_iff_eq_none.mpr found) missing
        | some func => exact found
      · rw [if_neg fun both => here both.2, Option.or_none]
        rfl
  · rw [if_neg fun both => creates both.1, if_neg fun both => creates both.1, Option.or_none]
    rfl

theorem foldl_applySymbol_functionAt_eq (rebase : UInt64) (symbols : List GhidraSymbol) (s : ImportState)
    (addr : UInt64) :
    (symbols.foldl (applySymbol rebase) s).view.functionAt addr =
      (s.view.functionAt addr).or
        (if ∃ sym ∈ symbols, Creates s.view sym ∧ sym.addr + rebase = addr then
          some { s.view.host.analyse addr with start := addr }
        else none) := by
  induction symbols generalizing s with
  | nil => simp
  | cons sym rest ih =>
    have host : (applySymbol rebase s sym).view.host = s.view.host := by rw [applySymbol_frame]
    have platform (other : GhidraSymbol) : Creates (applySymbol rebase s sym).view other ↔ Creates s.view other := by
      rw [Creates, applySymbol_platform, Creates]
    rw [List.foldl_cons, ih, applySymbol_functionAt_eq, host, Option.or_assoc]
    simp only [platform, List.mem_cons, exists_eq_or_imp]
    by_cases first : Creates s.view sym ∧ sym.addr + rebase = addr
    · simp [first]
    · simp [first]

section
variable (view : BinaryView) (data : GhidraDbExport)

/-- The function at an address that the import works on: the view's, or the one it
creates for a function symbol. -/
def functionFor (addr : UInt64) : Option BNFunction :=
  (view.functionAt addr).or
    (if ∃ sym ∈ data.symbols, Creates view sym ∧ sym.addr + rebaseOf view data = addr then
      some { view.host.analyse addr with start := addr }
    else none)

theorem afterSymbols_functionAt_eq (addr : UInt64) :
    (afterSymbols view data).view.functionAt addr = functionFor view data addr := by
  have functions : (afterBlocks view data).view.functionAt addr = view.functionAt addr :=
    congrArg (List.find? _) (afterBlocks_functions view data)
  have host : (afterBlocks view data).view.host = view.host := by rw [afterBlocks_frame]
  have platform (sym : GhidraSymbol) : Creates (afterBlocks view data).view sym ↔ Creates view sym := by
    rw [Creates, afterBlocks_platform, Creates]
  rw [afterSymbols, foldl_applySymbol_functionAt_eq, functions, host, functionFor]
  simp only [platform]

/-- No function flag that is set belongs to a function. -/
def FlagsLoose : Prop :=
  ∀ ff ∈ data.funcFlags, (ff.thunk || ff.noReturn || ff.isInline) = true →
    ∀ addr, (functionKeys (rebaseOf view data) data.symbols).lookup ff.key = some addr →
      functionFor view data addr = none

/-- The variables of every function are settled, with the types of the export registered
when the records run again. -/
def VariablesSettled : Prop :=
  ∀ addr func, functionFor view data addr = some func → ∀ var,
    VariableSettled (withEquates data view) (withEquates data (withTypes data view)) func
      (parametersOf (rebaseOf view data) data true func.start) var

theorem flagTags_eq_nil {ff : GhidraFuncFlags} :
    flagTags ff = [] ↔ (ff.thunk || ff.noReturn || ff.isInline) = false := by
  unfold flagTags
  cases ff.thunk <;> cases ff.noReturn <;> cases ff.isInline <;> simp

theorem mem_leads_iff {func : BNFunction} :
    (true, func) ∈ Leads.leads BNFunction.start [] (afterSymbols view data).view.functions ↔
      functionFor view data func.start = some func := by
  rw [Leads.mem_leads, ← afterSymbols_functionAt_eq]
  simp only [List.not_mem_nil, not_false_eq_true, true_and]
  rfl

theorem start_of_functionFor {addr : UInt64} {func : BNFunction} (found : functionFor view data addr = some func) :
    func.start = addr := by
  rw [← afterSymbols_functionAt_eq] at found
  simpa using List.find?_some found

/-- With the types settled, the functions are those of the first import exactly when no
tag is added and no variable is renamed. -/
theorem functions_settled_iff
    (types : (withTypes data (withTypes data view)).scope = (withTypes data view).scope) :
    (applyToView (applyToView view data).1 data).1.functions = (applyToView view data).1.functions ↔
      FlagsLoose view data ∧ VariablesSettled view data := by
  rw [functions_again, passed_congr _ _ _ rfl types, applyToView_functions_eq,
    Leads.each_each_eq_iff (passed_start data _ _ _ _)]
  simp only [passed_twice_iff]
  constructor
  · intro settled
    refine ⟨fun ff member set addr known => ?_, fun addr func found => ?_⟩
    · cases found : functionFor view data addr with
      | none => rfl
      | some func =>
        have start := start_of_functionFor view data found
        subst start
        have untagged := (settled _ ((mem_leads_iff view data).mpr found)).1
        have reached : ff ∈ flagsOf (functionKeys (rebaseOf view data) data.symbols) data true func.start :=
          List.mem_filter.mpr ⟨member, by simp [known]⟩
        rw [flagTags_eq_nil.mp (List.flatMap_eq_nil_iff.mp untagged ff reached)] at set
        cases set
    · have start := start_of_functionFor view data found
      subst start
      exact (named_twice_iff _ _ func _).mp (settled _ ((mem_leads_iff view data).mpr found)).2
  · rintro ⟨loose, named⟩ ⟨lead, func⟩ member
    cases lead with
    | false =>
      have flags : flagsOf (functionKeys (rebaseOf view data) data.symbols) data false func.start = [] :=
        reaching_false ..
      have parameters : parametersOf (rebaseOf view data) data false func.start = [] := reaching_false ..
      dsimp only
      rw [namedVars, namedVars, flags, parameters]
      exact ⟨rfl, rfl⟩
    | true =>
      have found := (mem_leads_iff view data).mp member
      refine ⟨List.flatMap_eq_nil_iff.mpr fun ff reached => flagTags_eq_nil.mpr ?_,
        (named_twice_iff _ _ func _).mpr (named _ func found)⟩
      obtain ⟨listed, place⟩ := List.mem_filter.mp reached
      by_contra set
      have nowhere := loose ff listed (Bool.eq_true_of_not_eq_false set) func.start (by simpa using place)
      rw [found] at nowhere
      cases nowhere

end

/-! ## Data variables and maps -/

/-- The type a data item gets, if its data type is known. -/
def itemType (dataTypes : List GhidraDataType) (known : Table String BNType) (item : GhidraDataItem) :
    Option BNType :=
  (dataTypes.find? fun dt => dt.id = item.typeId && dt.name ≠ "").bind fun dt => known.lookup dt.name

/-- The items that become variables, with their types. -/
def typedItems (dataTypes : List GhidraDataType) (known : Table String BNType) (items : List GhidraDataItem) :
    List (GhidraDataItem × BNType) :=
  items.filterMap fun item => (itemType dataTypes known item).map (Prod.mk item)

theorem foldl_applyDataItem_dataVariables (rebase : UInt64) (dataTypes : List GhidraDataType)
    (known : Table String BNType) (items : List GhidraDataItem) (view : BinaryView) :
    (items.foldl (applyDataItem rebase dataTypes known) view).dataVariables =
      view.dataVariables.writeAll (fun entry => entry.1.addr + rebase) (fun entry => ⟨false, some entry.2⟩)
        (typedItems dataTypes known items) := by
  induction items generalizing view with
  | nil => rfl
  | cons item rest ih =>
    rw [List.foldl_cons, ih, typedItems, typedItems, List.filterMap_cons, itemType, applyDataItem]
    cases dataTypes.find? fun dt => dt.id = item.typeId && dt.name ≠ "" with
    | none => rfl
    | some dt =>
      dsimp only [Option.bind_some]
      cases known.lookup dt.name with
      | none => rfl
      | some type => rfl

section
variable (view : BinaryView) (data : GhidraDbExport)

theorem applyToView_dataVariables_eq :
    (applyToView view data).1.dataVariables =
      view.dataVariables.writeAll (fun entry => entry.1.addr + rebaseOf view data)
        (fun entry => ⟨false, some entry.2⟩)
          (typedItems data.dataTypes (typesByName (withTypes data view).scope data.dataTypes) data.dataItems) := by
  have types : (afterTypes view data).scope = (withTypes data view).scope := by
    have items : (afterItems view data).scope = (afterTypes view data).scope := by
      rw [afterItems_frame]
      rfl
    rw [← items, afterItems_scope]
  have known : typesByName (afterTypes view data) data.dataTypes =
      typesByName (withTypes data view).scope data.dataTypes := by
    rw [← types]
    rfl
  have before : (afterTypes view data).dataVariables = view.dataVariables :=
    BinaryView.dataVariables_eq_of_untyped (afterTypes_untyped view data)
  rw [applyToView_dataVariables, afterItems, foldl_applyDataItem_dataVariables, known, before]

theorem dataVariables_settled
    (types : (withTypes data (withTypes data view)).scope = (withTypes data view).scope) :
    (applyToView (applyToView view data).1 data).1.dataVariables = (applyToView view data).1.dataVariables := by
  have scope : (withTypes data (applyToView view data).1).scope = (withTypes data view).scope := by
    rw [withTypes_scope, applyToView_scope, ← withTypes_scope, types]
  rw [applyToView_dataVariables_eq, scope, rebaseOf_applyToView, applyToView_dataVariables_eq, Table.writeAll_twice]

/-- The maps only ask of the view where functions start, and they still start there. -/
theorem maps_settled :
    (applyToView (applyToView view data).1 data).2.baseline = (applyToView view data).2.baseline := by
  have starts (addr : UInt64) : ((afterSymbols (applyToView view data).1 data).view.functionAt addr).isSome =
      ((afterSymbols view data).view.functionAt addr).isSome := by
    rw [BinaryView.functionAt_isSome_congr (congrArg _ (afterSymbols_functions_again view data)),
      functionAt_applyToView]
  have seen : seenComments (applyToView view data).1 data = seenComments view data := by
    rw [seenComments, rebaseOf_applyToView]
    simp only [starts]
    rfl
  rw [applyToView_baseline, seen, applyToView_baseline, buildWritebackMaps, buildWritebackMaps]
  have rebase : rebaseOf (applyToView view data).1 { data with comments := seenComments view data } =
      rebaseOf view { data with comments := seenComments view data } := rebaseOf_applyToView view data
  rw [rebase]

/-! ## The whole import twice -/

/-- Two imports leave the same view, and the same maps for a later check-in. -/
structure Unchanged (first second : BinaryView × SyncResult) : Prop where
  symbols : ∀ addr, second.1.symbolsAt addr = first.1.symbolsAt addr
  functions : second.1.functions = first.1.functions
  comments : second.1.comments = first.1.comments
  dataTags : second.1.dataTags = first.1.dataTags
  sections : second.1.sections = first.1.sections
  segments : second.1.segments = first.1.segments
  userTypes : second.1.userTypes = first.1.userTypes
  autoTypes : second.1.autoTypes = first.1.autoTypes
  dataVariables : second.1.dataVariables = first.1.dataVariables
  maps : second.2.baseline = first.2.baseline

theorem applyToView_autoTypes : (applyToView view data).1.autoTypes = (withTypes data view).autoTypes := by
  have kept := congrArg BinaryView.autoTypes (applyToView_scope view data)
  exact kept

theorem autoTypes_settled_iff :
    (applyToView (applyToView view data).1 data).1.autoTypes = (applyToView view data).1.autoTypes ↔
      MembersSettled data view := by
  have again : (withTypes data (applyToView view data).1).autoTypes =
      (withTypes data (withTypes data view)).autoTypes := by
    have scope : (withTypes data (applyToView view data).1).scope = (withTypes data (withTypes data view)).scope := by
      rw [withTypes_scope, applyToView_scope, ← withTypes_scope]
    have kept := congrArg BinaryView.autoTypes scope
    exact kept
  rw [applyToView_autoTypes, again, applyToView_autoTypes, withTypes_twice_iff]

theorem withTypes_scope_of_settled (settled : MembersSettled data view) :
    (withTypes data (withTypes data view)).scope = (withTypes data view).scope := by
  have same := (withTypes_twice_iff data view).mpr settled
  rw [withTypes_eq data (withTypes data view), same]

/-- A second import changes nothing exactly when there is no bookmark, no flag that is
set belongs to a function, and neither the members of the data types nor the variables
of the functions come out another way once the export's types are registered. -/
theorem second_import_unchanged_iff :
    Unchanged (applyToView view data) (applyToView (applyToView view data).1 data) ↔
      data.bookmarks = [] ∧ FlagsLoose view data ∧ MembersSettled data view ∧ VariablesSettled view data := by
  constructor
  · intro unchanged
    have members := (autoTypes_settled_iff view data).mp unchanged.autoTypes
    have scope := withTypes_scope_of_settled view data members
    obtain ⟨flags, named⟩ := (functions_settled_iff view data scope).mp unchanged.functions
    exact ⟨(dataTags_settled_iff view data).mp unchanged.dataTags, flags, members, named⟩
  · rintro ⟨bookmarks, flags, members, named⟩
    have scope := withTypes_scope_of_settled view data members
    exact
      { symbols := symbols_settled view data
        functions := (functions_settled_iff view data scope).mpr ⟨flags, named⟩
        comments := comments_settled view data
        dataTags := (dataTags_settled_iff view data).mpr bookmarks
        sections := sections_settled view data
        segments := segments_settled view data
        userTypes := applyToView_userTypes _ data
        autoTypes := (autoTypes_settled_iff view data).mpr members
        dataVariables := dataVariables_settled view data scope
        maps := maps_settled view data }

end

/-- One bookmark on an empty view is two tags after the second import. -/
theorem bookmark_tagged_twice :
    let data : GhidraDbExport :=
      { bookmarks := [{ addr := 0x401000, type := "Note", category := "", comment := "todo" }] }
    let first := applyToView {} data
    first.1.dataTags = [⟨0x401000, some "Ghidra: Note", "todo"⟩] ∧
      (applyToView first.1 data).1.dataTags =
        [⟨0x401000, some "Ghidra: Note", "todo"⟩, ⟨0x401000, some "Ghidra: Note", "todo"⟩] ∧
      ¬Unchanged first (applyToView first.1 data) := by
  intro data first
  have once : first.1.dataTags = [⟨0x401000, some "Ghidra: Note", "todo"⟩] := by decide +kernel
  have twice : (applyToView first.1 data).1.dataTags =
      [⟨0x401000, some "Ghidra: Note", "todo"⟩, ⟨0x401000, some "Ghidra: Note", "todo"⟩] := by decide +kernel
  refine ⟨once, twice, fun unchanged => ?_⟩
  have same := unchanged.dataTags
  rw [once, twice] at same
  cases same

end Reimport
end GhidraBridge
